import Bgpgg.Peer.AsPathExport

namespace Bgpgg.Peer

open Net Wire Lib Rib Policies UpdateMessage List

def hopSuits : IpNetwork → NextHopAddr → Bool
  | .v4 _, .ipv4 addr => isValidUnicastIpv4 addr
  | .v4 _, _ => false
  | .v6 _, .ipv4 _ => false
  | .v6 _, _ => true

section

variable (path : Path) (ctx : PeerExportContext)

def carriedHop : NextHopAddr := if ctx.rsClient then path.attrs.nextHop
  else if ctx.isEbgp then
    if addressFamiliesMatch path.attrs.nextHop ctx.localNextHop then nextHopOf ctx.localNextHop else path.attrs.nextHop
  else if ctx.nextHopSelf then nextHopOf ctx.localNextHop
  else if path.source = .localSource ∧ isUnspecified path.attrs.nextHop = true then nextHopOf ctx.localNextHop
  else path.attrs.nextHop

def prefixFamily : IpNetwork → PrefixFamily
  | .v4 _ => ipv4Family
  | .v6 _ => ipv6Family

def exportedNlri (net : IpNetwork) (path : Path) (ctx : PeerExportContext) : Nlri :=
  ⟨net, path.pathIdFor ctx.sendFormat.addPath net.afiSafi⟩

end

-- Other segments, counted ones, are written as the same bytes.
def WrittenAsCounted (use4byteAsn : Bool) (segments : List AsPathSegment) : Prop :=
  ∃ others : List AsPathSegment, (∀ segment ∈ others, SegmentRewritable use4byteAsn segment) ∧
    writeAsPath ⟨others⟩ use4byteAsn = writeAsPath (wireAsPath use4byteAsn segments) use4byteAsn

-- The exports of a prefix that are taken: a prefix the reader does not skip, with an
-- identifier where one is expected, a next hop of its family, and an AS_PATH that still
-- counts its numbers after the local AS was put in front.
structure ExportReadable (net : IpNetwork) (path : Path) (ctx : PeerExportContext) : Prop where
  route : Rewritable (prefixFamily net) (ctx.sendFormat.addPath.contains net.afiSafi) (exportedNlri net path ctx)
  nextHop : hopSuits net (carriedHop path ctx) = true
  counted : PathCounted path → ¬ CountWraps path ctx
  uncounted : ¬ PathCounted path → WrittenAsCounted ctx.sendFormat.use4byteAsn (buildExportAsPath path ctx)

def AcceptedAs (hashing : Hashing) (message : UpdateMessage) (format : MessageFormat) (nlri : Nlri) (nextHop : NextHopAddr) : Prop :=
  ∃ decoded, Taken hashing message.toBytes format decoded ∧ decoded.allNlri = [nlri] ∧ decoded.nextHop = some nextHop

section

variable (use4byteAsn : Bool) {path : Path} {ctx : PeerExportContext}

theorem asPathScans_ne_zero {segment : AsPathSegment} (rest : List AsPathSegment) (empty : segment.segmentLen = 0) :
    ¬ AsPathScans use4byteAsn (segment :: rest) := by
  rintro ⟨read, scanned⟩
  obtain ⟨first, others, shape, none⟩ : ∃ first others, wireAsPath use4byteAsn (segment :: rest) = ⟨first :: others⟩ ∧
      first.segmentLen = 0 := by
    rw [wireAsPath]
    split <;> exact ⟨_, _, rfl, empty⟩
  rw [shape, writeAsPath, flatMap_cons] at scanned
  have refused : ∀ tail : List UInt8,
      readSegment (asnSize use4byteAsn) [] (writeSegment use4byteAsn first ++ tail) = .err malformedAsPath := by
    intro tail
    obtain ⟨segmentType, segmentLen, asnList⟩ := first
    subst none
    cases segmentType <;> rfl
  rw [readAttrAsPath, tryReadAsPath,
    scan_step (readSegment_advances _ _) _ _ (by simp [writeSegment]) (Nat.le_refl _), refused] at scanned
  cases scanned

theorem buildExportAsPath_scans_iff (counted : PathCounted path) :
    AsPathScans use4byteAsn (buildExportAsPath path ctx) ↔ ¬ CountWraps path ctx := by
  constructor
  · intro scans wraps
    obtain ⟨segment, rest, shape, zero, -⟩ := wraps.head
    rw [shape] at scans
    exact asPathScans_ne_zero _ rest zero scans
  · intro spare
    exact asPathScans_of_counted _ _ ((exported_counted_iff counted).mpr spare)

theorem asPathScans_iff_written (segments : List AsPathSegment) :
    AsPathScans use4byteAsn segments ↔ WrittenAsCounted use4byteAsn segments := by
  constructor
  · rintro ⟨read, scanned⟩
    exact ⟨read.segments, readAttrAsPath_rewritable _ _ _ scanned⟩
  · rintro ⟨others, rewritable, same⟩
    rw [AsPathScans, ← same, readAttrAsPath, tryReadAsPath_write ⟨others⟩ rewritable]
    split <;> exact ⟨_, rfl⟩

theorem asPathScans_exported_iff : AsPathScans use4byteAsn (buildExportAsPath path ctx) ↔ (PathCounted path → ¬ CountWraps path ctx) ∧
      (¬ PathCounted path → WrittenAsCounted use4byteAsn (buildExportAsPath path ctx)) := by
  by_cases counted : PathCounted path
  · rw [buildExportAsPath_scans_iff use4byteAsn counted]
    simp [counted]
  · simp [counted, asPathScans_iff_written]

end

section

variable {key : RouteKey} {net : IpNetwork} {path exported : Path} {ctx : PeerExportContext}

structure ExportedFrom (key : RouteKey) (path : Path) (ctx : PeerExportContext) (exported : Path) : Prop where
  localPathId : exported.localPathId = path.localPathId
  asPath : exported.attrs.asPath = buildExportAsPath path ctx
  nextHop : buildExportNextHop path ctx key = some exported.attrs.nextHop
  unknownAttrs : exported.attrs.unknownAttrs.Sublist path.attrs.unknownAttrs

theorem buildExportAttrs_some {attrs : PathAttrs} (built : buildExportAttrs path ctx key = some attrs) :
    attrs.asPath = buildExportAsPath path ctx ∧ buildExportNextHop path ctx key = some attrs.nextHop ∧
      attrs.unknownAttrs = buildExportUnknownAttrs path ctx := by
  obtain ⟨nextHop, hop, rfl⟩ := Option.map_eq_some_iff.mp built
  exact ⟨rfl, hop, rfl⟩

theorem buildExportUnknownAttrs_sublist (path : Path) (ctx : PeerExportContext) :
    (buildExportUnknownAttrs path ctx).Sublist path.attrs.unknownAttrs := by
  rw [buildExportUnknownAttrs]
  split
  · exact List.Sublist.refl _
  · split
    · exact filter_sublist
    · exact List.Sublist.refl _

theorem buildExportAsPath_untouched {before after : Path} (untouched : Untouched before after) :
    buildExportAsPath after ctx = buildExportAsPath before ctx := by
  rw [buildExportAsPath, buildExportAsPath, Rib.Path.source, Rib.Path.source, untouched.asPath, untouched.source]

theorem buildExportNextHop_untouched {before after : Path} (untouched : Untouched before after) :
    buildExportNextHop after ctx key = buildExportNextHop before ctx key := by
  have ebgp : buildEbgpNextHop after ctx.localNextHop = buildEbgpNextHop before ctx.localNextHop := by
    rw [buildEbgpNextHop, buildEbgpNextHop, untouched.nextHop]
  have ibgp : buildIbgpNextHop after ctx.localNextHop = buildIbgpNextHop before ctx.localNextHop := by
    rw [buildIbgpNextHop, buildIbgpNextHop, Rib.Path.source, Rib.Path.source, untouched.nextHop, untouched.source]
  simp [buildExportNextHop, ebgp, ibgp, untouched.nextHop]

theorem computeExportPath_exported (computed : computeExportPath key path ctx = some exported) : ExportedFrom key path ctx exported := by
  have untouched := evaluatePolicies_untouched key ((ctx.exportPolicies.lookup key.afiSafi).getD []) path
  rw [computeExportPath] at computed
  split at computed
  · cases computed
  · simp only at computed
    split at computed
    · cases computed
    · obtain ⟨attrs, built, rfl⟩ := Option.map_eq_some_iff.mp computed
      obtain ⟨asPath, nextHop, unknownAttrs⟩ := buildExportAttrs_some built
      refine ⟨untouched.localPathId, ?_, ?_, ?_⟩
      · exact asPath.trans (buildExportAsPath_untouched untouched)
      · exact (buildExportNextHop_untouched untouched).symm.trans nextHop
      · rw [← untouched.unknownAttrs]
        simp only [unknownAttrs]
        exact buildExportUnknownAttrs_sublist _ ctx

theorem ExportedFrom.relayed (from_ : ExportedFrom key path ctx exported) (relayed : Relayed path) : Relayed exported :=
  ⟨fun attr member => relayed.form attr (from_.unknownAttrs.subset member), relayed.distinct.sublist (from_.unknownAttrs.map _)⟩

theorem hopSuits_linkLocal (net : IpNetwork) (global linkLocal : Ipv6Addr) :
    hopSuits net (.ipv6WithLinkLocal global linkLocal) = hopSuits net (.ipv6 global) := by
  cases net <;> rfl

theorem hopSuits_exported {hop : NextHopAddr} (built : buildExportNextHop path ctx (.pfx net) = some hop) :
    hopSuits net hop = hopSuits net (carriedHop path ctx) := by
  simp only [buildExportNextHop] at built
  rw [carriedHop]
  split at built
  · rename_i routeServer
    rw [if_pos routeServer]
    cases built
    rfl
  · rename_i notRouteServer
    rw [if_neg notRouteServer]
    generalize base : (if ctx.isEbgp then buildEbgpNextHop path ctx.localNextHop
      else if ctx.nextHopSelf then some (nextHopOf ctx.localNextHop)
      else buildIbgpNextHop path ctx.localNextHop) = chosen at built
    have plain : ∃ original, chosen = some original ∧ hopSuits net hop = hopSuits net original := by
      split at built
      · split at built
        · cases built
          exact ⟨_, rfl, hopSuits_linkLocal net _ _⟩
        · cases built
          exact ⟨_, rfl, rfl⟩
      · exact ⟨hop, built, rfl⟩
    obtain ⟨original, rfl, same⟩ := plain
    rw [same]
    split at base
    · rename_i ebgp
      rw [if_pos ebgp]
      rw [buildEbgpNextHop] at base
      split at base
      · rename_i sameFamily
        cases base
        rw [if_pos sameFamily]
      · rename_i otherFamily
        rw [if_neg otherFamily]
        split at base
        · cases base
          rfl
        · cases base
    · rename_i ibgp
      rw [if_neg ibgp]
      split at base
      · rename_i self
        cases base
        rw [if_pos self]
      · rename_i notSelf
        rw [if_neg notSelf]
        rw [buildIbgpNextHop] at base
        by_cases own : path.source = .localSource
        · rw [if_neg (not_not.mpr own)] at base
          cases unspecified : isUnspecified path.attrs.nextHop with
          | false =>
            rw [unspecified] at base
            cases base
            rw [if_neg (by simp)]
          | true =>
            rw [unspecified] at base
            rw [if_pos ⟨own, rfl⟩]
            simp only [Bool.not_true, Bool.false_eq_true, if_false] at base
            split at base
            · cases base
              rfl
            · cases base
        · rw [if_pos own] at base
          cases base
          rw [if_neg fun both => own both.1]

theorem layBody_short {message : UpdateMessage} (fits : message.serialize.length ≤ MAX_MESSAGE_SIZE) :
    (attrBytes message).length < 2 ^ 16 := by
  have body : message.toBytes.length ≤ message.serialize.length := by
    simp only [serialize, length_append]
    omega
  rw [toBytes_layBody, length_layBody] at body
  rw [MAX_MESSAGE_SIZE] at fits
  omega

end

section

variable {hashing : Hashing} {path : Path} {format : MessageFormat}

variable {tail : List PathAttribute} {value : PathAttrValue} {nextHop : NextHopAddr}

theorem mpReach_only (value : PathAttrValue) (mp : MpReachNlri) (picked : UpdateMessage.mpReach value = some mp) :
    value.attrType = some .mpReachNlri := by
  cases value <;> first | rfl | cases picked

theorem nextHopOf_only (value : PathAttrValue) (nextHop : NextHopAddr) (picked : UpdateMessage.nextHopOf value = some nextHop) :
    value.attrType = some .nextHop := by
  cases value <;> first | rfl | cases picked

theorem nextHopOf_some (picked : UpdateMessage.nextHopOf value = some nextHop) : value = .nextHop nextHop := by
  cases value <;> cases picked
  rfl

theorem mpReach_some {mp : MpReachNlri} (picked : UpdateMessage.mpReach value = some mp) : value = .mpReachNlri mp := by
  cases value <;> cases picked
  rfl

theorem allNlri_eq (message : UpdateMessage) (distinct : (message.pathAttributes.map PathAttribute.typeCode).Nodup) :
    message.allNlri = message.nlriList ++ (message.attrValues.findSome? UpdateMessage.mpReach).toList.flatMap MpReachNlri.nlri := by
  rw [allNlri, attrValues, filterMap_eq_toList _ distinct mpReach_only]

theorem new_v4 (path : Path) (net : Ipv4Net) (format : MessageFormat) : Layout path format (UpdateMessage.new path [.v4 net] format)
      (if path.attrs.nextHop.isIpv4 then [⟨TRANSITIVE, .nextHop path.attrs.nextHop⟩] else []) ∧
    (UpdateMessage.new path [.v4 net] format).nlriList = [⟨.v4 net, path.pathIdFor format.addPath ipv4Unicast⟩] := by
  refine ⟨?_, rfl⟩
  have layout := layout_new path format [.v4 net]
  simp only [nextHopAttr, mpReachAttr, isIpv4Network, filter_cons] at layout
  simpa using layout

theorem new_v6 (path : Path) (net : Ipv6Net) (format : MessageFormat) : Layout path format (UpdateMessage.new path [.v6 net] format)
      [⟨OPTIONAL, .mpReachNlri ⟨.ipv6, .unicast, path.attrs.nextHop, [⟨.v6 net, path.pathIdFor format.addPath ipv6Unicast⟩], []⟩⟩] ∧
    (UpdateMessage.new path [.v6 net] format).nlriList = [] := by
  refine ⟨?_, rfl⟩
  have layout := layout_new path format [.v6 net]
  simp only [nextHopAttr, mpReachAttr, isIpv4Network, filter_cons] at layout
  simpa [makeNlriList] using layout

theorem nextHop_readable_iff (order : HashOrder UInt16) (net : Ipv4Net) (hop : NextHopAddr) :
    Readable order format (.nextHop hop) ↔ hopSuits (.v4 net) hop = true := by
  cases hop <;> simp [Readable, hopSuits]

theorem taken_read {message decoded : UpdateMessage} (layout : Layout path format message tail)
    (relayed : Relayed path) (short : (attrBytes message).length < 2 ^ 16) (taken : Taken hashing message.toBytes format decoded) :
    SectionRead hashing.tlvs format message.wireAttributes decoded.pathAttributes ∧ AsPathScans format.use4byteAsn path.attrs.asPath ∧
      parseNlriList (writeNlriList message.nlriList) (format.addPath.contains ipv4Unicast) = .ok decoded.nlriList := by
  have same := layout.format
  subst same
  have sizes := encodedShort_of_total short
  obtain ⟨out, nlriList, read, parsed, -, rfl⟩ := (taken_iff layout.withdrawn short decoded).mp taken
  obtain ⟨section_, tolerated⟩ := readPathAttributes_read (layout.distinct relayed) sizes read
  refine ⟨section_, (tolerated_asPath_iff _).mp (tolerated rfl _ (layout.asPath_wire relayed)), ?_⟩
  rw [parseNlriAfter, if_neg (attrBytes_ne_nil (layout.origin_wire relayed) rfl)] at parsed
  exact parsed

theorem accepted_of_readable {message : UpdateMessage} {nlri : Nlri}
    (layout : Layout path format message tail) (relayed : Relayed path) (short : (attrBytes message).length < 2 ^ 16)
    (scans : AsPathScans format.use4byteAsn path.attrs.asPath) (readable : ∀ attr ∈ tail, AttrReadable hashing.tlvs format attr)
    (present : ∃ attr ∈ tail, attr.value.attrType ∈ [some .nextHop, some .mpReachNlri])
    (routes : ∀ nlri ∈ message.nlriList, Rewritable ipv4Family (format.addPath.contains ipv4Unicast) nlri)
    (announced : message.nlriList ++
      ((tail.map PathAttribute.value).findSome? UpdateMessage.mpReach).toList.flatMap MpReachNlri.nlri = [nlri])
    (hop : (((tail.map PathAttribute.value).findSome? UpdateMessage.mpReach).map MpReachNlri.nextHop).or
      ((tail.map PathAttribute.value).findSome? UpdateMessage.nextHopOf) = some nextHop) :
    AcceptedAs hashing message format nlri nextHop := by
  obtain ⟨out, section_, -, taken⟩ := layout.delivered relayed scans (layout.hopsReadable relayed readable present routes) short
  have reach : (out.map PathAttribute.value).findSome? UpdateMessage.mpReach =
      (tail.map PathAttribute.value).findSome? UpdateMessage.mpReach :=
    layout.lookup_hop relayed section_ readable mpReach_only (by decide)
  refine ⟨_, taken, ?_, ?_⟩
  · rw [allNlri_eq _ section_.distinct, attrValues, reach]
    exact announced
  · have own : (out.map PathAttribute.value).findSome? UpdateMessage.nextHopOf =
        (tail.map PathAttribute.value).findSome? UpdateMessage.nextHopOf :=
      layout.lookup_hop relayed section_ readable nextHopOf_only (by decide)
    rw [UpdateMessage.nextHop, attrValues, reach, own]
    exact hop

theorem accepted_v4_iff {net : Ipv4Net} (relayed : Relayed path)
    (short : (attrBytes (UpdateMessage.new path [.v4 net] format)).length < 2 ^ 16) :
    AcceptedAs hashing (UpdateMessage.new path [.v4 net] format) format ⟨.v4 net, path.pathIdFor format.addPath ipv4Unicast⟩
        path.attrs.nextHop ↔
      Rewritable ipv4Family (format.addPath.contains ipv4Unicast) ⟨.v4 net, path.pathIdFor format.addPath ipv4Unicast⟩ ∧
        hopSuits (.v4 net) path.attrs.nextHop = true ∧ AsPathScans format.use4byteAsn path.attrs.asPath := by
  obtain ⟨layout, routes⟩ := new_v4 path net format
  constructor
  · rintro ⟨decoded, taken, announced, hop⟩
    obtain ⟨section_, scans, parsed⟩ := taken_read layout relayed short taken
    have noReach : decoded.attrValues.findSome? UpdateMessage.mpReach = none := by
      rw [findSome?_eq_none_iff]
      intro value member
      obtain ⟨read, inOut, rfl⟩ := mem_map.mp member
      cases picked : UpdateMessage.mpReach read.value with
      | none => rfl
      | some mp =>
        obtain ⟨attr, inTail, -, code⟩ := layout.read_hop relayed section_ inOut (mpReach_only _ _ picked) (by decide)
        split at inTail
        · rw [mem_singleton.mp inTail] at code
          cases code
        · cases inTail
    rw [allNlri_eq _ section_.distinct, noReach, Option.toList_none, flatMap_nil, append_nil] at announced
    rw [announced] at parsed
    refine ⟨parseNlris_rewritable_v4 _ _ _ parsed _ mem_cons_self, ?_, scans⟩
    rw [UpdateMessage.nextHop, noReach, Option.map_none] at hop
    obtain ⟨value, member, picked⟩ := exists_of_findSome?_eq_some hop
    obtain ⟨read, inOut, rfl⟩ := mem_map.mp member
    have shape := nextHopOf_some picked
    obtain ⟨attr, -, readAs, code⟩ := layout.read_hop relayed section_ inOut (nextHopOf_only _ _ picked) (by decide)
    obtain ⟨-, -, -, readable⟩ := readAs_parsed readAs code
    rw [shape] at readable
    exact (nextHop_readable_iff _ net _).mp (readable.resolve_right (by simp))
  · rintro ⟨route, hop, scans⟩
    have isV4 : path.attrs.nextHop.isIpv4 = true := by
      cases shape : path.attrs.nextHop <;> simp_all [hopSuits, NextHopAddr.isIpv4]
    rw [isV4] at layout
    apply accepted_of_readable layout relayed short scans
    · intro attr member
      rw [mem_singleton.mp member, attrReadable_known rfl]
      exact ⟨(nextHop_readable_iff _ net _).mpr hop, expectedFlags_valid .nextHop⟩
    · exact ⟨_, mem_cons_self, mem_cons_self⟩
    · rw [routes]
      exact forall_mem_singleton.mpr route
    · exact routes
    · rfl

theorem hopSuits_v6_iff (net : Ipv6Net) (hop : NextHopAddr) : NextHopReads ipv6Unicast hop ↔ hopSuits (.v6 net) hop = true := by
  cases hop <;> simp [NextHopReads, ipv6Unicast, nextHopLenValid, mpNextHopLen, mpDistinguisher, nextHopOctets, hopSuits]

theorem parseMpReach_family {order : HashOrder UInt16} {sent read : MpReachNlri}
    (parsed : parseAttrValue order .mpReachNlri (writeAttrMpReachNlri sent) format = .ok (.mpReachNlri read)) :
    read.afi = sent.afi ∧ read.safi = sent.safi := by
  obtain ⟨family, field, nextHop, lists, located, -, -, same⟩ := parseMpReach_value parsed
  have first : mpFamily (writeAttrMpReachNlri sent) = some ⟨sent.afi, sent.safi⟩ := by
    exact mpFamily_write sent.afi sent.safi _
  rw [mpReachField, first] at located
  simp only [bind, Option.bind_eq_some_iff, Option.some.injEq] at located
  obtain ⟨-, rfl, byte, -, more⟩ := located
  split at more
  · cases more
    cases same
    exact ⟨rfl, rfl⟩
  · cases more

theorem accepted_v6_iff {net : Ipv6Net} (relayed : Relayed path)
    (short : (attrBytes (UpdateMessage.new path [.v6 net] format)).length < 2 ^ 16) :
    AcceptedAs hashing (UpdateMessage.new path [.v6 net] format) format ⟨.v6 net, path.pathIdFor format.addPath ipv6Unicast⟩
        path.attrs.nextHop ↔
      Rewritable ipv6Family (format.addPath.contains ipv6Unicast) ⟨.v6 net, path.pathIdFor format.addPath ipv6Unicast⟩ ∧
        hopSuits (.v6 net) path.attrs.nextHop = true ∧ AsPathScans format.use4byteAsn path.attrs.asPath := by
  obtain ⟨layout, routes⟩ := new_v6 path net format
  constructor
  · rintro ⟨decoded, taken, announced, hop⟩
    obtain ⟨section_, scans, parsed⟩ := taken_read layout relayed short taken
    have nothing : decoded.nlriList = [] := by
      exact (Checked.ok.inj parsed).symm
    rw [allNlri_eq _ section_.distinct, nothing, nil_append] at announced
    cases reach : decoded.attrValues.findSome? UpdateMessage.mpReach with
    | none =>
      rw [reach] at announced
      cases announced
    | some mp =>
      rw [reach, Option.toList_some, flatMap_singleton] at announced
      rw [UpdateMessage.nextHop, reach, Option.map_some, Option.some_or, Option.some.injEq] at hop
      obtain ⟨value, member, picked⟩ := exists_of_findSome?_eq_some reach
      obtain ⟨read, inOut, rfl⟩ := mem_map.mp member
      obtain ⟨attr, inTail, readAs, code⟩ := layout.read_hop relayed section_ inOut (mpReach_only _ _ picked) (by decide)
      rw [mem_singleton.mp inTail] at readAs code
      obtain ⟨data, written, value, readable⟩ := readAs_parsed readAs code
      rw [mpReach_some picked] at value readable
      cases written
      obtain ⟨afi, safi⟩ := parseMpReach_family value
      obtain ⟨hopReads, lists⟩ := readable.resolve_right (by simp)
      rw [afi, safi, hop] at hopReads
      simp only [afi, safi, announced] at lists
      exact ⟨lists.2 _ mem_cons_self, (hopSuits_v6_iff net _).mp hopReads, scans⟩
  · rintro ⟨route, hop, scans⟩
    apply accepted_of_readable layout relayed short scans
    · intro attr member
      rw [mem_singleton.mp member, attrReadable_known rfl]
      exact ⟨⟨(hopSuits_v6_iff net _).mpr hop, rfl, forall_mem_singleton.mpr route⟩, expectedFlags_valid .mpReachNlri⟩
    · exact ⟨_, mem_cons_self, mem_cons_of_mem _ mem_cons_self⟩
    · rw [routes]
      simp
    · rfl
    · rfl

end

theorem exported_update_accepted_iff (hashing : Hashing) (net : IpNetwork) (path exported : Path) (ctx : PeerExportContext)
    (relayed : Relayed path) (computed : computeExportPath (.pfx net) path ctx = some exported)
    (fits : (UpdateMessage.new exported [net] ctx.sendFormat).serialize.length ≤ MAX_MESSAGE_SIZE) :
    AcceptedAs hashing (UpdateMessage.new exported [net] ctx.sendFormat) ctx.sendFormat (exportedNlri net path ctx)
      exported.attrs.nextHop ↔ ExportReadable net path ctx := by
  have from_ := computeExportPath_exported computed
  have suits := hopSuits_exported from_.nextHop
  have ident : exported.pathIdFor ctx.sendFormat.addPath net.afiSafi = path.pathIdFor ctx.sendFormat.addPath net.afiSafi := by
    rw [Path.pathIdFor, Path.pathIdFor, from_.localPathId]
  have condition : ExportReadable net path ctx ↔ Rewritable (prefixFamily net) (ctx.sendFormat.addPath.contains net.afiSafi)
          ⟨net, exported.pathIdFor ctx.sendFormat.addPath net.afiSafi⟩ ∧
        hopSuits net exported.attrs.nextHop = true ∧ AsPathScans ctx.sendFormat.use4byteAsn exported.attrs.asPath := by
    rw [ident, suits, from_.asPath, asPathScans_exported_iff]
    exact ⟨fun readable => ⟨readable.route, readable.nextHop, readable.counted, readable.uncounted⟩,
      fun all => ⟨all.1, all.2.1, all.2.2.1, all.2.2.2⟩⟩
  rw [condition, exportedNlri, ← ident]
  cases net with
  | v4 net => exact accepted_v4_iff (from_.relayed relayed) (layBody_short fits)
  | v6 net => exact accepted_v6_iff (from_.relayed relayed) (layBody_short fits)

def exportNet : IpNetwork := .v4 ⟨0x0a000000, 8⟩

def exportNet6 : IpNetwork := .v6 ⟨0x20010db8000000000000000000000000, 32⟩

-- An eBGP session rewrites the next hop to its own address and puts its AS in front.
theorem ebgp_export_accepted : ∃ exported,
    computeExportPath (.pfx exportNet) (routeVia (.ipv4 0xc0000205)) (unicastSession 65002) = some exported ∧
      exported.attrs.asPath = [⟨.asSequence, 2, [65000, 65001]⟩] ∧
      AcceptedAs default (UpdateMessage.new exported [exportNet] (unicastSession 65002).sendFormat)
        (unicastSession 65002).sendFormat ⟨exportNet, none⟩ (.ipv4 0xc0000201) := by
  have counted : PathCounted (routeVia (.ipv4 0xc0000205)) := forall_mem_singleton.mpr ⟨rfl, by decide⟩
  refine ⟨_, rfl, rfl, ?_⟩
  refine (exported_update_accepted_iff default exportNet (routeVia (.ipv4 0xc0000205)) _ (unicastSession 65002)
    ⟨by simp [routeVia], by simp [routeVia]⟩ rfl (by decide +kernel)).mpr ⟨?_, by decide, ?_, absurd counted⟩
  · exact (Writable.v4 ⟨0x0a000000, 8⟩ none ⟨by decide, by decide⟩ (by decide)).rewritable
  · rintro _ ⟨-, -, first, rest, shape, -, length⟩
    cases shape
    cases length

-- To an iBGP peer the next hop goes out as it is: an IPv4 route without a NEXT_HOP that can
-- be written is taken for a withdrawal, and an IPv6 route with four bytes ends the session.
theorem cross_family_next_hops_refused :
    (∃ exported decoded, computeExportPath (.pfx exportNet) (routeVia (.ipv6 1)) (unicastSession 65000) = some exported ∧
      UpdateMessage.fromBytes default (UpdateMessage.new exported [exportNet] (unicastSession 65000).sendFormat).toBytes
        (unicastSession 65000).sendFormat = .ok decoded ∧
      decoded.allNlri = [] ∧ decoded.allWithdrawnRoutes = [⟨exportNet, none⟩]) ∧
    ∃ exported error, computeExportPath (.pfx exportNet6) (routeVia (.ipv4 0xc0000205)) (unicastSession 65000) = some exported ∧
      UpdateMessage.fromBytes default (UpdateMessage.new exported [exportNet6] (unicastSession 65000).sendFormat).toBytes
        (unicastSession 65000).sendFormat = .err error := by
  exact ⟨⟨_, _, rfl, rfl, rfl, rfl⟩, ⟨_, _, rfl, rfl⟩⟩

end Bgpgg.Peer
