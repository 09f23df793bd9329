import Bgpgg.Peer.Outgoing
import Bgpgg.Peer.Withdrawn
import Bgpgg.Wire.MessageCodec

namespace Bgpgg.Peer

open Net Wire Lib Rib UpdateMessage List AdjRibOut

def headerLength (bytes : List UInt8) : Nat := (u16FromBytes ((bytes.drop 16).take 2)).toNat

def attrLengthField (bytes : List UInt8) : Nat :=
  if extendedLen (bytes.headD 0) then (u16FromBytes ((bytes.drop 2).take 2)).toNat else ((bytes.drop 2).headD 0).toNat

-- A message that keeps to the limit, with every length field equal to what it counts.
structure TrueLengths (message : UpdateMessage) : Prop where
  limit : message.serialize.length ≤ MAX_MESSAGE_SIZE
  header : headerLength message.serialize = message.serialize.length
  withdrawn : withdrawnLen message.toBytes = (writeNlriList message.withdrawnRoutes).length
  attributes : attrLen message.toBytes = (attrBytes message).length
  values : ∀ attr ∈ message.wireAttributes, ∀ value, writeAttrValue attr.value message.format.use4byteAsn = some value →
    attrLengthField (writePathAttribute attr message.format.use4byteAsn) = value.length

section

variable {message : UpdateMessage}

theorem length_serialize (message : UpdateMessage) :
    message.serialize.length = 23 + (writeNlriList message.withdrawnRoutes).length + (attrBytes message).length +
      (writeNlriList message.nlriList).length := by
  simp only [serialize, length_append, length_replicate, length_u16Bytes, length_singleton, toBytes_layBody, length_layBody]
  omega

theorem headerLength_serialize (short : message.toBytes.length + 19 < 2 ^ 16) :
    headerLength message.serialize = message.serialize.length := by
  have marker : (replicate 16 (0xFF : UInt8)).length = 16 := length_replicate
  have field : (message.serialize.drop 16).take 2 =
      u16Bytes (UInt16.ofNat BGP_HEADER_SIZE_BYTES + UInt16.ofNat message.toBytes.length) := by
    simp only [serialize, append_assoc]
    rw [drop_left' marker, take_left' (length_u16Bytes _)]
  have body : (UInt16.ofNat message.toBytes.length).toNat = message.toBytes.length :=
    UInt16.toNat_ofNat_of_lt' (Nat.lt_of_le_of_lt (Nat.le_add_right _ 19) short)
  have sum : (UInt16.ofNat BGP_HEADER_SIZE_BYTES + UInt16.ofNat message.toBytes.length).toNat = 19 + message.toBytes.length := by
    rw [UInt16.toNat_add, body, Nat.mod_eq_of_lt]
    · rfl
    · rw [Nat.add_comm]
      exact short
  rw [headerLength, field, u16FromBytes_u16Bytes, sum]
  simp only [serialize, length_append, length_replicate, length_u16Bytes, length_singleton]

theorem attrLengthField_written {attr : PathAttribute} {use4byteAsn : Bool} {value : List UInt8}
    (written : writeAttrValue attr.value use4byteAsn = some value) (short : value.length < 2 ^ 16) :
    attrLengthField (writePathAttribute attr use4byteAsn) = value.length := by
  have flags := extendedLen_written attr value
  rw [writtenFlags] at flags
  simp only [writePathAttribute, written, attrLengthField, cons_append, nil_append, headD_cons, flags]
  by_cases extended : (decide (value.length > 255) || extendedLen (baseFlags attr)) = true
  · rw [if_pos extended, if_pos extended, if_pos extended, drop_succ_cons, drop_succ_cons, drop_zero,
      take_left' (length_u16Bytes _), u16FromBytes_u16Bytes, UInt16.toNat_ofNat_of_lt' short]
  · have narrow : value.length < 2 ^ 8 := by
      have long : ¬ value.length > 255 := fun long => extended (by simp [long])
      omega
    rw [if_neg extended, if_neg extended, if_neg extended, drop_succ_cons, drop_succ_cons, drop_zero, cons_append,
      headD_cons, UInt8.toNat_ofNat_of_lt' narrow]

theorem trueLengths_iff : TrueLengths message ↔ message.serialize.length ≤ MAX_MESSAGE_SIZE := by
  refine ⟨TrueLengths.limit, ?_⟩
  intro limit
  have total := length_serialize message
  have body : message.toBytes.length + 19 < 2 ^ 16 := by
    rw [toBytes_layBody, length_layBody]
    rw [MAX_MESSAGE_SIZE] at limit
    omega
  have withdrawnShort : (writeNlriList message.withdrawnRoutes).length < 2 ^ 16 := by
    rw [MAX_MESSAGE_SIZE] at limit
    omega
  have attrsShort : (attrBytes message).length < 2 ^ 16 := by
    rw [MAX_MESSAGE_SIZE] at limit
    omega
  refine ⟨limit, headerLength_serialize body, ?_, ?_, ?_⟩
  · exact withdrawnLen_layBody _ _ _ withdrawnShort
  · exact attrLen_layBody _ _ _ withdrawnShort attrsShort
  · intro attr member value written
    have whole := encodedShort_of_total attrsShort attr member
    exact attrLengthField_written written (writePathAttribute_short written whole)

end

def withdrawalSize : Withdrawal → Nat
  | (.pfx net, id) => (writeNlri ⟨net, id⟩).length
  | (.linkState nlri, _) => (writeLsNlri nlri).length

def withdrawalRoom (afiSafi : AfiSafi) : Nat := match afiSafi.afi with
  | .ipv4 => MAX_MESSAGE_SIZE - 23
  | .ipv6 | .linkState => MAX_MESSAGE_SIZE - 30

def totalSize (withdrawn : List Withdrawal) : Nat := (withdrawn.map withdrawalSize).sum

section

variable {format : MessageFormat} {withdrawn : List Withdrawal}

theorem wireAttributes_unreach {message : UpdateMessage} {mp : MpUnreachNlri}
    (attrs : message.pathAttributes = [⟨OPTIONAL, .mpUnreachNlri mp⟩]) :
    message.wireAttributes = [⟨OPTIONAL, .mpUnreachNlri mp⟩] := by
  rw [wireAttributes, attrs]
  split <;> rfl

theorem length_unreach (mp : MpUnreachNlri) (use4byteAsn : Bool) {size : Nat}
    (routes : (writeMpNlri mp.afi mp.withdrawnRoutes mp.lsWithdrawn).length = size) :
    (writePathAttribute ⟨OPTIONAL, .mpUnreachNlri mp⟩ use4byteAsn).length = size + if size > 252 then 7 else 6 := by
  have value : (writeAttrMpUnreachNlri mp).length = 3 + size := by
    simp only [writeAttrMpUnreachNlri, length_append, length_u16Bytes, length_singleton, routes]
  have plain : extendedLen (baseFlags ⟨OPTIONAL, .mpUnreachNlri mp⟩) = false := by
    show extendedLen OPTIONAL = false
    decide
  simp only [writePathAttribute, writeAttrValue, plain, Bool.or_false, decide_eq_true_iff, length_append, value]
  by_cases long : size > 252
  · have extended : 3 + size > 255 := by omega
    rw [if_pos long, if_pos extended, if_pos extended, length_u16Bytes, length_cons, length_singleton]
    omega
  · have short : ¬ 3 + size > 255 := by omega
    rw [if_neg long, if_neg short, if_neg short, length_singleton, length_cons, length_singleton]
    omega

-- The short header only goes with short messages, so the limit is the one of the long header.
theorem unreach_fits_iff {message : UpdateMessage} (mp : MpUnreachNlri)
    (attrs : message.pathAttributes = [⟨OPTIONAL, .mpUnreachNlri mp⟩]) (noWithdrawn : message.withdrawnRoutes = [])
    (noNlri : message.nlriList = []) : message.serialize.length ≤ MAX_MESSAGE_SIZE ↔
      (writeMpNlri mp.afi mp.withdrawnRoutes mp.lsWithdrawn).length ≤ MAX_MESSAGE_SIZE - 30 := by
  have attr := length_unreach mp message.format.use4byteAsn rfl
  rw [length_serialize, noWithdrawn, noNlri, attrBytes, wireAttributes_unreach attrs, writePathAttributes,
    flatMap_singleton, attr, MAX_MESSAGE_SIZE]
  simp only [writeNlriList, flatMap_nil, length_nil]
  split <;> omega

theorem totalSize_split (withdrawn : List Withdrawal) : totalSize withdrawn = (writeNlriList (withdrawn.filterMap ipWithdrawal)).length +
      (writeLsNlriList (withdrawn.filterMap (lsWithdrawal false))).length +
      (writeLsNlriList (withdrawn.filterMap (lsWithdrawal true))).length := by
  induction withdrawn with
  | nil => rfl
  | cons withdrawal rest ih =>
    obtain ⟨key, id⟩ := withdrawal
    rw [totalSize, map_cons, sum_cons, ← totalSize, ih]
    cases key with
    | pfx net =>
      simp only [withdrawalSize, filterMap_cons, ipWithdrawal_pfx, lsWithdrawal_pfx, writeNlriList, flatMap_cons, length_append]
      omega
    | linkState nlri =>
      cases vpn : nlri.isVpn with
      | false =>
        simp only [withdrawalSize, filterMap_cons, ipWithdrawal_linkState, lsWithdrawal_linkState, vpn, if_true,
          Bool.false_eq_true, if_false, writeLsNlriList, flatMap_cons, length_append]
        omega
      | true =>
        simp only [withdrawalSize, filterMap_cons, ipWithdrawal_linkState, lsWithdrawal_linkState, vpn, if_true,
          Bool.true_eq_false, if_false, writeLsNlriList, flatMap_cons, length_append]
        omega

theorem lsWithdrawals_nil (vpn : Bool) (prefixes : ∀ withdrawal ∈ withdrawn, ∃ net, withdrawal.1 = .pfx net) :
    withdrawn.filterMap (lsWithdrawal vpn) = [] := by
  refine filterMap_eq_nil_iff.mpr ?_
  intro withdrawal member
  obtain ⟨key, id⟩ := withdrawal
  obtain ⟨net, same⟩ := prefixes _ member
  simp only at same
  rw [same, lsWithdrawal_pfx]

theorem ipWithdrawals_ne_nil (nonempty : withdrawn ≠ []) (prefixes : ∀ withdrawal ∈ withdrawn, ∃ net, withdrawal.1 = .pfx net) :
    withdrawn.filterMap ipWithdrawal ≠ [] := by
  obtain ⟨first, rest, rfl⟩ := exists_cons_of_ne_nil nonempty
  obtain ⟨key, id⟩ := first
  obtain ⟨net, same⟩ := prefixes _ mem_cons_self
  simp only at same
  rw [same, filterMap_cons]
  exact cons_ne_nil _ _

theorem sendWithdrawals_ip (nonempty : withdrawn ≠ []) (prefixes : ∀ withdrawal ∈ withdrawn, ∃ net, withdrawal.1 = .pfx net) :
    sendWithdrawals withdrawn format = [newWithdraw (withdrawn.filterMap ipWithdrawal) format] := by
  simp [sendWithdrawals, splitWithdrawals, lsWithdrawals_nil _ prefixes, nonempty, ipWithdrawals_ne_nil nonempty prefixes]

theorem sendWithdrawals_ls (format : MessageFormat) {vpn : Bool} (nonempty : withdrawn ≠ [])
    (entries : ∀ withdrawal ∈ withdrawn, ∃ nlri, withdrawal.1 = .linkState nlri ∧ nlri.isVpn = vpn) :
    sendWithdrawals withdrawn format = [newLsWithdraw (withdrawn.filterMap (lsWithdrawal vpn))
      (if vpn then lsVpnAfiSafi else lsAfiSafi) format] ∧
    withdrawn.filterMap ipWithdrawal = [] ∧ withdrawn.filterMap (lsWithdrawal !vpn) = [] := by
  have noIp : withdrawn.filterMap ipWithdrawal = [] := by
    refine filterMap_eq_nil_iff.mpr ?_
    intro withdrawal member
    obtain ⟨key, id⟩ := withdrawal
    obtain ⟨nlri, same, -⟩ := entries _ member
    simp only at same
    rw [same, ipWithdrawal_linkState]
  have noOther : withdrawn.filterMap (lsWithdrawal !vpn) = [] := by
    refine filterMap_eq_nil_iff.mpr ?_
    intro withdrawal member
    obtain ⟨key, id⟩ := withdrawal
    obtain ⟨nlri, same, kind⟩ := entries _ member
    simp only at same
    rw [same, lsWithdrawal_linkState, if_neg]
    rw [kind]
    cases vpn <;> decide
  have some : withdrawn.filterMap (lsWithdrawal vpn) ≠ [] := by
    obtain ⟨first, rest, rfl⟩ := exists_cons_of_ne_nil nonempty
    obtain ⟨key, id⟩ := first
    obtain ⟨nlri, same, kind⟩ := entries _ mem_cons_self
    simp only at same
    rw [same, filterMap_cons, lsWithdrawal_linkState, if_pos kind]
    exact cons_ne_nil _ _
  cases vpn with
  | false =>
    rw [Bool.not_false] at noOther
    simp [sendWithdrawals, splitWithdrawals, noIp, noOther, nonempty, some]
  | true =>
    rw [Bool.not_true] at noOther
    simp [sendWithdrawals, splitWithdrawals, noIp, noOther, nonempty, some]

variable {routes : List Nlri} {key : RouteKey}

theorem key_of_ipv4 (family : key.afiSafi = ⟨.ipv4, .unicast⟩) : ∃ net, key = .pfx (.v4 net) := by
  cases key with
  | pfx net =>
    cases net with
    | v4 net => exact ⟨net, rfl⟩
    | v6 net => cases family
  | linkState nlri => cases family

theorem key_of_ipv6 (family : key.afiSafi = ⟨.ipv6, .unicast⟩) : ∃ net, key = .pfx (.v6 net) := by
  cases key with
  | pfx net =>
    cases net with
    | v4 net => cases family
    | v6 net => exact ⟨net, rfl⟩
  | linkState nlri => cases family

theorem key_of_linkState {nlri : LsNlri} (family : key.afiSafi = (RouteKey.linkState nlri).afiSafi) :
    ∃ own, key = .linkState own ∧ own.isVpn = nlri.isVpn := by
  cases key with
  | pfx net => cases net <;> cases family
  | linkState own =>
    refine ⟨own, rfl, ?_⟩
    simp only [RouteKey.afiSafi, LsNlri.safi] at family
    revert family
    cases own.isVpn <;> cases nlri.isVpn <;> decide

theorem newWithdraw_v4_fits_iff (own : ∀ nlri ∈ routes, isV4 nlri = true) :
    (newWithdraw routes format).serialize.length ≤ MAX_MESSAGE_SIZE ↔ (writeNlriList routes).length ≤ MAX_MESSAGE_SIZE - 23 := by
  have mine : routes.filter isV4 = routes := filter_eq_self.mpr own
  have others : (routes.filter fun nlri => !isV4 nlri) = [] := by
    refine filter_eq_nil_iff.mpr ?_
    intro nlri member
    simp [own nlri member]
  have noAttrs : attrBytes (newWithdraw routes format) = [] := by
    simp only [attrBytes, wireAttributes, newWithdraw, others, isEmpty_nil]
    split <;> rfl
  rw [length_serialize, noAttrs]
  simp only [newWithdraw, mine, writeNlriList, flatMap_nil, length_nil, MAX_MESSAGE_SIZE]
  omega

theorem newWithdraw_v6_fits_iff (nonempty : routes ≠ []) (own : ∀ nlri ∈ routes, isV4 nlri = false) :
    (newWithdraw routes format).serialize.length ≤ MAX_MESSAGE_SIZE ↔ (writeNlriList routes).length ≤ MAX_MESSAGE_SIZE - 30 := by
  have others : routes.filter isV4 = [] := by
    refine filter_eq_nil_iff.mpr ?_
    intro nlri member
    simp [own nlri member]
  have mine : (routes.filter fun nlri => !isV4 nlri) = routes := by
    refine filter_eq_self.mpr ?_
    intro nlri member
    rw [own nlri member]
    rfl
  refine unreach_fits_iff ⟨.ipv6, .unicast, routes, []⟩ ?_ ?_ rfl
  · simp [newWithdraw, mine, nonempty]
  · simp [newWithdraw, others]

theorem mem_ipWithdrawals {nlri : Nlri} (member : nlri ∈ withdrawn.filterMap ipWithdrawal) :
    ∃ withdrawal ∈ withdrawn, withdrawal.1 = .pfx nlri.pfx := by
  obtain ⟨withdrawal, listed, made⟩ := mem_filterMap.mp member
  obtain ⟨key, id⟩ := withdrawal
  cases key with
  | pfx net =>
    cases made
    exact ⟨_, listed, rfl⟩
  | linkState nlri => cases made

section

variable (nonempty : withdrawn ≠ []) (v4 : Bool)
  (own : ∀ withdrawal ∈ withdrawn, ∃ net id, withdrawal = (.pfx net, id) ∧ isV4 ⟨net, id⟩ = v4)
include nonempty own

theorem sendWithdrawals_ip_fit_iff : (∀ message ∈ sendWithdrawals withdrawn format, message.serialize.length ≤ MAX_MESSAGE_SIZE) ↔
      totalSize withdrawn ≤ if v4 then MAX_MESSAGE_SIZE - 23 else MAX_MESSAGE_SIZE - 30 := by
  have prefixes : ∀ withdrawal ∈ withdrawn, ∃ net, withdrawal.1 = .pfx net := by
    intro withdrawal member
    obtain ⟨net, id, rfl, -⟩ := own withdrawal member
    exact ⟨net, rfl⟩
  have family : ∀ nlri ∈ withdrawn.filterMap ipWithdrawal, isV4 nlri = v4 := by
    intro nlri member
    obtain ⟨withdrawal, listed, key⟩ := mem_ipWithdrawals member
    obtain ⟨net, id, rfl, kind⟩ := own withdrawal listed
    cases key
    exact kind
  rw [totalSize_split, lsWithdrawals_nil _ prefixes, lsWithdrawals_nil _ prefixes, sendWithdrawals_ip nonempty prefixes,
    forall_mem_singleton]
  cases v4 with
  | true => exact newWithdraw_v4_fits_iff family
  | false => exact newWithdraw_v6_fits_iff (ipWithdrawals_ne_nil nonempty prefixes) family

end

theorem sendWithdrawals_fit_iff (format : MessageFormat) {afiSafi : AfiSafi}
    (mine : ∀ withdrawal ∈ withdrawn, withdrawal.1.afiSafi = afiSafi) :
    (∀ message ∈ sendWithdrawals withdrawn format, message.serialize.length ≤ MAX_MESSAGE_SIZE) ↔
      totalSize withdrawn ≤ withdrawalRoom afiSafi := by
  by_cases nonempty : withdrawn = []
  · subst nonempty
    exact iff_of_true (by simp [sendWithdrawals]) (Nat.zero_le _)
  · obtain ⟨first, rest, shape⟩ := exists_cons_of_ne_nil nonempty
    obtain rfl := mine first (shape ▸ mem_cons_self)
    cases kind : first.1 with
    | pfx net =>
      rw [kind] at mine
      cases net with
      | v4 net =>
        refine sendWithdrawals_ip_fit_iff nonempty true ?_
        intro withdrawal member
        obtain ⟨own, same⟩ := key_of_ipv4 (mine withdrawal member)
        exact ⟨.v4 own, withdrawal.2, Prod.ext same rfl, rfl⟩
      | v6 net =>
        refine sendWithdrawals_ip_fit_iff nonempty false ?_
        intro withdrawal member
        obtain ⟨own, same⟩ := key_of_ipv6 (mine withdrawal member)
        exact ⟨.v6 own, withdrawal.2, Prod.ext same rfl, rfl⟩
    | linkState nlri =>
      rw [kind] at mine
      obtain ⟨sent, noIp, noOther⟩ := sendWithdrawals_ls format nonempty fun withdrawal member =>
        key_of_linkState (mine withdrawal member)
      have total : totalSize withdrawn = (writeLsNlriList (withdrawn.filterMap (lsWithdrawal nlri.isVpn))).length := by
        rw [totalSize_split, noIp]
        cases vpn : nlri.isVpn with
        | false =>
          rw [vpn, Bool.not_false] at noOther
          rw [noOther]
          exact Nat.zero_add _
        | true =>
          rw [vpn, Bool.not_true] at noOther
          rw [noOther]
          exact Nat.zero_add _
      rw [sent, forall_mem_singleton, total]
      cases nlri.isVpn with
      | false => exact unreach_fits_iff ⟨.linkState, .linkState, [], _⟩ rfl rfl rfl
      | true => exact unreach_fits_iff ⟨.linkState, .linkStateVpn, [], _⟩ rfl rfl rfl

end

section

variable {Alloc : Type}

variable (ctx : PeerExportContext) (locRib : LocRib Alloc) {table : AdjRibOut}

def unselectedIds (ctx : PeerExportContext) (locRib : LocRib Alloc) (table : AdjRibOut) (key : RouteKey) : List UInt32 :=
  (((FamilyTables.get table key).map AList.keys).getD []).filter fun id =>
    !((selection ctx locRib key).filterMap fun routePath => routePath.path.localPathId).contains id

-- What the peer has to be told of a key: with ADD-PATH the paths that are gone, else the route
-- once nothing is selected for it.
def goneRoutes (ctx : PeerExportContext) (locRib : LocRib Alloc) (table : AdjRibOut) (key : RouteKey) : List Withdrawal :=
  if ctx.sendFormat.addPath.contains key.afiSafi then (unselectedIds ctx locRib table key).map fun id => (key, some id)
  else if (selection ctx locRib key).isEmpty && !(unselectedIds ctx locRib table key).isEmpty then [(key, none)]
  else []

def withdrawnSize (ctx : PeerExportContext) (delta : RouteDelta) (locRib : LocRib Alloc) (table : AdjRibOut)
    (afiSafi : AfiSafi) : Nat :=
  totalSize ((familyKeys afiSafi (routeKeysFor ctx delta afiSafi)).flatMap (goneRoutes ctx locRib table))

theorem stalePaths_ids (keyed : AdjRibOut.Keyed table)
    (key : RouteKey) : (stalePaths table key (selection ctx locRib key)).map Path.localPathId =
      (unselectedIds ctx locRib table key).map some := by
  rw [stalePaths, unselectedIds]
  cases found : FamilyTables.get table key with
  | none => rfl
  | some stored =>
    simp only [Option.map_some, Option.getD_some, AList.keys, keys, filter_map, map_map]
    refine map_congr_left ?_
    intro entry member
    obtain ⟨id, path⟩ := entry
    have recorded : pathAt table key id = some path := by
      rw [pathAt, found]
      exact AList.mem_lookup_iff.mpr (mem_of_mem_filter member)
    exact keyed key id path recorded

theorem withdrawalsFor_eq (keyed : AdjRibOut.Keyed table)
    (key : RouteKey) : withdrawalsFor ctx locRib table key = goneRoutes ctx locRib table key := by
  have ids := stalePaths_ids ctx locRib keyed key
  rw [withdrawalsFor, goneRoutes, buildWithdrawalsForRoute]
  split
  · have gathered : ∀ paths : List Path, (paths.filterMap fun path => path.localPathId.map fun id => (key, some id)) =
        (paths.map Path.localPathId).filterMap fun ident => ident.map fun id => (key, some id) := by
      intro paths
      rw [filterMap_map]
      rfl
    rw [gathered, ids, filterMap_map]
    exact congrFun filterMap_eq_map _
  · have empty : (stalePaths table key (selection ctx locRib key)).isEmpty = (unselectedIds ctx locRib table key).isEmpty := by
      rw [← isEmpty_map (f := Path.localPathId), ids, isEmpty_map]
    rw [empty]

theorem totalSize_perm {first second : List Withdrawal} (perm : first.Perm second) : totalSize first = totalSize second :=
  (perm.map withdrawalSize).sum_nat

theorem goneRoutes_key {ctx : PeerExportContext} {locRib : LocRib Alloc} {key : RouteKey}
    {withdrawal : Withdrawal} (member : withdrawal ∈ goneRoutes ctx locRib table key) : withdrawal.1 = key := by
  rw [goneRoutes] at member
  split at member
  · obtain ⟨id, -, rfl⟩ := mem_map.mp member
    rfl
  · split at member
    · rw [mem_singleton.mp member]
    · cases member

theorem forall_iff_of_forall₂ {First Second : Type} {related : First → Second → Prop} {here : First → Prop}
    {there : Second → Prop} (same : ∀ first second, related first second → (here first ↔ there second))
    {firsts : List First} {seconds : List Second} (pairs : List.Forall₂ related firsts seconds) :
    (∀ first ∈ firsts, here first) ↔ ∀ second ∈ seconds, there second := by
  induction pairs with
  | nil => simp
  | cons pair _ ih => rw [forall_mem_cons, forall_mem_cons, same _ _ pair, ih]

theorem sendBatchedAnnouncements_fit (order : HashOrder BatchingKey) (toSend : List RoutePath) (format : MessageFormat) :
    ∀ message ∈ sendBatchedAnnouncements order toSend format, message.serialize.length ≤ MAX_MESSAGE_SIZE := by
  intro message member
  exact of_decide_eq_true (mem_filter.mp member).2

theorem sendFamily_fit_iff {order : HashOrder BatchingKey} {ctx : PeerExportContext} {delta : RouteDelta}
    {locRib : LocRib Alloc} (keyed : AdjRibOut.Keyed table) {afiSafi : AfiSafi} {exported : FamilyExport}
    (diff : FamilyDiff ctx delta locRib table afiSafi exported) :
    withdrawnSize ctx delta locRib table afiSafi ≤ withdrawalRoom afiSafi ↔
      ∀ message ∈ sendFamily order ctx exported, TrueLengths message := by
  have routes := diff.withdrawn
  rw [flatMap_congr fun key _ => withdrawalsFor_eq ctx locRib keyed key] at routes
  have mine : ∀ withdrawal ∈ exported.withdrawals, withdrawal.1.afiSafi = afiSafi := by
    intro withdrawal member
    obtain ⟨key, listed, gone⟩ := mem_flatMap.mp (routes.mem_iff.mp member)
    rw [goneRoutes_key gone]
    exact (mem_familyKeys.mp listed).2
  have announcements := sendBatchedAnnouncements_fit order exported.announcements ctx.sendFormat
  rw [withdrawnSize, ← totalSize_perm routes, ← sendWithdrawals_fit_iff ctx.sendFormat mine, sendFamily]
  simp only [trueLengths_iff, forall_mem_append]
  exact ⟨fun fit => ⟨fit, announcements⟩, fun fit => fit.1⟩

-- Announcements are measured before they are sent, withdrawals are not.
theorem sent_lengths_agree_iff (order : HashOrder BatchingKey) (ctx : PeerExportContext) (delta : RouteDelta)
    (locRib : LocRib Alloc) (table : AdjRibOut) (keyed : AdjRibOut.Keyed table) (families : ctx.afiSafis.Nodup) :
    (∀ message ∈ sentUpdates order ctx delta locRib table, TrueLengths message) ↔
      ∀ afiSafi ∈ ctx.afiSafis, withdrawnSize ctx delta locRib table afiSafi ≤ withdrawalRoom afiSafi := by
  have diffs := propagateRoutesToPeer_diff delta locRib keyed families
  rw [forall_iff_of_forall₂ (fun _ _ diff => sendFamily_fit_iff keyed diff) diffs, sentUpdates]
  simp only [mem_flatMap, forall_exists_index, and_imp]
  exact ⟨fun all exported member message sent => all message exported member sent,
    fun all message exported member sent => all exported member message sent⟩

end

def lsSession : PeerExportContext := { unicastSession 65002 with negotiatedAfiSafis := [lsAfiSafi] }

def lsKey (object : Nat) : RouteKey := .linkState ⟨100 + UInt16.ofNat object, List.replicate 504 0, none, none⟩

def lsKeys (count : Nat) : List RouteKey := (List.range count).map lsKey

def lsTable : Nat → AdjRibOut
  | 0 => .new
  | count + 1 => AdjRibOut.insert (lsTable count) (lsKey count) (routeVia (.ipv6 1))

theorem lsTable_keyed (count : Nat) : AdjRibOut.Keyed (lsTable count) := by
  induction count with
  | zero => exact keyed_new
  | succ count ih => exact keyed_insert ih _ _

theorem eight_objects_fit : sentUpdates default lsSession ⟨lsKeys 8, lsKeys 8⟩ (LocRib.new ⟨0⟩) (lsTable 8) ≠ [] ∧
      ∀ message ∈ sentUpdates default lsSession ⟨lsKeys 8, lsKeys 8⟩ (LocRib.new ⟨0⟩) (lsTable 8), TrueLengths message := by
  refine ⟨by decide +kernel, ?_⟩
  exact (sent_lengths_agree_iff default lsSession ⟨lsKeys 8, lsKeys 8⟩ (LocRib.new ⟨0⟩) (lsTable 8)
    (lsTable_keyed 8) (by decide)).mpr (by decide +kernel)

theorem nine_objects_too_long : ∃ message, message ∈ sentUpdates default lsSession ⟨lsKeys 9, lsKeys 9⟩ (LocRib.new ⟨0⟩) (lsTable 9) ∧
      message.serialize.length = 4602 ∧ ¬ TrueLengths message := by
  have sizes : (sentUpdates default lsSession ⟨lsKeys 9, lsKeys 9⟩ (LocRib.new ⟨0⟩) (lsTable 9)).map
      (fun message => message.serialize.length) = [4602] := by decide +kernel
  obtain ⟨message, sent, size⟩ := mem_map.mp (sizes ▸ mem_singleton.mpr rfl : 4602 ∈ _)
  refine ⟨message, sent, size, ?_⟩
  intro agree
  have limit := agree.limit
  rw [MAX_MESSAGE_SIZE] at limit
  omega

end Bgpgg.Peer
