import Bgpgg.Peer.OpenReencode

namespace Bgpgg.Peer

open Net Wire Lib AddPathMode List OpenMessage

structure GracefulRestartConfig where
  enabled : Bool := true
  restartTime : UInt16 := 120
deriving DecidableEq, Repr

structure LlgrConfig where
  enabled : Bool := true
  staleTime : Option UInt32 := none
  afiSafis : Option (List AfiSafi) := none
deriving DecidableEq, Repr

inductive AddPathSend where
  | disabled
  | all
deriving DecidableEq, Repr

-- The part of PeerConfig that an OPEN depends on. The entries of afi_safis have more fields.
structure SessionConfig where
  asn : Option UInt32 := none
  gracefulRestart : GracefulRestartConfig := {}
  rrClient : Bool := false
  rsClient : Bool := false
  addPathSend : AddPathSend := .disabled
  addPathReceive : Bool := false
  llgr : Option LlgrConfig := none
  afiSafis : List AfiSafi := []
deriving DecidableEq, Repr

def MAX_LLGR_STALE_TIME : UInt32 := 0xFFFFFF

def defaultAfiSafis : List AfiSafi := [⟨.ipv4, .unicast⟩, ⟨.ipv6, .unicast⟩]

def validateLlgr (config : SessionConfig) : Except String Unit := match config.llgr with
  | none => .ok ()
  | some llgr =>
    if llgr.staleTime.any fun staleTime => staleTime > MAX_LLGR_STALE_TIME then
      .error ("LLGR stale_time " ++ toString (llgr.staleTime.getD 0) ++ " exceeds 24-bit maximum (" ++
        toString MAX_LLGR_STALE_TIME ++ ")")
    else if llgr.enabled && !config.gracefulRestart.enabled then
      .error "LLGR requires graceful-restart to be enabled (RFC 9494 Section 4.5)"
    else .ok ()

def Afi.display : Afi → String
  | .ipv4 => "IPv4"
  | .ipv6 => "IPv6"
  | .linkState => "LinkState"

def Safi.display : Safi → String
  | .unicast => "Unicast"
  | .multicast => "Multicast"
  | .mplsLabel => "MPLS-labeled"
  | .linkState => "LinkState"
  | .linkStateVpn => "LinkState-VPN"

def validateFamilies (seen : List AfiSafi) : List AfiSafi → Except String Unit
  | [] => .ok ()
  | entry :: rest =>
    if entry ∈ seen then .error ("duplicate afi-safis entry: " ++ Afi.display entry.afi ++ "/" ++ Safi.display entry.safi)
    else validateFamilies (entry :: seen) rest

def SessionConfig.validate (config : SessionConfig) : Except String Unit :=
  if config.rrClient && config.rsClient then .error "Peer cannot be both rr-client and rs-client"
  else if config.rsClient && config.addPathReceive then
    .error ("rs-client peers must not use add-path-receive " ++ "(route server uses send-only ADD-PATH mode per RFC 7947)")
  else do
    validateLlgr config
    validateFamilies [] config.afiSafis

def getPeerLlgr (serverLlgr peerLlgr : Option LlgrConfig) : Option LlgrConfig := match peerLlgr.or serverLlgr with
  | none => none
  | some effective =>
    if effective.enabled then some ⟨true, effective.staleTime, some (effective.afiSafis.getD defaultAfiSafis)⟩ else none

structure LocalConfig where
  asn : UInt32
  bgpId : UInt32
  holdTime : UInt16
  llgr : Option LlgrConfig := none
deriving DecidableEq, Repr

structure Speaker where
  localConfig : LocalConfig
  config : SessionConfig := {}
  capabilitiesSuppressed : Bool := false
deriving DecidableEq, Repr

def llgrToEntries (config : LlgrConfig) : List LlgrEntry :=
  (config.afiSafis.getD []).map fun afiSafi => ⟨afiSafi, false, config.staleTime.getD 0⟩

def negotiateMultiprotocol (ours peer : List AfiSafi) : List AfiSafi := ours.dedup.filter fun afiSafi => afiSafi ∈ peer

def advertisedAfiSafis (config : SessionConfig) : List AfiSafi := if config.afiSafis.isEmpty then [⟨.ipv4, .unicast⟩] else config.afiSafis

def SessionConfig.sendsAddPath (config : SessionConfig) : Bool := config.addPathSend != .disabled

def gracefulRestartCaps (config : SessionConfig) : List Capability := if config.gracefulRestart.enabled then
    [.newGracefulRestart config.gracefulRestart.restartTime false ((advertisedAfiSafis config).map fun afiSafi => (afiSafi, false))]
  else []

def llgrCaps (llgr : Option LlgrConfig) : List Capability := match (llgr.map llgrToEntries).getD [] with
  | [] => []
  | entries => [.newLlgr entries]

def addPathCaps (config : SessionConfig) : List Capability := match AddPathMode.fromFlags config.sendsAddPath config.addPathReceive with
  | some mode => [.newAddPath ((advertisedAfiSafis config).map fun afiSafi => (afiSafi, mode))]
  | none => []

section

variable (asn : UInt32) (capabilities : PeerCapabilities)

def openCaps (config : SessionConfig) (llgr : Option LlgrConfig) : List Capability :=
  (advertisedAfiSafis config).map Capability.newMultiprotocol ++ [.newRouteRefresh, .newEnhancedRouteRefresh] ++
    gracefulRestartCaps config ++ [.newFourOctetAsn asn] ++ llgrCaps llgr ++ addPathCaps config

def buildOptionalParams (config : SessionConfig) (llgr : Option LlgrConfig) : List OptionalParam :=
  [.fromCapabilities (openCaps asn config llgr)]

def noCapabilities : PeerCapabilities := ⟨[], false, none, none, none, none⟩

def afiSafiFromCapabilityBytes : List UInt8 → Option AfiSafi
  | afiHigh :: afiLow :: _ :: safi :: _ => Capability.familyOf afiHigh afiLow safi
  | _ => none

-- Whether route refresh was offered is no field of the model.
def noteCapability (cap : Capability) : PeerCapabilities := match cap.code with
  | .multiprotocol =>
    match afiSafiFromCapabilityBytes cap.val with
    | some afiSafi => { capabilities with multiprotocol := capabilities.multiprotocol.insert afiSafi }
    | none => capabilities
  | .fourOctetAsn =>
    if cap.val.length = 4 then { capabilities with fourOctetAsn := some (u32FromBytes cap.val) } else capabilities
  | .gracefulRestart => { capabilities with gracefulRestart := cap.asGracefulRestart }
  | .addPath => { capabilities with addPath := cap.asAddPath }
  | .enhancedRouteRefresh => { capabilities with enhancedRouteRefresh := true }
  | .llgr => { capabilities with llgr := cap.asLlgr }
  | .routeRefresh | .unknown => capabilities

def extractCapabilities (message : OpenMessage) : PeerCapabilities :=
  let capabilities := (message.optionalParams.flatMap OptionalParam.capabilities).foldl noteCapability noCapabilities
  if capabilities.llgr.isSome && capabilities.gracefulRestart.isNone then { capabilities with llgr := none }
  else capabilities

def createOpenMessage (holdTime : UInt16) (routerId : UInt32) (config : SessionConfig) (llgr : Option LlgrConfig) : OpenMessage :=
  let optionalParams := buildOptionalParams asn config llgr
  ⟨4, asn, holdTime, routerId, UInt8.ofNat (optionalParams.map fun param => 2 + param.paramLen.toNat).sum, optionalParams⟩

structure Negotiated where
  asn : UInt32
  isEbgp : Bool
  capabilities : PeerCapabilities
  holdTime : UInt16
deriving DecidableEq, Repr

structure Rejection where
  notification : OpenError
  reason : String
deriving DecidableEq, Repr

def PeerCapabilities.receiveFormat (isEbgp : Bool) : MessageFormat where
  use4byteAsn := capabilities.fourOctetAsn.isSome
  addPath := ((capabilities.addPath.getD []).filter fun entry => entry.2.canReceive).foldl
    (fun mask entry => mask.withFamily entry.1) .none
  isEbgp := isEbgp
  enhancedRr := capabilities.enhancedRouteRefresh

end

namespace Speaker

def buildOpenMessage (speaker : Speaker) : OpenMessage := if speaker.capabilitiesSuppressed then
    .new speaker.localConfig.asn speaker.localConfig.holdTime speaker.localConfig.bgpId
  else
    createOpenMessage speaker.localConfig.asn speaker.localConfig.holdTime speaker.localConfig.bgpId speaker.config
      speaker.localConfig.llgr

def negotiateAddPath (speaker : Speaker) (peerCaps : PeerCapabilities) : Option (List (AfiSafi × AddPathMode)) := do
  let peerAddPath ← peerCaps.addPath
  if !speaker.config.sendsAddPath && !speaker.config.addPathReceive then none
  else
    let entries := peerAddPath.filterMap fun entry =>
      (AddPathMode.fromFlags (speaker.config.sendsAddPath && entry.2.canReceive)
        (speaker.config.addPathReceive && entry.2.canSend)).map fun mode => (entry.1, mode)
    if entries.isEmpty then none else some entries

def enterOpenConfirm (speaker : Speaker) (message : OpenMessage) : Checked Rejection Negotiated :=
  let peerCaps := extractCapabilities message
  let ours := advertisedAfiSafis speaker.config
  let negotiated := negotiateMultiprotocol ours peerCaps.multiprotocol
  if message.asn = speaker.localConfig.asn ∧ message.bgpIdentifier = speaker.localConfig.bgpId then
    .err ⟨⟨.badBgpIdentifier, []⟩, "duplicate router ID"⟩
  else if speaker.config.asn.any fun expected => message.asn != expected then
    .err ⟨⟨.badPeerAs, []⟩, "remote ASN mismatch: expected " ++ toString (speaker.config.asn.getD 0) ++
      ", received " ++ toString message.asn⟩
  else if negotiated.isEmpty && !peerCaps.multiprotocol.isEmpty then
    .err ⟨⟨.unsupportedCapability, ours.flatMap fun afiSafi => (Capability.newMultiprotocol afiSafi).toBytes⟩, "no common AFI/SAFI"⟩
  else if speaker.localConfig.asn > MAX_2BYTE_ASN ∧ peerCaps.fourOctetAsn = none then
    .err ⟨⟨.unsupportedOptionalParameter, []⟩, "peer does not support 4-byte ASNs (RFC 6793)"⟩
  else
    .ok {
      asn := message.asn
      isEbgp := message.asn != speaker.localConfig.asn
      capabilities := { peerCaps with multiprotocol := negotiated, addPath := speaker.negotiateAddPath peerCaps }
      holdTime := min speaker.localConfig.holdTime message.holdTime }

def Joins (speaker other : Speaker) (session : Negotiated) : Prop :=
  ∃ arrived, OpenMessage.fromBytes other.buildOpenMessage.toBytes = .ok arrived ∧ speaker.enterOpenConfirm arrived = .ok session

end Speaker

def SameFormat (sender receiver : Negotiated) : Prop :=
  (sender.capabilities.sendFormat sender.isEbgp).use4byteAsn = (receiver.capabilities.receiveFormat receiver.isEbgp).use4byteAsn ∧
    (sender.capabilities.sendFormat sender.isEbgp).addPath = (receiver.capabilities.receiveFormat receiver.isEbgp).addPath

section

variable {speaker : Speaker} {peerCaps : PeerCapabilities}

def offered (can : AddPathMode → Bool) (entries : Option (List (AfiSafi × AddPathMode))) : List AfiSafi :=
  ((entries.getD []).filter fun entry => can entry.2).map Prod.fst

theorem sendFormat_addPath (capabilities : PeerCapabilities) (isEbgp : Bool) :
    (capabilities.sendFormat isEbgp).addPath = .ofFamilies (offered canSend capabilities.addPath) := by
  rw [AddPathMask.ofFamilies, offered, foldl_map]
  rfl

theorem receiveFormat_addPath (capabilities : PeerCapabilities) (isEbgp : Bool) :
    (capabilities.receiveFormat isEbgp).addPath = .ofFamilies (offered canReceive capabilities.addPath) := by
  rw [AddPathMask.ofFamilies, offered, foldl_map]
  rfl

theorem mem_offered {can : AddPathMode → Bool} {entries : Option (List (AfiSafi × AddPathMode))} {family : AfiSafi} :
    family ∈ offered can entries ↔ ∃ mode, (family, mode) ∈ entries.getD [] ∧ can mode = true := by
  simp only [offered, mem_map, mem_filter, Prod.exists]
  exact ⟨fun ⟨_, mode, held, same⟩ => ⟨mode, same ▸ held⟩, fun ⟨mode, held⟩ => ⟨family, mode, held, rfl⟩⟩

theorem negotiateAddPath_entries : (speaker.negotiateAddPath peerCaps).getD [] = (peerCaps.addPath.getD []).filterMap fun entry =>
      (fromFlags (speaker.config.sendsAddPath && entry.2.canReceive)
        (speaker.config.addPathReceive && entry.2.canSend)).map fun mode => (entry.1, mode) := by
  rw [Speaker.negotiateAddPath]
  cases peerCaps.addPath with
  | none => rfl
  | some peerAddPath =>
    simp only [Option.bind_eq_bind, Option.bind_some]
    split
    · rename_i neither
      rw [Bool.and_eq_true, Bool.not_eq_true', Bool.not_eq_true'] at neither
      simp [neither.1, neither.2, fromFlags]
    · split
      · rename_i empty
        exact (isEmpty_iff.mp empty).symm
      · rfl

variable {family : AfiSafi} {send receive : Bool}

theorem fromFlags_canSend {mode : AddPathMode} (made : fromFlags send receive = some mode) :
    mode.canSend = send ∧ mode.canReceive = receive := by
  cases send <;> cases receive <;> cases made <;> exact ⟨rfl, rfl⟩

theorem fromFlags_isSome (either : send = true ∨ receive = true) : ∃ mode, fromFlags send receive = some mode := by
  rcases either with rfl | rfl
  · cases receive <;> exact ⟨_, rfl⟩
  · cases send <;> exact ⟨_, rfl⟩

theorem mem_negotiated {able offers : AddPathMode → Bool} {enabled : Bool}
    (made : ∀ mode made, fromFlags (speaker.config.sendsAddPath && mode.canReceive)
      (speaker.config.addPathReceive && mode.canSend) = some made → able made = (enabled && offers mode))
    (given : ∀ mode, (enabled && offers mode) = true → (speaker.config.sendsAddPath && mode.canReceive) = true ∨
      (speaker.config.addPathReceive && mode.canSend) = true) :
    family ∈ offered able (speaker.negotiateAddPath peerCaps) ↔ enabled = true ∧ family ∈ offered offers peerCaps.addPath := by
  simp only [mem_offered, negotiateAddPath_entries, mem_filterMap, Option.map_eq_some_iff, Prod.mk.injEq]
  refine ⟨fun ⟨mode, ⟨entry, listed, _, flags, family, same⟩, chosen⟩ => ?_, fun ⟨on, mode, listed, chosen⟩ => ?_⟩
  · subst same family
    rw [made _ _ flags, Bool.and_eq_true] at chosen
    exact ⟨chosen.1, entry.2, listed, chosen.2⟩
  · have both := Bool.and_eq_true_iff.mpr ⟨on, chosen⟩
    obtain ⟨result, flags⟩ := fromFlags_isSome (given mode both)
    exact ⟨result, ⟨(family, mode), listed, result, flags, rfl, rfl⟩, (made _ _ flags).trans both⟩

theorem mem_negotiated_send : family ∈ offered canSend (speaker.negotiateAddPath peerCaps) ↔
    speaker.config.sendsAddPath = true ∧ family ∈ offered canReceive peerCaps.addPath :=
  mem_negotiated (fun _ _ flags => (fromFlags_canSend flags).1) fun _ => .inl

theorem mem_negotiated_receive : family ∈ offered canReceive (speaker.negotiateAddPath peerCaps) ↔
      speaker.config.addPathReceive = true ∧ family ∈ offered canSend peerCaps.addPath :=
  mem_negotiated (fun _ _ flags => (fromFlags_canSend flags).2) fun _ => .inr

end

section

variable {capabilities : PeerCapabilities} {cap : Capability} {caps : List Capability}

variable (asn : UInt32) (config : SessionConfig) (llgr : Option LlgrConfig)

theorem noteCapability_fourOctetAsn (other : cap.code ≠ .fourOctetAsn) :
    (noteCapability capabilities cap).fourOctetAsn = capabilities.fourOctetAsn := by
  unfold noteCapability
  cases code : cap.code with
  | multiprotocol =>
    dsimp only
    split <;> rfl
  | fourOctetAsn => exact absurd code other
  | _ => rfl

theorem noteCapability_addPath (other : cap.code ≠ .addPath) : (noteCapability capabilities cap).addPath = capabilities.addPath := by
  unfold noteCapability
  cases code : cap.code with
  | multiprotocol | fourOctetAsn =>
    dsimp only
    split <;> rfl
  | addPath => exact absurd code other
  | _ => rfl

theorem note_all {Field : Type} (field : PeerCapabilities → Field) {code : BgpCapabilityCode}
    (kept : ∀ {capabilities cap}, Capability.code cap ≠ code → field (noteCapability capabilities cap) = field capabilities)
    (others : ∀ cap ∈ caps, cap.code ≠ code) (capabilities : PeerCapabilities) :
    field (caps.foldl noteCapability capabilities) = field capabilities := by
  induction caps generalizing capabilities with
  | nil => rfl
  | cons cap caps ih =>
    rw [foldl_cons, ih fun other member => others other (mem_cons_of_mem _ member)]
    exact kept (others cap mem_cons_self)

theorem extractCapabilities_fields (message : OpenMessage) : (extractCapabilities message).fourOctetAsn =
        ((message.optionalParams.flatMap OptionalParam.capabilities).foldl noteCapability noCapabilities).fourOctetAsn ∧
      (extractCapabilities message).addPath =
        ((message.optionalParams.flatMap OptionalParam.capabilities).foldl noteCapability noCapabilities).addPath := by
  unfold extractCapabilities
  dsimp only
  split <;> exact ⟨rfl, rfl⟩

theorem gracefulRestartCaps_code : ∀ cap ∈ gracefulRestartCaps config, cap.code = .gracefulRestart := by
  unfold gracefulRestartCaps
  split
  · exact forall_mem_singleton.mpr rfl
  · nofun

theorem llgrCaps_code : ∀ cap ∈ llgrCaps llgr, cap.code = .llgr := by
  unfold llgrCaps
  split
  · nofun
  · exact forall_mem_singleton.mpr rfl

theorem addPathCaps_code : ∀ cap ∈ addPathCaps config, cap.code = .addPath := by
  unfold addPathCaps
  split
  · exact forall_mem_singleton.mpr rfl
  · nofun

theorem opening_code :
    ∀ cap ∈ (advertisedAfiSafis config).map Capability.newMultiprotocol ++ [.newRouteRefresh, .newEnhancedRouteRefresh] ++
      gracefulRestartCaps config, cap.code ≠ .addPath := by
  simp only [forall_mem_append, forall_mem_map, forall_mem_cons, not_mem_nil]
  refine ⟨⟨fun _ _ => nofun, nofun, nofun, nofun⟩, fun cap graceful => ?_⟩
  rw [gracefulRestartCaps_code config cap graceful]
  exact BgpCapabilityCode.noConfusion

theorem openCaps_fourOctetAsn (capabilities : PeerCapabilities) :
    ((openCaps asn config llgr).foldl noteCapability capabilities).fourOctetAsn = some asn := by
  have later : ∀ cap ∈ llgrCaps llgr ++ addPathCaps config, cap.code ≠ .fourOctetAsn := by
    intro cap member
    rcases mem_append.mp member with llgrCap | addPathCap
    · rw [llgrCaps_code llgr cap llgrCap]
      exact BgpCapabilityCode.noConfusion
    · rw [addPathCaps_code config cap addPathCap]
      exact BgpCapabilityCode.noConfusion
  rw [openCaps, append_assoc, foldl_append, note_all PeerCapabilities.fourOctetAsn noteCapability_fourOctetAsn later, foldl_append, foldl_cons]
  simp [noteCapability, Capability.newFourOctetAsn]

theorem openCaps_addPath : ((openCaps asn config llgr).foldl noteCapability noCapabilities).addPath =
      (fromFlags config.sendsAddPath config.addPathReceive).map fun mode =>
        (advertisedAfiSafis config).map fun afiSafi => (afiSafi, mode) := by
  have llgrOnly : ∀ cap ∈ llgrCaps llgr, cap.code ≠ .addPath := by
    intro cap member
    rw [llgrCaps_code llgr cap member]
    exact BgpCapabilityCode.noConfusion
  rw [openCaps, foldl_append, foldl_append, foldl_append, foldl_cons, foldl_nil, addPathCaps]
  cases fromFlags config.sendsAddPath config.addPathReceive with
  | none =>
    rw [foldl_nil, note_all PeerCapabilities.addPath noteCapability_addPath llgrOnly, noteCapability_addPath BgpCapabilityCode.noConfusion,
      note_all PeerCapabilities.addPath noteCapability_addPath (opening_code config)]
    rfl
  | some mode =>
    exact Capability.asAddPath_newAddPath _

theorem openCaps_len : ∀ cap ∈ openCaps asn config llgr, cap.len = byteLen cap.val := by
  simp only [openCaps, forall_mem_append, forall_mem_map, forall_mem_cons, not_mem_nil]
  refine ⟨⟨⟨⟨⟨fun _ _ => rfl, rfl, rfl, nofun⟩, ?_⟩, rfl, nofun⟩, ?_⟩, ?_⟩
  · unfold gracefulRestartCaps
    split
    · exact forall_mem_singleton.mpr rfl
    · nofun
  · unfold llgrCaps
    split
    · nofun
    · exact forall_mem_singleton.mpr rfl
  · unfold addPathCaps
    split
    · exact forall_mem_singleton.mpr rfl
    · nofun

end

section

variable {first second : Speaker} {firstSession secondSession : Negotiated}

namespace Speaker

section

variable (speaker : Speaker)

def Fits : Prop := (speaker.buildOpenMessage.optionalParams.flatMap OptionalParam.toBytes).length ≤ 255

instance (speaker : Speaker) : Decidable speaker.Fits := inferInstanceAs (Decidable (_ ≤ _))

def written : List UInt8 := speaker.buildOpenMessage.optionalParams.flatMap OptionalParam.toBytes

-- The capabilities in the bytes that the length octet still counts.
def heard : PeerCapabilities :=
  ((capabilityItems (speaker.written.take (speaker.written.length % 256))).map capabilityOf).foldl noteCapability noCapabilities

theorem heard_arrived {arrived : OpenMessage} (read : fromBytes speaker.buildOpenMessage.toBytes = .ok arrived) :
    speaker.heard = (arrived.optionalParams.flatMap OptionalParam.capabilities).foldl noteCapability noCapabilities := by
  obtain ⟨said, params⟩ := fromBytes_params read
  have len : speaker.buildOpenMessage.optionalParamsLen.toNat = speaker.written.length % 256 := by
    rw [said, byteLen, UInt8.toNat_ofNat', written]
  unfold heard
  rw [← len]
  obtain ⟨zero, none⟩ | ⟨-, parsed⟩ := readParams_ok params
  · rw [none, zero]
    rfl
  · rw [(params_write (readOptionalParameters_items parsed).2).2.1]
    rfl

theorem Joins.session (joined : first.Joins second firstSession) : firstSession.capabilities.fourOctetAsn = second.heard.fourOctetAsn ∧
      firstSession.capabilities.addPath = first.negotiateAddPath second.heard := by
  obtain ⟨arrived, read, entered⟩ := joined
  obtain ⟨asn, addPath⟩ := extractCapabilities_fields arrived
  rw [heard_arrived _ read, ← asn, negotiateAddPath, ← addPath, ← negotiateAddPath]
  unfold enterOpenConfirm at entered
  dsimp only at entered
  split at entered
  · cases entered
  · split at entered
    · cases entered
    · split at entered
      · cases entered
      · split at entered
        · cases entered
        · cases entered
          exact ⟨rfl, rfl⟩

theorem build_suppressed {speaker : Speaker} (suppressed : speaker.capabilitiesSuppressed = true) :
    speaker.buildOpenMessage.optionalParamsLen = 0 ∧ speaker.buildOpenMessage.optionalParams = [] := by
  rw [buildOpenMessage, if_pos suppressed]
  exact ⟨rfl, rfl⟩

theorem build_offering {speaker : Speaker} (offering : speaker.capabilitiesSuppressed = false) :
    speaker.buildOpenMessage = createOpenMessage speaker.localConfig.asn speaker.localConfig.holdTime
      speaker.localConfig.bgpId speaker.config speaker.localConfig.llgr := by
  rw [buildOpenMessage, if_neg (by rw [offering]; exact Bool.false_ne_true)]

theorem heard_suppressed (suppressed : speaker.capabilitiesSuppressed = true) :
    speaker.heard.fourOctetAsn = none ∧ speaker.heard.addPath = none := by
  have bare : speaker.written = [] := by
    rw [written, (build_suppressed suppressed).2]
    rfl
  rw [heard, bare]
  exact ⟨rfl, rfl⟩

theorem heard_fits {arrived : OpenMessage} (offering : speaker.capabilitiesSuppressed = false)
    (fits : speaker.Fits) (read : fromBytes speaker.buildOpenMessage.toBytes = .ok arrived) :
    speaker.heard.fourOctetAsn = some speaker.localConfig.asn ∧
      speaker.heard.addPath = (fromFlags speaker.config.sendsAddPath speaker.config.addPathReceive).map fun mode =>
        (advertisedAfiSafis speaker.config).map fun afiSafi => (afiSafi, mode) := by
  have params := (fromBytes_params read).2
  have built := build_offering offering
  rw [Fits, built, createOpenMessage, buildOptionalParams, flatMap_singleton] at fits
  rw [built, createOpenMessage, buildOptionalParams, flatMap_singleton, map_singleton, sum_singleton,
    readParams_fits (openCaps_len _ _ _) fits] at params
  have kept : arrived.optionalParams.flatMap OptionalParam.capabilities =
      openCaps speaker.localConfig.asn speaker.config speaker.localConfig.llgr := by
    rw [← Checked.ok.inj params, flatMap_singleton]
    rfl
  rw [heard_arrived _ read, kept]
  exact ⟨openCaps_fourOctetAsn _ _ _ _, openCaps_addPath _ _ _⟩

end

end Speaker

def HeardAlike (first second : Speaker) : Prop := first.heard.fourOctetAsn.isSome = second.heard.fourOctetAsn.isSome ∧
    ∀ family, AddPathMask.Representable family →
      ((first.config.sendsAddPath = true ∧ family ∈ offered AddPathMode.canReceive second.heard.addPath ↔
          second.config.addPathReceive = true ∧ family ∈ offered AddPathMode.canSend first.heard.addPath) ∧
        (second.config.sendsAddPath = true ∧ family ∈ offered AddPathMode.canReceive first.heard.addPath ↔
          first.config.addPathReceive = true ∧ family ∈ offered AddPathMode.canSend second.heard.addPath))

theorem sameFormat_iff (firstUp : first.Joins second firstSession) (secondUp : second.Joins first secondSession) :
    SameFormat firstSession secondSession ↔ second.heard.fourOctetAsn.isSome = first.heard.fourOctetAsn.isSome ∧
        ∀ family, AddPathMask.Representable family →
          (first.config.sendsAddPath = true ∧ family ∈ offered canReceive second.heard.addPath ↔
            second.config.addPathReceive = true ∧ family ∈ offered canSend first.heard.addPath) := by
  obtain ⟨firstAsn, firstAddPath⟩ := firstUp.session
  obtain ⟨secondAsn, secondAddPath⟩ := secondUp.session
  rw [SameFormat, sendFormat_addPath, receiveFormat_addPath, AddPathMask.ofFamilies_eq_iff, firstAddPath, secondAddPath]
  simp [PeerCapabilities.sendFormat, PeerCapabilities.receiveFormat, firstAsn, secondAsn, mem_negotiated_send, mem_negotiated_receive]

theorem formats_agree_iff_heardAlike (firstUp : first.Joins second firstSession) (secondUp : second.Joins first secondSession) :
    SameFormat firstSession secondSession ∧ SameFormat secondSession firstSession ↔ HeardAlike first second := by
  rw [sameFormat_iff firstUp secondUp, sameFormat_iff secondUp firstUp]
  constructor
  · intro both
    exact ⟨both.2.1, fun family bit => ⟨both.1.2 family bit, both.2.2 family bit⟩⟩
  · intro alike
    exact ⟨⟨alike.1.symm, fun family bit => (alike.2 family bit).1⟩, alike.1, fun family bit => (alike.2 family bit).2⟩

def ConfiguredAlike (first second : Speaker) : Prop := first.capabilitiesSuppressed = second.capabilitiesSuppressed ∧
    (first.capabilitiesSuppressed = false → (first.config.sendsAddPath = true ∧ second.config.addPathReceive = true) ∨
        (second.config.sendsAddPath = true ∧ first.config.addPathReceive = true) →
      ∀ family, AddPathMask.Representable family → (family ∈ advertisedAfiSafis first.config ↔ family ∈ advertisedAfiSafis second.config))

def Compatible (first second : Speaker) : Prop :=
  if first.Fits ∧ second.Fits then ConfiguredAlike first second else HeardAlike first second

theorem heard_of_fits {speaker : Speaker} {arrived : OpenMessage} (fits : speaker.Fits)
    (read : fromBytes speaker.buildOpenMessage.toBytes = .ok arrived) (family : AfiSafi) :
    speaker.heard.fourOctetAsn.isSome = !speaker.capabilitiesSuppressed ∧
      (family ∈ offered canSend speaker.heard.addPath ↔ speaker.capabilitiesSuppressed = false ∧
        speaker.config.sendsAddPath = true ∧ family ∈ advertisedAfiSafis speaker.config) ∧
      (family ∈ offered canReceive speaker.heard.addPath ↔ speaker.capabilitiesSuppressed = false ∧
        speaker.config.addPathReceive = true ∧ family ∈ advertisedAfiSafis speaker.config) := by
  cases suppressed : speaker.capabilitiesSuppressed with
  | true =>
    obtain ⟨asn, addPath⟩ := speaker.heard_suppressed suppressed
    rw [asn, addPath]
    simp [offered]
  | false =>
    obtain ⟨asn, addPath⟩ := speaker.heard_fits suppressed fits read
    rw [asn, addPath]
    cases flags : fromFlags speaker.config.sendsAddPath speaker.config.addPathReceive with
    | none =>
      have neither : speaker.config.sendsAddPath = false ∧ speaker.config.addPathReceive = false := by
        cases sends : speaker.config.sendsAddPath <;> cases receives : speaker.config.addPathReceive <;>
          rw [sends, receives] at flags <;> first | exact ⟨rfl, rfl⟩ | cases flags
      simp [offered, neither.1, neither.2]
    | some mode =>
      obtain ⟨sends, receives⟩ := fromFlags_canSend flags
      simp [mem_offered, sends, receives, and_comm]

theorem heardAlike_iff_configuredAlike {firstArrived secondArrived : OpenMessage} (firstFits : first.Fits)
    (secondFits : second.Fits) (firstRead : fromBytes first.buildOpenMessage.toBytes = .ok firstArrived)
    (secondRead : fromBytes second.buildOpenMessage.toBytes = .ok secondArrived) :
    HeardAlike first second ↔ ConfiguredAlike first second := by
  have firstHeard := heard_of_fits firstFits firstRead
  have secondHeard := heard_of_fits secondFits secondRead
  rw [HeardAlike, ConfiguredAlike, (firstHeard ⟨.ipv4, .unicast⟩).1, (secondHeard ⟨.ipv4, .unicast⟩).1, Bool.not_inj_iff]
  refine and_congr_right fun same => ?_
  simp only [(firstHeard _).2, (secondHeard _).2, ← same]
  cases first.capabilitiesSuppressed with
  | true => simp
  | false =>
    simp only [true_and, forall_const]
    constructor
    · intro matched either family bit
      have both := matched family bit
      tauto
    · intro matched family bit
      have both := fun either => matched either family bit
      tauto

theorem formats_agree_iff (first second : Speaker) (firstSession secondSession : Negotiated)
    (firstUp : first.Joins second firstSession) (secondUp : second.Joins first secondSession) :
    SameFormat firstSession secondSession ∧ SameFormat secondSession firstSession ↔ Compatible first second := by
  rw [formats_agree_iff_heardAlike firstUp secondUp, Compatible]
  split
  · rename_i fits
    obtain ⟨secondArrived, secondRead, -⟩ := firstUp
    obtain ⟨firstArrived, firstRead, -⟩ := secondUp
    exact heardAlike_iff_configuredAlike fits.1 fits.2 firstRead secondRead
  · rfl

end

section

theorem Speaker.joins_of_reads {speaker other : Speaker} {session : Negotiated} {arrived : OpenMessage}
    (read : fromBytes other.buildOpenMessage.toBytes = .ok arrived)
    (entered : speaker.enterOpenConfirm arrived = .ok session) : speaker.Joins other session := ⟨arrived, read, entered⟩

def exampleSpeaker : Speaker := { localConfig := ⟨64512, 1, 90, none⟩ }

def exampleNeighbor : Speaker := { localConfig := ⟨64513, 2, 90, none⟩ }

def exampleSession (asn : UInt32) (fourOctetAsn : Option UInt32) (addPath : Option (List (AfiSafi × AddPathMode))) : Negotiated :=
  ⟨asn, true, ⟨[⟨.ipv4, .unicast⟩], true, fourOctetAsn, some ⟨[(⟨.ipv4, .unicast⟩, false)]⟩, addPath, none⟩, 90⟩

def fullLlgr : LlgrConfig := { staleTime := some 3600, afiSafis := some defaultAfiSafis }

def fullSpeaker (asn bgpId : UInt32) : Speaker where
  localConfig := ⟨asn, bgpId, 90, getPeerLlgr none (some fullLlgr)⟩
  config := { addPathSend := .all, addPathReceive := true, llgr := some fullLlgr, afiSafis := defaultAfiSafis }

def fullSession (asn : UInt32) : Negotiated :=
  ⟨asn, true, ⟨defaultAfiSafis, true, some asn, some ⟨defaultAfiSafis.map (·, false)⟩, some (defaultAfiSafis.map (·, .both)),
    some ⟨llgrToEntries fullLlgr⟩⟩, 90⟩

theorem formats_agree_with_add_path : SameFormat (fullSession 64513) (fullSession 64512) ∧
      SameFormat (fullSession 64512) (fullSession 64513) := by
  have firstUp : (fullSpeaker 64512 1).Joins (fullSpeaker 64513 2) (fullSession 64513) :=
    Speaker.joins_of_reads rfl (by decide +kernel)
  have secondUp : (fullSpeaker 64513 2).Joins (fullSpeaker 64512 1) (fullSession 64512) :=
    Speaker.joins_of_reads rfl (by decide +kernel)
  refine (formats_agree_iff _ _ _ _ firstUp secondUp).mpr ?_
  rw [Compatible, if_pos (by decide +kernel)]
  exact ⟨rfl, fun _ _ _ _ => Iff.rfl⟩

def suppressedSpeaker : Speaker := { exampleSpeaker with capabilitiesSuppressed := true }

def sendingSpeaker : Speaker := { exampleSpeaker with config := { addPathSend := .all } }

def receivingNeighbor : Speaker :=
  { exampleNeighbor with config := { addPathReceive := true, afiSafis := [⟨.ipv4, .unicast⟩, ⟨.ipv6, .unicast⟩] } }

def everyFamily : List AfiSafi := [Afi.ipv4, .ipv6, .linkState].flatMap fun afi =>
    [Safi.unicast, .multicast, .mplsLabel, .linkState, .linkStateVpn].map fun safi => ⟨afi, safi⟩

def longLlgr : LlgrConfig := { staleTime := some 3600, afiSafis := some (everyFamily.take 4) }

def longSpeaker : Speaker where
  localConfig := { exampleSpeaker.localConfig with llgr := getPeerLlgr none (some longLlgr) }
  config := { addPathSend := .all, addPathReceive := true, llgr := some longLlgr, afiSafis := everyFamily }

def bareSession (asn : UInt32) : Negotiated := ⟨asn, true, ⟨[], false, none, none, none, none⟩, 90⟩

def cutOpen : OpenMessage := ⟨4, 64512, 90, 1, 2, [⟨.capabilities, 0, .capabilities []⟩]⟩

-- The sender counts the IPv6 family of the neighbor, which it has not offered itself.
def sendingSession : Negotiated :=
  ⟨64513, true, ⟨[⟨.ipv4, .unicast⟩], true, some 64513, some ⟨[(⟨.ipv4, .unicast⟩, false), (⟨.ipv6, .unicast⟩, false)]⟩,
    some [(⟨.ipv4, .unicast⟩, .send), (⟨.ipv6, .unicast⟩, .send)], none⟩, 90⟩

theorem accepted_configurations_disagree : (suppressedSpeaker.Joins exampleNeighbor (exampleSession 64513 (some 64513) none) ∧
      exampleNeighbor.Joins suppressedSpeaker (bareSession 64512) ∧
      ¬ SameFormat (exampleSession 64513 (some 64513) none) (bareSession 64512)) ∧
    (sendingSpeaker.config.validate = .ok () ∧ receivingNeighbor.config.validate = .ok () ∧
      sendingSpeaker.Joins receivingNeighbor sendingSession ∧
      receivingNeighbor.Joins sendingSpeaker (exampleSession 64512 (some 64512) (some [(⟨.ipv4, .unicast⟩, .receive)])) ∧
      ¬ SameFormat sendingSession (exampleSession 64512 (some 64512) (some [(⟨.ipv4, .unicast⟩, .receive)]))) ∧
    longSpeaker.config.validate = .ok () ∧ longSpeaker.Joins exampleNeighbor (exampleSession 64513 (some 64513) none) ∧
      exampleNeighbor.Joins longSpeaker (bareSession 64512) ∧
      ¬ SameFormat (exampleSession 64513 (some 64513) none) (bareSession 64512) := by
  have cut : fromBytes longSpeaker.buildOpenMessage.toBytes = .ok cutOpen := by decide +kernel
  refine ⟨⟨Speaker.joins_of_reads rfl (by decide +kernel), Speaker.joins_of_reads rfl (by decide +kernel), ?_⟩,
    ⟨rfl, rfl, Speaker.joins_of_reads rfl (by decide +kernel), Speaker.joins_of_reads rfl (by decide +kernel), ?_⟩, rfl,
    Speaker.joins_of_reads rfl (by decide +kernel), Speaker.joins_of_reads cut (by decide +kernel), ?_⟩
  · unfold SameFormat
    decide +kernel
  · unfold SameFormat
    decide +kernel
  · unfold SameFormat
    decide +kernel

end

end Bgpgg.Peer
