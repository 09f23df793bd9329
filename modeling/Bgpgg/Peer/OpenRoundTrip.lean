import Bgpgg.Peer.Negotiation
import Bgpgg.Peer.OpenReencode

namespace Bgpgg.Peer

open Net Wire Lib OptionalParam Capability List OpenMessage

def Capability.asRestartTime (cap : Capability) : Option UInt16 := match cap.val with
  | first :: second :: _ =>
    if cap.code = .gracefulRestart then some (((first &&& 0x0F).toUInt16 <<< 8) ||| second.toUInt16) else none
  | _ => none

def Capability.asMultiprotocol (cap : Capability) : Option AfiSafi :=
  if cap.code = .multiprotocol then afiSafiFromCapabilityBytes cap.val else none

section

variable {caps : List Capability} {Value : Type}

variable (asn : UInt32) (config : SessionConfig) (llgr : Option LlgrConfig)

theorem filterMap_of_code {reader : Capability → Option Value} {code : BgpCapabilityCode}
    (only : ∀ cap, cap.code ≠ code → reader cap = none) (caps : List Capability) :
    caps.filterMap reader = (caps.filter fun cap => cap.code = code).filterMap reader := by
  rw [filterMap_filter]
  apply filterMap_congr
  intro cap _
  split
  · rfl
  · rename_i other
    exact only cap (by simpa using other)

theorem filter_of_code {own : BgpCapabilityCode} (same : ∀ cap ∈ caps, cap.code = own) (code : BgpCapabilityCode) :
    caps.filter (fun cap => cap.code = code) = if own = code then caps else [] := by
  split
  · rename_i here
    exact filter_eq_self.mpr fun cap member => decide_eq_true ((same cap member).trans here)
  · rename_i other
    apply filter_eq_nil_iff.mpr
    intro cap member
    rw [same cap member]
    simpa using other

theorem multiprotocolCaps_code (families : List AfiSafi) : ∀ cap ∈ families.map newMultiprotocol, cap.code = .multiprotocol := by
  intro cap member
  obtain ⟨afiSafi, -, rfl⟩ := mem_map.mp member
  rfl

theorem openCaps_of_code (code : BgpCapabilityCode) : (openCaps asn config llgr).filter (fun cap => cap.code = code) = match code with
      | .multiprotocol => (advertisedAfiSafis config).map newMultiprotocol
      | .routeRefresh => [.newRouteRefresh]
      | .gracefulRestart => gracefulRestartCaps config
      | .fourOctetAsn => [.newFourOctetAsn asn]
      | .addPath => addPathCaps config
      | .enhancedRouteRefresh => [.newEnhancedRouteRefresh]
      | .llgr => llgrCaps llgr
      | .unknown => [] := by
  simp only [openCaps, filter_append, filter_of_code (multiprotocolCaps_code _), filter_of_code (gracefulRestartCaps_code config),
    filter_of_code (llgrCaps_code llgr), filter_of_code (addPathCaps_code config)]
  cases code <;> simp [newRouteRefresh, newEnhancedRouteRefresh, newFourOctetAsn]

theorem openCaps_asn : (openCaps asn config llgr).filterMap asFourOctetAsn = [asn] := by
  have only : ∀ cap : Capability, cap.code ≠ .fourOctetAsn → cap.asFourOctetAsn = none := by
    intro cap other
    rw [asFourOctetAsn, if_neg fun both => other both.1]
  rw [filterMap_of_code only, openCaps_of_code]
  simp [asFourOctetAsn, newFourOctetAsn]

theorem caps_room {params : List OptionalParam} (present : params ≠ []) :
    ((params.flatMap capabilities).flatMap Capability.toBytes).length + 2 ≤ (params.flatMap OptionalParam.toBytes).length := by
  have one : ∀ param : OptionalParam, (param.capabilities.flatMap Capability.toBytes).length + 2 ≤ param.toBytes.length := by
    rintro ⟨paramType, paramLen, value⟩
    cases value with
    | capabilities caps => simp [capabilities, OptionalParam.toBytes, OptParamVal.toBytes]
    | unknown data => simp [capabilities, OptionalParam.toBytes]
  have all : ∀ params : List OptionalParam,
      ((params.flatMap capabilities).flatMap Capability.toBytes).length ≤ (params.flatMap OptionalParam.toBytes).length := by
    intro params
    induction params with
    | nil => exact Nat.le_refl _
    | cons param params ih =>
      have here := one param
      simp only [flatMap_cons, flatMap_append, length_append]
      omega
  cases params with
  | nil => exact absurd rfl present
  | cons param params =>
    have here := one param
    have rest := all params
    simp only [flatMap_cons, flatMap_append, length_append]
    omega

end

namespace Speaker

variable {speaker : Speaker}

def sentCapabilities (speaker : Speaker) : List Capability := speaker.buildOpenMessage.optionalParams.flatMap OptionalParam.capabilities

def RoundTrips (speaker : Speaker) : Prop := ∃ arrived, OpenMessage.fromBytes speaker.buildOpenMessage.toBytes = .ok arrived ∧
    arrived.asn = speaker.localConfig.asn ∧ arrived.holdTime = speaker.localConfig.holdTime ∧
    arrived.bgpIdentifier = speaker.localConfig.bgpId ∧
    arrived.optionalParams.flatMap OptionalParam.capabilities = speaker.sentCapabilities

-- A hold time and an identifier that from_bytes accepts, room for the capabilities, and
-- without capabilities an AS number of two bytes that is not AS_TRANS.
structure Survives (speaker : Speaker) : Prop where
  holdTime : speaker.localConfig.holdTime ≠ 1 ∧ speaker.localConfig.holdTime ≠ 2
  bgpId : speaker.localConfig.bgpId ≠ 0
  room : speaker.Fits
  asn : speaker.capabilitiesSuppressed = true → speaker.localConfig.asn ≤ MAX_2BYTE_ASN ∧ speaker.localConfig.asn ≠ AS_TRANS

theorem build_fields (speaker : Speaker) : speaker.buildOpenMessage.version = 4 ∧ speaker.buildOpenMessage.asn = speaker.localConfig.asn ∧
      speaker.buildOpenMessage.holdTime = speaker.localConfig.holdTime ∧
      speaker.buildOpenMessage.bgpIdentifier = speaker.localConfig.bgpId := by
  unfold buildOpenMessage
  split <;> exact ⟨rfl, rfl, rfl, rfl⟩

theorem sentCapabilities_offering (offering : speaker.capabilitiesSuppressed = false) :
    speaker.sentCapabilities = openCaps speaker.localConfig.asn speaker.config speaker.localConfig.llgr := by
  rw [sentCapabilities, build_offering offering, createOpenMessage, buildOptionalParams, flatMap_singleton]
  rfl

end Speaker

theorem validateHoldTime_iff (holdTime : UInt16) : validateHoldTime holdTime = .ok () ↔ holdTime ≠ 1 ∧ holdTime ≠ 2 := by
  unfold validateHoldTime
  split
  · tauto
  · tauto

theorem validateBgpIdentifier_iff (bgpIdentifier : UInt32) : validateBgpIdentifier bgpIdentifier = .ok () ↔ bgpIdentifier ≠ 0 := by
  unfold validateBgpIdentifier
  split
  · rename_i zero
    simp [zero]
  · rename_i some
    simp [some]

theorem toUInt32_toUInt16 {asn : UInt32} (small : asn ≤ MAX_2BYTE_ASN) : asn.toUInt16.toUInt32 = asn := by
  apply UInt32.toNat_inj.mp
  have bound : asn.toNat ≤ 65535 := UInt32.le_iff_toNat_le.mp small
  rw [UInt16.toNat_toUInt32, UInt32.toNat_toUInt16, Nat.mod_eq_of_lt (by omega)]

theorem asnField_eq_trans_iff (asn : UInt32) : asnField asn = AS_TRANS.toUInt16 ↔ asn > MAX_2BYTE_ASN ∨ asn = AS_TRANS := by
  unfold asnField
  split
  · rename_i large
    simp [large]
  · rename_i small
    have back := toUInt32_toUInt16 (UInt32.not_lt.mp small)
    constructor
    · intro same
      rw [same] at back
      exact .inr back.symm
    · intro either
      rw [either.resolve_left small]

theorem realAsn_asnField {asn : UInt32} {params : List OptionalParam} : realAsn (asnField asn) params = .ok asn ↔
      (asn > MAX_2BYTE_ASN ∨ asn = AS_TRANS → findFourOctetAsn params = some asn) := by
  unfold realAsn
  split
  · rename_i trans
    have large := (asnField_eq_trans_iff asn).mp trans
    cases found : findFourOctetAsn params with
    | none | some other => simp [Checked.ofOption, large]
  · rename_i plain
    have small := fun large => plain ((asnField_eq_trans_iff asn).mpr large)
    have low : ¬ asn > MAX_2BYTE_ASN := fun large => small (.inl large)
    rw [asnField, if_neg low, toUInt32_toUInt16 (UInt32.not_lt.mp low)]
    simp only [true_iff]
    exact fun large => absurd large small

namespace Speaker

variable {speaker : Speaker}

theorem RoundTrips.survives (arrives : speaker.RoundTrips) : speaker.Survives := by
  obtain ⟨arrived, read, asn, -, -, caps⟩ := arrives
  obtain ⟨version, sameAsn, holdTime, bgpId⟩ := speaker.build_fields
  obtain ⟨-, -, holdOk, idOk, params, parsed, realAsn, real, same⟩ := fromBytes_toBytes.mp read
  subst same
  rw [holdTime, validateHoldTime_iff] at holdOk
  rw [bgpId, validateBgpIdentifier_iff] at idOk
  refine ⟨holdOk, idOk, ?_, ?_⟩
  · cases suppressed : speaker.capabilitiesSuppressed with
    | true =>
      rw [Fits, (build_suppressed suppressed).2]
      exact Nat.zero_le _
    | false =>
      have present : params ≠ [] := by
        intro none
        have some : openCaps speaker.localConfig.asn speaker.config speaker.localConfig.llgr ≠ [] := by
          simp [openCaps]
        rw [none, sentCapabilities_offering suppressed] at caps
        exact some caps.symm
      have bytes : (params.flatMap OptionalParam.toBytes).length ≤ 255 := by
        obtain ⟨-, none⟩ | ⟨-, parsed⟩ := readParams_ok parsed
        · exact absurd none present
        · obtain ⟨written, items⟩ := readOptionalParameters_items parsed
          rw [(params_write items).1, ← written]
          have most := length_take_le speaker.buildOpenMessage.optionalParamsLen.toNat
            (speaker.buildOpenMessage.optionalParams.flatMap OptionalParam.toBytes)
          have below : speaker.buildOpenMessage.optionalParamsLen.toNat < 256 := UInt8.toNat_lt _
          omega
      have room := caps_room present
      have built : (speaker.buildOpenMessage.optionalParams.flatMap OptionalParam.toBytes).length =
          2 + (speaker.sentCapabilities.flatMap Capability.toBytes).length := by
        rw [sentCapabilities_offering suppressed, build_offering suppressed, createOpenMessage, buildOptionalParams, flatMap_singleton]
        simp only [OptionalParam.toBytes, fromCapabilities, OptParamVal.toBytes, length_cons]
        omega
      rw [caps] at room
      rw [Fits]
      omega
  · intro suppressed
    obtain ⟨len, none⟩ := build_suppressed suppressed
    rw [len] at parsed
    cases parsed
    rw [sameAsn] at real
    replace asn : realAsn = speaker.localConfig.asn := asn
    rw [asn, realAsn_asnField] at real
    refine ⟨UInt32.not_lt.mp fun large => ?_, fun trans => ?_⟩
    · cases real (.inl large)
    · cases real (.inr trans)

theorem Survives.roundTrips (survives : speaker.Survives) : speaker.RoundTrips := by
  obtain ⟨version, sameAsn, holdTime, bgpId⟩ := speaker.build_fields
  have holdOk := (validateHoldTime_iff _).mpr survives.holdTime
  have idOk := (validateBgpIdentifier_iff _).mpr survives.bgpId
  have reads : ∀ params, speaker.buildOpenMessage.optionalParamsLen =
        byteLen (speaker.buildOpenMessage.optionalParams.flatMap OptionalParam.toBytes) →
      readParams speaker.buildOpenMessage.optionalParamsLen
        (speaker.buildOpenMessage.optionalParams.flatMap OptionalParam.toBytes) = .ok params →
      realAsn (asnField speaker.localConfig.asn) params = .ok speaker.localConfig.asn →
      params.flatMap capabilities = speaker.sentCapabilities → speaker.RoundTrips := by
    intro params len parsed real caps
    refine ⟨_, fromBytes_toBytes.mpr ⟨len, ?_, ?_, ?_, params, parsed, speaker.localConfig.asn, ?_, rfl⟩, rfl, holdTime, bgpId, caps⟩
    · rw [version]
      rfl
    · rw [holdTime]
      exact holdOk
    · rw [bgpId]
      exact idOk
    · rw [sameAsn]
      exact real
  cases suppressed : speaker.capabilitiesSuppressed with
  | true =>
    obtain ⟨len, none⟩ := build_suppressed suppressed
    obtain ⟨small, plain⟩ := survives.asn suppressed
    apply reads []
    · rw [len, none]
      rfl
    · rw [len]
      rfl
    · rw [realAsn_asnField]
      exact fun either => (either.elim (fun large => UInt32.not_lt.mpr small large) plain).elim
    · rw [sentCapabilities, none]
  | false =>
    have fits := survives.room
    rw [Fits, build_offering suppressed, createOpenMessage, buildOptionalParams, flatMap_singleton] at fits
    obtain ⟨-, -, said⟩ := lengths_fit (openCaps_len _ _ _) fits
    have parsed := readParams_fits (openCaps_len _ _ _) fits
    apply reads [fromCapabilities (openCaps speaker.localConfig.asn speaker.config speaker.localConfig.llgr)]
    · rw [build_offering suppressed, createOpenMessage, buildOptionalParams, flatMap_singleton, map_singleton]
      exact said
    · rw [build_offering suppressed, createOpenMessage, buildOptionalParams, flatMap_singleton, map_singleton]
      exact parsed
    · rw [realAsn_asnField]
      intro _
      rw [findFourOctetAsn, flatMap_singleton, ← head?_filterMap]
      change ((openCaps speaker.localConfig.asn speaker.config speaker.localConfig.llgr).filterMap asFourOctetAsn).head? = _
      rw [openCaps_asn]
      rfl
    · rw [flatMap_singleton, sentCapabilities_offering suppressed]
      rfl

end Speaker

section

theorem restart_bits {time : UInt16} (low : time.toNat < 4096) :
    ((((0 : UInt8) ||| (time >>> 8).toUInt8) &&& 0x0F).toUInt16 <<< 8) ||| (time &&& 0xFF).toUInt8.toUInt16 = time := by
  apply UInt16.toNat_inj.mp
  have high : ((((0 : UInt8) ||| (time >>> 8).toUInt8) &&& 0x0F).toUInt16 <<< 8).toNat = (time.toNat / 256) <<< 8 := by
    have four : (time.toNat / 256) &&& 15 = time.toNat / 256 := by
      rw [show 15 = 2 ^ 4 - 1 from rfl, Nat.and_two_pow_sub_one_eq_mod]
      omega
    simp [Nat.shiftRight_eq_div_pow]
    rw [Nat.mod_eq_of_lt (by omega : time.toNat / 256 < 256)]
    omega
  have second : (time &&& 0xFF).toUInt8.toUInt16.toNat = time.toNat % 256 := by
    have eight : time.toNat % 256 &&& 255 = time.toNat % 256 := by
      rw [show 255 = 2 ^ 8 - 1 from rfl, Nat.and_two_pow_sub_one_eq_mod]
      omega
    simpa using eight
  rw [UInt16.toNat_or, high, second, ← Nat.shiftLeft_add_eq_or_of_lt (Nat.mod_lt _ (by decide))]
  omega

theorem stale_bits (time : UInt32) :
    (((time >>> 16).toUInt8.toUInt32 <<< 16) ||| ((time >>> 8).toUInt8.toUInt32 <<< 8) ||| time.toUInt8.toUInt32).toNat =
      time.toNat % 2 ^ 24 := by
  have high : ((time >>> 16).toUInt8.toUInt32 <<< 16).toNat = (time.toNat / 65536 % 256) <<< 16 := by
    simp [Nat.shiftRight_eq_div_pow]
    omega
  have middle : ((time >>> 8).toUInt8.toUInt32 <<< 8).toNat = (time.toNat / 256 % 256) <<< 8 := by
    simp [Nat.shiftRight_eq_div_pow]
    omega
  have low : time.toUInt8.toUInt32.toNat = time.toNat % 256 := by simp
  have below : (time.toNat / 256 % 256) <<< 8 < 2 ^ 16 := by
    omega
  have upper : (time.toNat / 65536 % 256) <<< 16 + (time.toNat / 256 % 256) <<< 8 = (time.toNat / 256 % 65536) <<< 8 := by
    omega
  rw [UInt32.toNat_or, UInt32.toNat_or, high, middle, low, ← Nat.shiftLeft_add_eq_or_of_lt below, upper,
    ← Nat.shiftLeft_add_eq_or_of_lt (Nat.mod_lt _ (by decide))]
  omega

theorem restartTimeMask (time : UInt16) : (time &&& Capability.GR_RESTART_TIME_MASK).toNat = time.toNat % 4096 := by
  exact Nat.and_two_pow_sub_one_eq_mod time.toNat 12

end

namespace Capability

variable (time : UInt16) (families : List (AfiSafi × Bool))

theorem asRestartTime_new : (newGracefulRestart time false families).asRestartTime = some (time &&& GR_RESTART_TIME_MASK) := by
  have low : (time &&& GR_RESTART_TIME_MASK).toNat < 4096 := by
    rw [restartTimeMask]
    exact Nat.mod_lt _ (by decide)
  exact congrArg some (restart_bits low)

theorem asGracefulRestart_new : (newGracefulRestart time false families).asGracefulRestart = some ⟨families⟩ := by
  have read : gracefulRestartEntries (families.flatMap fun entry => familyBytes entry.1 [if entry.2 then 0x80 else 0]) = families := by
    induction families with
    | nil => rfl
    | cons entry families ih =>
      obtain ⟨afiHigh, afiLow, safi, written, family⟩ := familyOf_write entry.1 [if entry.2 then 0x80 else 0]
      rw [flatMap_cons, written]
      simp only [cons_append, nil_append]
      have flag : ∀ set : Bool, ((if set then (0x80 : UInt8) else 0) &&& 0x80 != 0) = set := by decide
      rw [gracefulRestartEntries, family, ih, flag]
      rfl
  exact congrArg (fun list => some (GracefulRestartCapability.mk list)) read

theorem asLlgr_new (families : List AfiSafi) (time : UInt32) : ∃ cut : UInt32, cut.toNat = time.toNat % 2 ^ 24 ∧
      (newLlgr (families.map fun afiSafi => ⟨afiSafi, false, time⟩)).asLlgr =
        some ⟨families.map fun afiSafi => ⟨afiSafi, false, cut⟩⟩ := by
  refine ⟨_, stale_bits time, ?_⟩
  have read : llgrEntries ((families.map fun afiSafi => (⟨afiSafi, false, time⟩ : LlgrEntry)).flatMap fun entry : LlgrEntry =>
      familyBytes entry.afiSafi [if entry.forwardingPreserved then 0x80 else 0, (entry.staleTime >>> 16).toUInt8,
        (entry.staleTime >>> 8).toUInt8, entry.staleTime.toUInt8]) =
      families.map fun afiSafi => ⟨afiSafi, false, ((time >>> 16).toUInt8.toUInt32 <<< 16) |||
        ((time >>> 8).toUInt8.toUInt32 <<< 8) ||| time.toUInt8.toUInt32⟩ := by
    induction families with
    | nil => rfl
    | cons afiSafi families ih =>
      obtain ⟨afiHigh, afiLow, safi, written, family⟩ := familyOf_write afiSafi
        [0, (time >>> 16).toUInt8, (time >>> 8).toUInt8, time.toUInt8]
      rw [map_cons, flatMap_cons]
      simp only [Bool.false_eq_true, if_false] at ih ⊢
      rw [written]
      simp only [cons_append, nil_append]
      rw [llgrEntries, family, ih]
      rfl
  rw [newLlgr, asLlgr, ofVal, if_pos rfl, read]

theorem asMultiprotocol_new (afiSafi : AfiSafi) : (newMultiprotocol afiSafi).asMultiprotocol = some afiSafi := by
  obtain ⟨afiHigh, afiLow, safi, written, family⟩ := familyOf_write afiSafi []
  have read : afiSafiFromCapabilityBytes (afiSafiToCapabilityBytes afiSafi) = some afiSafi := by
    obtain ⟨rfl, rfl, rfl, -⟩ := written
    exact family
  rw [asMultiprotocol, newMultiprotocol, ofVal, if_pos rfl, read]

end Capability

namespace Speaker

variable {speaker : Speaker}

def llgrEntries (speaker : Speaker) : List LlgrEntry := (speaker.localConfig.llgr.map llgrToEntries).getD []

structure TellsConfigured (speaker : Speaker) : Prop where
  families : speaker.sentCapabilities.filterMap Capability.asMultiprotocol = advertisedAfiSafis speaker.config
  restartTime : speaker.sentCapabilities.filterMap Capability.asRestartTime =
    if speaker.config.gracefulRestart.enabled then [speaker.config.gracefulRestart.restartTime] else []
  restartFamilies : speaker.sentCapabilities.filterMap Capability.asGracefulRestart =
    if speaker.config.gracefulRestart.enabled then [⟨(advertisedAfiSafis speaker.config).map fun afiSafi => (afiSafi, false)⟩] else []
  asn : speaker.sentCapabilities.filterMap Capability.asFourOctetAsn = [speaker.localConfig.asn]
  llgr : speaker.sentCapabilities.filterMap Capability.asLlgr = if speaker.llgrEntries = [] then [] else [⟨speaker.llgrEntries⟩]
  addPath : speaker.sentCapabilities.filterMap Capability.asAddPath =
    ((AddPathMode.fromFlags speaker.config.sendsAddPath speaker.config.addPathReceive).map fun mode =>
      (advertisedAfiSafis speaker.config).map fun afiSafi => (afiSafi, mode)).toList

def TimesFit (speaker : Speaker) : Prop :=
  (speaker.config.gracefulRestart.enabled = true → speaker.config.gracefulRestart.restartTime ≤ Capability.GR_RESTART_TIME_MASK) ∧
    ∀ entry ∈ speaker.llgrEntries, entry.staleTime ≤ MAX_LLGR_STALE_TIME

instance (speaker : Speaker) : Decidable speaker.TimesFit := inferInstanceAs (Decidable (_ ∧ _))

section

variable (offering : speaker.capabilitiesSuppressed = false)

include offering

theorem restartTime_told : (speaker.sentCapabilities.filterMap asRestartTime =
      if speaker.config.gracefulRestart.enabled then [speaker.config.gracefulRestart.restartTime] else []) ↔
    (speaker.config.gracefulRestart.enabled = true → speaker.config.gracefulRestart.restartTime ≤ Capability.GR_RESTART_TIME_MASK) := by
  have only : ∀ cap : Capability, cap.code ≠ .gracefulRestart → cap.asRestartTime = none := by
    intro cap other
    unfold asRestartTime
    split
    · rw [if_neg other]
    · rfl
  rw [sentCapabilities_offering offering, filterMap_of_code only, openCaps_of_code]
  dsimp only
  rw [gracefulRestartCaps]
  split
  · rename_i enabled
    simp only [enabled, forall_const, filterMap_cons, asRestartTime_new, filterMap_nil, cons.injEq, and_true]
    have mask : Capability.GR_RESTART_TIME_MASK.toNat = 4095 := rfl
    rw [← UInt16.toNat_inj, restartTimeMask, UInt16.le_iff_toNat_le]
    omega
  · rename_i disabled
    simp [disabled]

theorem llgr_told : (speaker.sentCapabilities.filterMap asLlgr = if speaker.llgrEntries = [] then [] else [⟨speaker.llgrEntries⟩]) ↔
      ∀ entry ∈ speaker.llgrEntries, entry.staleTime ≤ MAX_LLGR_STALE_TIME := by
  have only : ∀ cap : Capability, cap.code ≠ .llgr → cap.asLlgr = none := by
    intro cap other
    rw [asLlgr, if_neg other]
  rw [sentCapabilities_offering offering, filterMap_of_code only, openCaps_of_code]
  have entries : ∃ (families : List AfiSafi) (time : UInt32), speaker.llgrEntries = families.map fun afiSafi => ⟨afiSafi, false, time⟩ := by
    unfold llgrEntries
    cases speaker.localConfig.llgr with
    | none => exact ⟨[], 0, rfl⟩
    | some llgr => exact ⟨llgr.afiSafis.getD [], llgr.staleTime.getD 0, rfl⟩
  obtain ⟨families, time, made⟩ := entries
  rw [llgrCaps, ← llgrEntries, made]
  cases families with
  | nil => simp
  | cons first families =>
    obtain ⟨cut, exact, read⟩ := asLlgr_new (first :: families) time
    have limit : MAX_LLGR_STALE_TIME.toNat = 2 ^ 24 - 1 := rfl
    have same : cut = time ↔ time ≤ MAX_LLGR_STALE_TIME := by
      rw [← UInt32.toNat_inj, UInt32.le_iff_toNat_le, exact]
      omega
    rw [map_cons] at read ⊢
    simp only [filterMap_cons, read, filterMap_nil, reduceCtorEq, if_false, cons.injEq, and_true,
      LlgrCapability.mk.injEq, map_cons, LlgrEntry.mk.injEq, true_and, forall_mem_cons]
    rw [same]
    constructor
    · intro both
      refine ⟨both.1, fun entry member => ?_⟩
      obtain ⟨afiSafi, -, rfl⟩ := mem_map.mp member
      exact both.1
    · intro both
      rw [same.mpr both.1]
      exact ⟨both.1, rfl⟩

theorem tellsConfigured_iff : speaker.TellsConfigured ↔ speaker.TimesFit := by
  have caps := sentCapabilities_offering offering
  constructor
  · intro configured
    exact ⟨(restartTime_told offering).mp configured.restartTime, (llgr_told offering).mp configured.llgr⟩
  · intro times
    refine ⟨?_, (restartTime_told offering).mpr times.1, ?_, ?_, (llgr_told offering).mpr times.2, ?_⟩
    · have only : ∀ cap : Capability, cap.code ≠ .multiprotocol → cap.asMultiprotocol = none := by
        intro cap other
        rw [asMultiprotocol, if_neg other]
      rw [caps, filterMap_of_code only, openCaps_of_code]
      rw [filterMap_map]
      exact (filterMap_congr fun afiSafi _ => asMultiprotocol_new afiSafi).trans filterMap_some
    · have only : ∀ cap : Capability, cap.code ≠ .gracefulRestart → cap.asGracefulRestart = none := by
        intro cap other
        unfold asGracefulRestart
        split
        · rw [if_neg other]
        · rfl
      rw [caps, filterMap_of_code only, openCaps_of_code]
      dsimp only
      rw [gracefulRestartCaps]
      split
      · simp [asGracefulRestart_new]
      · rfl
    · rw [caps, openCaps_asn]
    · have only : ∀ cap : Capability, cap.code ≠ .addPath → cap.asAddPath = none := by
        intro cap other
        rw [asAddPath, if_neg other]
      rw [caps, filterMap_of_code only, openCaps_of_code]
      rw [addPathCaps]
      cases AddPathMode.fromFlags speaker.config.sendsAddPath speaker.config.addPathReceive with
      | none => rfl
      | some mode => simp [asAddPath_newAddPath]

end

theorem open_round_trips_iff (speaker : Speaker) : (speaker.RoundTrips ↔ speaker.Survives) ∧ (speaker.capabilitiesSuppressed = false →
      (speaker.RoundTrips ∧ speaker.TellsConfigured ↔ speaker.Survives ∧ speaker.TimesFit)) := by
  have trips : speaker.RoundTrips ↔ speaker.Survives := ⟨RoundTrips.survives, Survives.roundTrips⟩
  refine ⟨trips, fun offering => ?_⟩
  rw [trips, tellsConfigured_iff offering]

end Speaker

theorem open_round_trips_with_add_path : (fullSpeaker 64512 1).RoundTrips ∧ (fullSpeaker 64512 1).TellsConfigured := by
  apply ((Speaker.open_round_trips_iff (fullSpeaker 64512 1)).2 rfl).mpr
  exact ⟨⟨by decide, by decide, by decide +kernel, fun suppressed => by cases suppressed⟩, by decide +kernel⟩

def largeSuppressedSpeaker : Speaker where
  localConfig := ⟨70000, 1, 90, none⟩
  capabilitiesSuppressed := true

def slowRestartSpeaker : Speaker := { exampleSpeaker with config := { gracefulRestart := { restartTime := 5000 } } }

def hastySpeaker : Speaker := { localConfig := ⟨64512, 1, 1, none⟩ }

-- The four ways to lose an OPEN, or a value in it, with configurations that validate accepts.
theorem accepted_open_changes :
    longSpeaker.config.validate = .ok () ∧ OpenMessage.fromBytes longSpeaker.buildOpenMessage.toBytes = .ok cutOpen ∧
    OpenMessage.fromBytes largeSuppressedSpeaker.buildOpenMessage.toBytes = .err ⟨.badPeerAs, [0x5B, 0xA0]⟩ ∧
    OpenMessage.fromBytes hastySpeaker.buildOpenMessage.toBytes = .err ⟨.unacceptedHoldTime, []⟩ ∧
    slowRestartSpeaker.config.validate = .ok () ∧
    slowRestartSpeaker.sentCapabilities.filterMap Capability.asRestartTime = [904] ∧
    ¬ ∀ speaker : Speaker, speaker.config.validate = .ok () → speaker.RoundTrips := by
  have refused : fromBytes hastySpeaker.buildOpenMessage.toBytes = .err ⟨.unacceptedHoldTime, []⟩ := by decide +kernel
  refine ⟨rfl, by decide +kernel, by decide +kernel, refused, rfl, by decide +kernel, fun always => ?_⟩
  obtain ⟨arrived, read, -⟩ := always hastySpeaker rfl
  cases read

end Bgpgg.Peer
