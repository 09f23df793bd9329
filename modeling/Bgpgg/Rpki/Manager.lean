import Bgpgg.Lib.AssocMap
import Bgpgg.Lib.Runs
import Bgpgg.Rpki.VrpTable
import Mathlib.Data.Finset.Basic
import Mathlib.Data.Finset.Lattice.Lemmas

namespace Bgpgg.Rpki

open Net Lib

structure SshTransport where
  username : String
  privateKeyFile : String
  knownHostsFile : Option String
deriving DecidableEq, Repr

inductive RtrTransport where
  | tcp
  | ssh (transport : SshTransport)
deriving DecidableEq, Repr

structure RtrCacheConfig where
  address : SocketAddr
  preference : UInt8
  transport : RtrTransport
  retryInterval : Option UInt64
  refreshInterval : Option UInt64
  expireInterval : Option UInt64
deriving DecidableEq, Repr

structure VrpBatch where
  cacheAddr : SocketAddr
  sessionId : UInt16
  serial : UInt32
  vrps : Finset Vrp
deriving DecidableEq

structure VrpUpdate where
  added : Finset Vrp
  removed : Finset Vrp
deriving DecidableEq

-- The task stands for the shutdown channel and the join handle.
structure CacheSessionHandle where
  config : RtrCacheConfig
  task : Nat
deriving DecidableEq, Repr

structure RtrManager where
  sessions : AssocMap SocketAddr CacheSessionHandle
  perCacheVrps : AssocMap SocketAddr (Finset Vrp)
  allConfigs : AssocMap SocketAddr RtrCacheConfig
  serverTx : List VrpUpdate
  nextTask : Nat

namespace RtrManager

def new : RtrManager := ⟨∅, ∅, ∅, [], 0⟩

section

variable (manager : RtrManager) (config : RtrCacheConfig) (pref : UInt8) (addr : SocketAddr)

def anyOtherCacheHas (excludeAddr : SocketAddr) (vrp : Vrp) : Bool :=
  manager.perCacheVrps.entries.any fun entry => entry.1 != excludeAddr && decide (vrp ∈ entry.2)

def computeRemovalDiff : Finset Vrp :=
  match manager.perCacheVrps.lookup addr with
  | none => ∅
  | some cacheVrps => cacheVrps.filter fun vrp => !manager.anyOtherCacheHas addr vrp

def sendVrpUpdate (added removed : Finset Vrp) : RtrManager :=
  { manager with serverTx := manager.serverTx ++ [⟨added, removed⟩] }

def sessionConfig : Option RtrCacheConfig :=
  ((manager.sessions.lookup addr).map CacheSessionHandle.config).or (manager.allConfigs.lookup addr)

def spawnSession : RtrManager :=
  { manager with
    sessions := manager.sessions.insert config.address ⟨config, manager.nextTask⟩
    nextTask := manager.nextTask + 1 }

def lowestConfiguredPreference : UInt8 :=
  ((AssocMap.values manager.allConfigs).map RtrCacheConfig.preference).min?.getD 0

def nextPreferenceTier (current : UInt8) : Option UInt8 :=
  (((AssocMap.values manager.allConfigs).map RtrCacheConfig.preference).filter fun pref => pref > current).min?

def spawnUnlessRunning : RtrManager :=
  if AssocMap.contains manager.sessions config.address then manager else manager.spawnSession config

def spawnPreferenceTier : RtrManager :=
  ((AssocMap.values manager.allConfigs).filter fun config => config.preference = pref).foldl spawnUnlessRunning manager

def killSession (state : RtrManager × Finset Vrp) (addr : SocketAddr) : RtrManager × Finset Vrp :=
  let removed := state.1.computeRemovalDiff addr
  ({ state.1 with sessions := state.1.sessions.erase addr, perCacheVrps := state.1.perCacheVrps.erase addr }, state.2 ∪ removed)

def killLessPreferredTiers : RtrManager :=
  let addrsToKill := manager.sessions.keys.filter fun addr =>
    (manager.allConfigs.lookup addr).any fun config => config.preference > pref
  if addrsToKill.isEmpty then manager
  else
    let (manager, allRemoved) := addrsToKill.foldl killSession (manager, ∅)
    if allRemoved = ∅ then manager else manager.sendVrpUpdate ∅ allRemoved

def handleAddCache : RtrManager :=
  if AssocMap.contains manager.sessions config.address then manager
  else
    let manager := { manager with allConfigs := manager.allConfigs.insert config.address config }
    if config.preference ≤ manager.lowestConfiguredPreference then manager.spawnSession config else manager

def handleRemoveCache : RtrManager :=
  let manager := { manager with sessions := manager.sessions.erase addr, allConfigs := manager.allConfigs.erase addr }
  let removed := manager.computeRemovalDiff addr
  let manager := { manager with perCacheVrps := manager.perCacheVrps.erase addr }
  if removed = ∅ then manager else manager.sendVrpUpdate ∅ removed

def handleBatch (manager : RtrManager) (batch : VrpBatch) : RtrManager :=
  let addr := batch.cacheAddr
  let oldVrps := (manager.perCacheVrps.lookup addr).getD ∅
  let manager := { manager with perCacheVrps := manager.perCacheVrps.insert addr batch.vrps }
  let added := (batch.vrps \ oldVrps).filter fun vrp => !manager.anyOtherCacheHas addr vrp
  let removed := (oldVrps \ batch.vrps).filter fun vrp => !manager.anyOtherCacheHas addr vrp
  let manager := if added = ∅ ∧ removed = ∅ then manager else manager.sendVrpUpdate added removed
  match manager.sessionConfig addr with
  | some config => manager.killLessPreferredTiers config.preference
  | none => manager

def handleDisconnected (manager : RtrManager) (addr : SocketAddr) : RtrManager :=
  match manager.sessionConfig addr with
  | none => manager
  | some config =>
    let sameTierConnected := manager.sessions.keys.any fun otherAddr =>
      otherAddr != addr && (manager.sessionConfig otherAddr).any fun other => other.preference = config.preference
    if sameTierConnected then manager
    else
      match manager.nextPreferenceTier config.preference with
      | some nextPref => manager.spawnPreferenceTier nextPref
      | none => manager

def handleExpired : RtrManager :=
  let removed := manager.computeRemovalDiff addr
  let manager := { manager with perCacheVrps := manager.perCacheVrps.erase addr }
  if removed = ∅ then manager else manager.sendVrpUpdate ∅ removed

end

variable {manager : RtrManager} {addr : SocketAddr}

variable {next : RtrManager} {unsent : Finset Vrp}

def reported (manager : RtrManager) (addr : SocketAddr) : Finset Vrp := (manager.perCacheVrps.lookup addr).getD ∅

def VrpUpdate.apply (held : Finset Vrp) (update : VrpUpdate) : Finset Vrp := (held ∪ update.added) \ update.removed

def serverVrps (manager : RtrManager) : Finset Vrp := manager.serverTx.foldl VrpUpdate.apply ∅

def Elsewhere (manager : RtrManager) (addr : SocketAddr) (vrp : Vrp) : Prop :=
  ∃ other, other ≠ addr ∧ vrp ∈ manager.reported other

-- The server has what some cache has, apart from removals that are still to be sent.
def Exact (manager : RtrManager) (unsent : Finset Vrp) : Prop :=
  ∀ vrp, vrp ∈ manager.serverVrps \ unsent ↔ ∃ addr, vrp ∈ manager.reported addr

theorem anyOtherCacheHas_iff (manager : RtrManager) (addr : SocketAddr) (vrp : Vrp) :
    manager.anyOtherCacheHas addr vrp = true ↔ manager.Elsewhere addr vrp := by
  rw [anyOtherCacheHas, List.any_eq_true]
  constructor
  · rintro ⟨⟨other, vrps⟩, member, holds⟩
    have stored : manager.perCacheVrps.lookup other = some vrps := AList.mem_lookup_iff.mpr member
    simp only [Bool.and_eq_true, bne_iff_ne, decide_eq_true_eq] at holds
    exact ⟨other, holds.1, by rw [reported, stored]; exact holds.2⟩
  · rintro ⟨other, different, holds⟩
    rw [reported] at holds
    cases stored : manager.perCacheVrps.lookup other with
    | none =>
      rw [stored] at holds
      exact absurd holds (Finset.notMem_empty _)
    | some vrps =>
      rw [stored] at holds
      exact ⟨⟨other, vrps⟩, AList.mem_lookup_iff.mp stored, by simpa [different] using holds⟩

theorem mem_computeRemovalDiff (manager : RtrManager) (addr : SocketAddr) (vrp : Vrp) : vrp ∈ manager.computeRemovalDiff addr ↔
      vrp ∈ manager.reported addr ∧ ¬ manager.Elsewhere addr vrp := by
  rw [computeRemovalDiff, reported, ← anyOtherCacheHas_iff]
  cases manager.perCacheVrps.lookup addr with
  | none | some vrps => simp

theorem serverVrps_sendVrpUpdate (manager : RtrManager) (added removed : Finset Vrp) :
    (manager.sendVrpUpdate added removed).serverVrps = (manager.serverVrps ∪ added) \ removed := by
  rw [serverVrps, sendVrpUpdate, List.foldl_append]
  rfl

theorem reported_split (manager : RtrManager) (addr : SocketAddr) (vrp : Vrp) : (∃ other, vrp ∈ manager.reported other) ↔
    vrp ∈ manager.reported addr ∨ manager.Elsewhere addr vrp := by
  constructor
  · rintro ⟨other, holds⟩
    by_cases same : other = addr
    · exact .inl (same ▸ holds)
    · exact .inr ⟨other, same, holds⟩
  · intro found
    rcases found with here | ⟨other, -, holds⟩
    · exact ⟨addr, here⟩
    · exact ⟨other, holds⟩

structure Replaced (manager : RtrManager) (addr : SocketAddr) (vrps : Finset Vrp) (next : RtrManager) : Prop where
  sent : next.serverTx = manager.serverTx
  here : next.reported addr = vrps
  others : ∀ other, other ≠ addr → next.reported other = manager.reported other

theorem Replaced.split {vrps : Finset Vrp} (replaced : Replaced manager addr vrps next) (vrp : Vrp) :
    (∃ other, vrp ∈ next.reported other) ↔ vrp ∈ vrps ∨ manager.Elsewhere addr vrp := by
  rw [reported_split next addr, replaced.here]
  refine or_congr_right (exists_congr fun other => and_congr_right fun different => ?_)
  rw [replaced.others other different]

theorem Exact.forget (exact : Exact manager unsent)
    (replaced : Replaced manager addr ∅ next) : Exact next (unsent ∪ manager.computeRemovalDiff addr) := by
  intro vrp
  have before := exact vrp
  rw [reported_split manager addr] at before
  rw [replaced.split, serverVrps, replaced.sent, Finset.mem_sdiff, Finset.mem_union, mem_computeRemovalDiff]
  rw [Finset.mem_sdiff] at before
  tauto

theorem Exact.send (exact : Exact manager unsent) : Exact (if unsent = ∅ then manager else manager.sendVrpUpdate ∅ unsent) ∅ := by
  by_cases nothing : unsent = ∅
  · rw [if_pos nothing]
    exact nothing ▸ exact
  · intro vrp
    rw [if_neg nothing, serverVrps_sendVrpUpdate, Finset.sdiff_empty, Finset.union_empty]
    exact exact vrp

theorem Exact.batch {vrps added removed : Finset Vrp} (exact : Exact manager ∅) (replaced : Replaced manager addr vrps next)
    (comes : ∀ vrp, vrp ∈ added ↔ (vrp ∈ vrps ∧ vrp ∉ manager.reported addr) ∧ ¬ manager.Elsewhere addr vrp)
    (goes : ∀ vrp, vrp ∈ removed ↔ (vrp ∈ manager.reported addr ∧ vrp ∉ vrps) ∧ ¬ manager.Elsewhere addr vrp) :
    Exact (if added = ∅ ∧ removed = ∅ then next else next.sendVrpUpdate added removed) ∅ := by
  have both : ∀ vrp, vrp ∈ (next.serverVrps ∪ added) \ removed ↔ ∃ other, vrp ∈ next.reported other := by
    intro vrp
    have before := exact vrp
    rw [reported_split manager addr, Finset.sdiff_empty] at before
    have sent : next.serverVrps = manager.serverVrps := by rw [serverVrps, replaced.sent, serverVrps]
    rw [replaced.split, sent, Finset.mem_sdiff, Finset.mem_union, comes, goes]
    tauto
  intro vrp
  rw [Finset.sdiff_empty]
  by_cases nothing : added = ∅ ∧ removed = ∅
  · simpa [nothing.1, nothing.2] using both vrp
  · rw [if_neg nothing, serverVrps_sendVrpUpdate]
    exact both vrp

end RtrManager

-- Reports are kept for each session ever started, by the cache and the task.
abbrev Reports := AssocMap (SocketAddr × Nat) (Finset Vrp)

-- The manager has of each cache what its running session reported, and the server has all of
-- it, apart from removals that are still to be sent.
structure Tracked (manager : RtrManager) (reports : Reports) (unsent : Finset Vrp) : Prop where
  exact : manager.Exact unsent
  current : ∀ addr, manager.perCacheVrps.lookup addr =
    (manager.sessions.lookup addr).bind fun handle => reports.lookup (addr, handle.task)
  configured : ∀ addr handle, manager.sessions.lookup addr = some handle → (manager.allConfigs.lookup addr).isSome = true
  keyed : ∀ addr config, manager.allConfigs.lookup addr = some config → config.address = addr
  started : ∀ addr handle, manager.sessions.lookup addr = some handle → handle.task < manager.nextTask
  known : ∀ addr task vrps, reports.lookup (addr, task) = some vrps → task < manager.nextTask

open RtrManager AssocMap
namespace Tracked

variable {manager : RtrManager} {reports : Reports} {unsent : Finset Vrp} {addr : SocketAddr}

section

variable (tracked : Tracked manager reports unsent)

include tracked

variable (config : RtrCacheConfig)

theorem spawnSession (idle : manager.sessions.lookup config.address = none)
    (configured : (manager.allConfigs.lookup config.address).isSome = true) :
    Tracked (manager.spawnSession config) reports unsent where
  exact := tracked.exact
  current addr := by
    have before := tracked.current addr
    simp only [RtrManager.spawnSession, lookup_insert_if]
    by_cases here : addr = config.address
    · subst here
      rw [idle] at before
      rw [if_pos rfl, before, Option.bind_some]
      cases stored : reports.lookup (config.address, manager.nextTask) with
      | none => rfl
      | some vrps => exact absurd (tracked.known _ _ _ stored) (Nat.lt_irrefl _)
    · rw [if_neg here, before]
  configured addr handle running := by
    simp only [RtrManager.spawnSession, lookup_insert_if] at running ⊢
    by_cases here : addr = config.address
    · rw [here]
      exact configured
    · rw [if_neg here] at running
      exact tracked.configured addr handle running
  keyed := tracked.keyed
  started addr handle running := by
    simp only [RtrManager.spawnSession, lookup_insert_if] at running ⊢
    by_cases here : addr = config.address
    · rw [if_pos here] at running
      cases running
      exact Nat.lt_succ_self _
    · rw [if_neg here] at running
      exact Nat.lt_succ_of_lt (tracked.started addr handle running)
  known addr task vrps stored := Nat.lt_succ_of_lt (tracked.known addr task vrps stored)

theorem spawnUnlessRunning (configured : (manager.allConfigs.lookup config.address).isSome = true) :
    Tracked (manager.spawnUnlessRunning config) reports unsent := by
  rw [RtrManager.spawnUnlessRunning]
  split
  · exact tracked
  · rename_i idle
    exact tracked.spawnSession config (by simpa [contains] using idle) configured

theorem spawnAll (configs : List RtrCacheConfig)
    (configured : ∀ config ∈ configs, (manager.allConfigs.lookup config.address).isSome = true) :
    Tracked (configs.foldl RtrManager.spawnUnlessRunning manager) reports unsent := by
  induction configs generalizing manager with
  | nil => exact tracked
  | cons config configs ih =>
    have same : (manager.spawnUnlessRunning config).allConfigs = manager.allConfigs := by
      rw [RtrManager.spawnUnlessRunning]
      split <;> rfl
    refine ih (tracked.spawnUnlessRunning config (configured config List.mem_cons_self)) fun other member => ?_
    rw [same]
    exact configured other (List.mem_cons_of_mem _ member)

theorem spawnPreferenceTier (pref : UInt8) : Tracked (manager.spawnPreferenceTier pref) reports unsent := by
  refine tracked.spawnAll _ fun config member => ?_
  obtain ⟨addr, stored⟩ := (mem_values_iff manager.allConfigs config).mp (List.mem_filter.mp member).1
  rw [tracked.keyed addr config stored, stored]
  rfl

theorem handleAddCache : Tracked (manager.handleAddCache config) reports unsent := by
  rw [RtrManager.handleAddCache]
  split
  · exact tracked
  · rename_i idle
    have added : Tracked { manager with allConfigs := manager.allConfigs.insert config.address config } reports unsent := by
      refine ⟨tracked.exact, tracked.current, fun addr handle running => ?_, fun addr other stored => ?_, tracked.started, tracked.known⟩
      · rw [lookup_insert_if]
        split
        · rfl
        · exact tracked.configured addr handle running
      · rw [lookup_insert_if] at stored
        split at stored
        · rename_i here
          rw [here, ← Option.some.inj stored]
        · exact tracked.keyed addr other stored
    dsimp only
    split
    · refine added.spawnSession config (by simpa [contains] using idle) ?_
      rw [lookup_insert_if, if_pos rfl]
      rfl
    · exact added

theorem handleDisconnected (addr : SocketAddr) : Tracked (manager.handleDisconnected addr) reports unsent := by
  unfold RtrManager.handleDisconnected
  dsimp only
  split
  · exact tracked
  · split
    · exact tracked
    · split
      · exact tracked.spawnPreferenceTier _
      · exact tracked

theorem withTx {tx : List VrpUpdate} {left : Finset Vrp} (exact : RtrManager.Exact { manager with serverTx := tx } left) :
    Tracked { manager with serverTx := tx } reports left :=
  ⟨exact, tracked.current, tracked.configured, tracked.keyed, tracked.started, tracked.known⟩

theorem send : Tracked (if unsent = ∅ then manager else manager.sendVrpUpdate ∅ unsent) reports ∅ := by
  have exact := tracked.exact.send
  split
  · rename_i nothing
    exact nothing ▸ tracked
  · rename_i something
    rw [if_neg something] at exact
    exact tracked.withTx exact

theorem killSession (addr : SocketAddr) :
    Tracked (RtrManager.killSession (manager, unsent) addr).1 reports (RtrManager.killSession (manager, unsent) addr).2 where
  exact := by
    refine tracked.exact.forget ⟨rfl, ?_, fun other different => ?_⟩
    · simp [reported, RtrManager.killSession]
    · simp [reported, RtrManager.killSession, different]
  current other := by
    have before := tracked.current other
    simp only [RtrManager.killSession, lookup_erase_if]
    by_cases here : other = addr
    · rw [if_pos here, if_pos here]
      rfl
    · rw [if_neg here, if_neg here, before]
  configured other handle running := by
    simp only [RtrManager.killSession, lookup_erase_if] at running ⊢
    split at running
    · cases running
    · exact tracked.configured other handle running
  keyed := tracked.keyed
  started other handle running := by
    simp only [RtrManager.killSession, lookup_erase_if] at running ⊢
    split at running
    · cases running
    · exact tracked.started other handle running
  known := tracked.known

end

theorem killLessPreferredTiers (tracked : Tracked manager reports ∅) (pref : UInt8) :
    Tracked (manager.killLessPreferredTiers pref) reports ∅ := by
  have killed : ∀ addrs : List SocketAddr, Tracked (addrs.foldl RtrManager.killSession (manager, ∅)).1 reports
      (addrs.foldl RtrManager.killSession (manager, ∅)).2 := fun addrs =>
    List.foldlRecOn (motive := fun state : RtrManager × Finset Vrp => Tracked state.1 reports state.2) addrs _ tracked
      fun _ held addr _ => held.killSession addr
  unfold RtrManager.killLessPreferredTiers
  dsimp only
  split
  · exact tracked
  · exact (killed _).send

theorem forgetConfig (tracked : Tracked manager reports unsent) (stopped : manager.sessions.lookup addr = none) :
    Tracked { manager with allConfigs := manager.allConfigs.erase addr } reports unsent := by
  refine ⟨tracked.exact, tracked.current, fun other handle running => ?_, fun other config stored => ?_, tracked.started, tracked.known⟩
  · rw [lookup_erase_if]
    split
    · rename_i here
      rw [here, stopped] at running
      cases running
    · exact tracked.configured other handle running
  · rw [lookup_erase_if] at stored
    split at stored
    · cases stored
    · exact tracked.keyed other config stored

section

variable (tracked : Tracked manager reports ∅)

include tracked

theorem handleRemoveCache (addr : SocketAddr) :
    Tracked (manager.handleRemoveCache addr) reports ∅ := by
  have stopped : (RtrManager.killSession (manager, ∅) addr).1.sessions.lookup addr = none := by
    simp [RtrManager.killSession]
  have removed := ((tracked.killSession addr).forgetConfig stopped).send
  simp only [RtrManager.killSession, Finset.empty_union] at removed
  exact removed

theorem handleExpired (sender : Nat) (addr : SocketAddr)
    (timely : ∀ handle, manager.sessions.lookup addr = some handle →
      handle.task = sender ∨ reports.lookup (addr, handle.task) = none) :
    Tracked (manager.handleExpired addr) (reports.erase (addr, sender)) ∅ := by
  have forgotten : Tracked { manager with perCacheVrps := manager.perCacheVrps.erase addr } (reports.erase (addr, sender))
      (∅ ∪ manager.computeRemovalDiff addr) := by
    refine ⟨?_, fun other => ?_, tracked.configured, tracked.keyed, tracked.started, fun other task vrps stored => ?_⟩
    · refine tracked.exact.forget ⟨rfl, ?_, fun other different => ?_⟩
      · simp [reported]
      · simp [reported, different]
    · have before := tracked.current other
      simp only [lookup_erase_if, Prod.mk.injEq]
      by_cases here : other = addr
      · subst here
        rw [if_pos rfl]
        cases running : manager.sessions.lookup other with
        | none => rfl
        | some handle =>
          rw [Option.bind_some]
          rcases timely handle running with same | nothing
          · rw [if_pos ⟨rfl, same⟩]
          · rw [nothing, ite_self]
      · simp [before, here]
    · rw [lookup_erase_if] at stored
      split at stored
      · cases stored
      · exact tracked.known other task vrps stored
  have sent := forgotten.send
  simp only [Finset.empty_union] at sent
  exact sent

theorem handleBatch (batch : VrpBatch) (handle : CacheSessionHandle)
    (running : manager.sessions.lookup batch.cacheAddr = some handle) :
    Tracked (manager.handleBatch batch) (reports.insert (batch.cacheAddr, handle.task) batch.vrps) ∅ := by
  let next := { manager with perCacheVrps := manager.perCacheVrps.insert batch.cacheAddr batch.vrps }
  have replaced : RtrManager.Replaced manager batch.cacheAddr batch.vrps next := by
    refine ⟨rfl, ?_, fun other different => ?_⟩
    · simp [reported, next]
    · simp [reported, next, different]
  have elsewhere : ∀ vrp, next.anyOtherCacheHas batch.cacheAddr vrp = true ↔ manager.Elsewhere batch.cacheAddr vrp := by
    intro vrp
    rw [anyOtherCacheHas_iff]
    refine exists_congr fun other => and_congr_right fun different => ?_
    rw [replaced.others other different]
  let added := (batch.vrps \ manager.reported batch.cacheAddr).filter fun vrp => !next.anyOtherCacheHas batch.cacheAddr vrp
  let removed := (manager.reported batch.cacheAddr \ batch.vrps).filter fun vrp => !next.anyOtherCacheHas batch.cacheAddr vrp
  have exact : RtrManager.Exact (if added = ∅ ∧ removed = ∅ then next else next.sendVrpUpdate added removed) ∅ := by
    refine tracked.exact.batch replaced (fun vrp => ?_) fun vrp => ?_
    · rw [Finset.mem_filter, Finset.mem_sdiff, Bool.not_eq_true', ← Bool.not_eq_true, elsewhere]
    · rw [Finset.mem_filter, Finset.mem_sdiff, Bool.not_eq_true', ← Bool.not_eq_true, elsewhere]
  have stored : Tracked (if added = ∅ ∧ removed = ∅ then next else next.sendVrpUpdate added removed)
      (reports.insert (batch.cacheAddr, handle.task) batch.vrps) ∅ := by
    have held : ∀ tx, RtrManager.Exact { next with serverTx := tx } ∅ →
        Tracked { next with serverTx := tx } (reports.insert (batch.cacheAddr, handle.task) batch.vrps) ∅ := by
      intro tx sent
      refine ⟨sent, fun other => ?_, tracked.configured, tracked.keyed, tracked.started, fun other task vrps reported => ?_⟩
      · have before := tracked.current other
        simp only [next, lookup_insert_if, Prod.mk.injEq]
        by_cases here : other = batch.cacheAddr
        · subst here
          rw [if_pos rfl, running, Option.bind_some, if_pos ⟨rfl, rfl⟩]
        · simp [before, here]
      · rw [lookup_insert_if] at reported
        split at reported
        · rename_i here
          rw [(Prod.mk.inj here).2]
          exact tracked.started _ handle running
        · exact tracked.known other task vrps reported
    by_cases nothing : added = ∅ ∧ removed = ∅
    · rw [if_pos nothing] at exact ⊢
      exact held _ exact
    · rw [if_neg nothing] at exact ⊢
      exact held _ exact
  unfold RtrManager.handleBatch
  dsimp only
  split
  · exact stored.killLessPreferredTiers _
  · exact stored

end

end Tracked

inductive ManagerEvent where
  | addCache (config : RtrCacheConfig)
  | removeCache (addr : SocketAddr)
  | batch (sender : Nat) (batch : VrpBatch)
  | disconnected (sender : Nat) (addr : SocketAddr)
  | expired (sender : Nat) (addr : SocketAddr)

structure Managed where
  manager : RtrManager
  reports : Reports

namespace Managed

def new : Managed := ⟨.new, ∅⟩

def step (state : Managed) : ManagerEvent → Managed
  | .addCache config => { state with manager := state.manager.handleAddCache config }
  | .removeCache addr => { state with manager := state.manager.handleRemoveCache addr }
  | .batch sender batch => ⟨state.manager.handleBatch batch, state.reports.insert (batch.cacheAddr, sender) batch.vrps⟩
  | .disconnected _ addr => { state with manager := state.manager.handleDisconnected addr }
  | .expired sender addr => ⟨state.manager.handleExpired addr, state.reports.erase (addr, sender)⟩

-- What the running session of a configured cache reported last and has not let expire.
def Current (state : Managed) (vrp : Vrp) : Prop :=
  ∃ addr handle vrps, (state.manager.allConfigs.lookup addr).isSome = true ∧ state.manager.sessions.lookup addr = some handle ∧
    state.reports.lookup (addr, handle.task) = some vrps ∧ vrp ∈ vrps

-- A batch is of the session that runs now, and so is an expiry unless that session has nothing to lose.
def Timely (state : Managed) : ManagerEvent → Prop
  | .batch sender batch => (state.manager.sessions.lookup batch.cacheAddr).map CacheSessionHandle.task = some sender
  | .expired sender addr => ∀ handle, state.manager.sessions.lookup addr = some handle →
      handle.task = sender ∨ state.reports.lookup (addr, handle.task) = none
  | _ => True

theorem tracked_step {state : Managed} {event : ManagerEvent} (tracked : Tracked state.manager state.reports ∅)
    (timely : state.Timely event) : Tracked (state.step event).manager (state.step event).reports ∅ := by
  cases event with
  | addCache config => exact tracked.handleAddCache config
  | removeCache addr => exact tracked.handleRemoveCache addr
  | batch sender batch =>
    obtain ⟨handle, running, rfl⟩ := Option.map_eq_some_iff.mp timely
    exact tracked.handleBatch batch handle running
  | disconnected sender addr => exact tracked.handleDisconnected addr
  | expired sender addr => exact tracked.handleExpired sender addr timely

theorem tracked_new : Tracked new.manager new.reports ∅ := by
  refine ⟨fun vrp => ?_, fun _ => rfl, fun _ _ running => ?_, fun _ _ stored => ?_, fun _ _ running => ?_, fun _ _ _ stored => ?_⟩
  · simp [new, RtrManager.new, serverVrps, reported]
  · cases running
  · cases stored
  · cases running
  · cases stored

theorem Tracked.server_iff {state : Managed} (tracked : Tracked state.manager state.reports ∅) (vrp : Vrp) :
    vrp ∈ state.manager.serverVrps ↔ state.Current vrp := by
  have exact := tracked.exact vrp
  rw [Finset.sdiff_empty] at exact
  rw [exact]
  constructor
  · rintro ⟨addr, holds⟩
    rw [reported, tracked.current addr] at holds
    cases running : state.manager.sessions.lookup addr with
    | none =>
      rw [running] at holds
      exact absurd holds (Finset.notMem_empty _)
    | some handle =>
      rw [running, Option.bind_some] at holds
      cases stored : state.reports.lookup (addr, handle.task) with
      | none =>
        rw [stored] at holds
        exact absurd holds (Finset.notMem_empty _)
      | some vrps =>
        rw [stored] at holds
        exact ⟨addr, handle, vrps, tracked.configured addr handle running, running, stored, holds⟩
  · rintro ⟨addr, handle, vrps, -, running, stored, holds⟩
    refine ⟨addr, ?_⟩
    rw [reported, tracked.current addr, running, Option.bind_some, stored]
    exact holds

theorem server_matches_in_timely_runs (state : Managed) (run : Reaches step Timely new state) (vrp : Vrp) :
    vrp ∈ state.manager.serverVrps ↔ state.Current vrp := by
  have tracked := run.invariant (fun state => Tracked state.manager state.reports ∅) tracked_new fun state event held timely =>
    tracked_step held timely
  exact Tracked.server_iff tracked vrp

section

def exampleCache : RtrCacheConfig := ⟨⟨.v4 0xC0000201#32, 323⟩, 1, .tcp, none, none, none⟩

def exampleVrp : Vrp := ⟨.v4 ⟨0x0A000000#32, 8⟩, 24, 65001⟩

theorem server_matches_after_batch :
    Current ([ManagerEvent.addCache exampleCache, .batch 0 ⟨exampleCache.address, 7, 1, { exampleVrp }⟩,
      .disconnected 0 exampleCache.address].foldl step new) exampleVrp := by
  refine (server_matches_in_timely_runs _ (.of_permits _ _ ?_) exampleVrp).mp (by decide)
  exact ⟨trivial, by unfold Timely; decide, trivial, trivial⟩

def lateBatch : Managed :=
  [ManagerEvent.addCache exampleCache, .removeCache exampleCache.address,
    .batch 0 ⟨exampleCache.address, 7, 1, { exampleVrp }⟩].foldl step new

-- The expiry of the first session takes away what the second has reported.
def lateExpiry : Managed :=
  [ManagerEvent.addCache exampleCache, .removeCache exampleCache.address, .addCache exampleCache,
    .batch 1 ⟨exampleCache.address, 7, 1, { exampleVrp }⟩, .expired 0 exampleCache.address].foldl step new

theorem late_events_mislead_server : (exampleVrp ∈ lateBatch.manager.serverVrps ∧ ¬ lateBatch.Current exampleVrp) ∧
      exampleVrp ∉ lateExpiry.manager.serverVrps ∧ lateExpiry.Current exampleVrp := by
  refine ⟨⟨by decide, fun current => ?_⟩, by decide, ?_⟩
  · obtain ⟨addr, handle, vrps, -, running, -⟩ := current
    cases running
  · exact ⟨exampleCache.address, ⟨exampleCache, 1⟩, { exampleVrp }, by decide, by decide, by decide, by decide⟩

end

end Managed

end Bgpgg.Rpki
