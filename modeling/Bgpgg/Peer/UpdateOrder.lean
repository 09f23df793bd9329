import Bgpgg.Peer.TaskFrame

namespace Bgpgg.Peer

open Net Lib Server List

def Effect.serial : Effect → Option Nat
  | .update _ _ stamp _ => some stamp.serial
  | .routeRefresh _ _ stamp _ _ => some stamp.serial
  | .endOfRib _ _ stamp _ => some stamp.serial
  | .dial | .action _ _ | .peerUpdate _ => none

namespace PeerTask

section

variable (task : PeerTask)

def written : List Nat := task.log.filterMap Effect.serial

def parked : List Nat := task.pendingUpdates.map fun update => update.1.serial

def ahead : List Nat := (task.queue.map fun entry => entry.1.serial) ++ [task.queued]

-- Every operation moves along this list from right to left.
def trail : List Nat := task.written ++ task.parked ++ task.ahead

def WritesInOrder : Prop := task.written.Pairwise (· ≤ ·)

def writesAtOnce (elapsed : Bool) : PeerOp → Bool
  | .sendUpdate _ => task.canSend elapsed
  | .sendRouteRefresh afiSafi subtype => task.control.routeRefresh && task.control.capabilities.multiprotocol.contains afiSafi &&
      !((subtype == .boRR || subtype == .eoRR) && !task.eorSentFor afiSafi)
  | .localRibSent afiSafi => task.control.grState.any fun state =>
      (state.afiSafis.all fun other => (afiSafi :: state.locRibReceived).contains other) &&
        state.afiSafis.any fun other => !state.eorSent.contains other
  | _ => false

-- Nothing is written for an operation of the server while an earlier UPDATE is parked.
def parkedFirst (input : Input) : Bool := match input.event with
  | .takeOp elapsed =>
    task.control.fsm.state != .established || task.pendingUpdates.isEmpty || input.writes == 0 ||
      !(task.queue.head?.any fun entry => task.writesAtOnce elapsed entry.2)
  | _ => true

theorem trail_performs (act : Control → Control.Outcome) : (task.performs act).2.trail = task.trail := by
  have none : ∀ session (actions : List Action), (actions.map (Effect.action session)).filterMap Effect.serial = [] := by
    intro session actions
    rw [filterMap_map]
    exact filterMap_eq_nil_iff.mpr fun _ _ => rfl
  simp [trail, written, parked, ahead, performs, none]

theorem trail_perform (act : Control → Control) : (task.perform act).trail = task.trail := trail_performs task _

theorem trail_flushPendingRoutes : task.flushPendingRoutes.trail = task.trail := by
  simp [trail, written, parked, ahead, flushPendingRoutes, Effect.serial]

theorem Moves.trail {task after : PeerTask} (moves : task.Moves after) : after.trail = task.trail := by
  induction moves with
  | trans first second early late => exact late.trans early
  | performs act calm => exact trail_performs _ act
  | flush live => exact trail_flushPendingRoutes _
  | dials => simp [PeerTask.trail, written, parked, ahead, Effect.serial]
  | _ => rfl

theorem trail_handleRouteRefresh (afiSafi : AfiSafi) : (task.handleRouteRefresh afiSafi .eoRR).trail = task.trail := by
  unfold handleRouteRefresh
  split
  · rfl
  · dsimp only
    split
    · rfl
    · exact (trail_perform _ _).trans (trail_flushPendingRoutes task)

def OnTrail : Prop := task.trail.Pairwise (· ≤ ·)

end

section

variable {task : PeerTask} {stamp : Stamp}

theorem OnTrail.of_eq {after : PeerTask} (held : task.OnTrail) (same : after.trail = task.trail) : after.OnTrail := by
  rw [OnTrail, same]
  exact held

theorem OnTrail.stop (held : task.OnTrail) : task.stop.OnTrail := held

theorem OnTrail.moves {after : PeerTask} (held : task.OnTrail) (moves : task.Moves after) : after.OnTrail := held.of_eq moves.trail

def Room (task : PeerTask) (stamp : Stamp) : Prop := (task.written ++ task.parked ++ stamp.serial :: task.ahead).Pairwise (· ≤ ·)

theorem Room.onTrail (room : task.Room stamp) : task.OnTrail := room.sublist ((List.Sublist.refl _).append (sublist_cons_self _ _))

theorem Room.park (room : task.Room stamp) (bytes : List UInt8) :
    { task with pendingUpdates := task.pendingUpdates ++ [(stamp, bytes)] }.OnTrail := by
  simpa [OnTrail, Room, trail, written, parked, ahead] using room

theorem write_cases (message : Nat → Effect) : (∃ conn left, task.write message =
      (true, { task with control.writesLeft := left, log := task.log ++ [message conn] })) ∨
    task.write message = (false, task) := by
  unfold write
  split
  · exact .inl ⟨_, _, rfl⟩
  · exact .inr rfl

-- No UPDATE is parked, or no write succeeds any more.
def Clear (task : PeerTask) : Prop := task.pendingUpdates = [] ∨ task.control.writesLeft = 0

theorem Room.write (room : task.Room stamp) (clear : task.Clear) (message : Nat → Effect)
    (stamped : ∀ conn, (message conn).serial = some stamp.serial) :
    (task.write message).2.Room stamp ∧ (task.write message).2.Clear := by
  rcases @write_cases task message with ⟨conn, left, wrote⟩ | failed
  · have empty : task.pendingUpdates = [] := by
      refine clear.resolve_right fun spent => ?_
      simp [PeerTask.write, spent] at wrote
    rw [wrote]
    have nothing : task.parked = [] := by rw [parked, empty, map_nil]
    rw [Room, nothing, append_nil] at room
    refine ⟨?_, .inl empty⟩
    simp only [Room, written, parked, filterMap_append, filterMap_cons, stamped, filterMap_nil,
      empty, map_nil, append_assoc, singleton_append]
    rw [pairwise_append, pairwise_cons] at room ⊢
    obtain ⟨before, ⟨first, rest⟩, across⟩ := room
    refine ⟨before, ⟨?_, pairwise_cons.mpr ⟨first, rest⟩⟩, ?_⟩
    · intro serial later
      rcases mem_cons.mp later with rfl | later
      · exact Nat.le_refl _
      · exact first serial later
    · intro early present serial later
      rcases mem_cons.mp later with rfl | later
      · exact across early present _ mem_cons_self
      · exact across early present serial later
  · rw [failed]
    exact ⟨room, clear⟩

theorem Room.modifyGr (room : task.Room stamp) (change : GracefulRestartState → GracefulRestartState) :
    (task.modifyGr change).Room stamp := room

theorem Room.sendEorMarkers (afiSafis : List AfiSafi) :
    ∀ {task : PeerTask}, task.Room stamp → task.Clear → (task.sendEorMarkers stamp afiSafis).OnTrail := by
  induction afiSafis with
  | nil => exact fun room _ => room.onTrail
  | cons afiSafi rest ih =>
    intro task room clear
    unfold PeerTask.sendEorMarkers
    dsimp only
    have wrote := room.write clear (fun conn => .endOfRib task.control.session conn stamp afiSafi) fun _ => rfl
    split
    · exact ih room clear
    · split
      · exact ih (wrote.1.modifyGr _) wrote.2
      · exact wrote.1.onTrail

section

theorem sendEorMarkers_sent (afiSafis : List AfiSafi) (sent : ∀ afiSafi ∈ afiSafis,
      ((task.control.grState.map GracefulRestartState.eorSent).any fun sent => sent.contains afiSafi) = true) :
    task.sendEorMarkers stamp afiSafis = task := by
  induction afiSafis with
  | nil => rfl
  | cons afiSafi rest ih =>
    rw [PeerTask.sendEorMarkers, if_pos (sent afiSafi mem_cons_self)]
    exact ih fun other member => sent other (mem_cons_of_mem _ member)

variable {elapsed : Bool} (room : task.Room stamp)

include room

theorem Room.sendUpdateNow (clear : task.Clear) (bytes : List UInt8) : (task.sendUpdateNow (stamp, bytes)).OnTrail := by
  have wrote := room.write clear (fun conn => .update task.control.session conn stamp bytes) fun _ => rfl
  unfold PeerTask.sendUpdateNow sendUpdate
  dsimp only
  split
  · exact wrote.1.onTrail
  · exact wrote.1.onTrail.of_eq (trail_performs _ _)

theorem Room.sendRouteRefresh (afiSafi : AfiSafi) (subtype : RouteRefreshSubtype)
    (first : task.writesAtOnce elapsed (.sendRouteRefresh afiSafi subtype) = true → task.Clear) :
    (task.sendRouteRefresh stamp afiSafi subtype).OnTrail := by
  unfold PeerTask.sendRouteRefresh
  split
  · exact room.onTrail
  · rename_i offered
    split
    · exact room.onTrail
    · rename_i marked
      refine (room.write (first ?_) _ fun _ => rfl).1.onTrail
      simp only [Bool.or_eq_true, Bool.not_eq_true', not_or, Bool.not_eq_false] at offered
      rw [writesAtOnce, offered.1, offered.2, (Bool.not_eq_true _).mp marked]
      rfl

theorem Room.localRibSent (afiSafi : AfiSafi) (first : task.writesAtOnce elapsed (.localRibSent afiSafi) = true → task.Clear) :
    (task.localRibSent stamp afiSafi).OnTrail := by
  unfold PeerTask.localRibSent
  dsimp only
  cases restart : task.control.grState with
  | none =>
    simp only [PeerTask.modifyGr, restart, Option.map_none]
    exact room.onTrail
  | some state =>
    simp only [PeerTask.modifyGr, restart, Option.map_some]
    split
    · rename_i all
      by_cases sent : ∀ other ∈ state.afiSafis, state.eorSent.contains other = true
      · rw [sendEorMarkers_sent _ sent]
        exact room.onTrail
      · push Not at sent
        obtain ⟨other, member, unsent⟩ := sent
        refine Room.sendEorMarkers _ room (first ?_)
        simp only [writesAtOnce, restart, Option.any_some, all, Bool.true_and, any_eq_true]
        exact ⟨other, member, by rw [(Bool.not_eq_true _).mp unsent]; rfl⟩
    · exact room.onTrail

end

theorem Room.establishedOp {elapsed : Bool} {op : PeerOp} (room : task.Room stamp) (served : PeerOp.isServed op = true)
    (first : task.writesAtOnce elapsed op = true → task.Clear) :
    (establishedOp elapsed task (some (stamp, op))).OnTrail := by
  unfold PeerTask.establishedOp
  dsimp only
  split
  · split
    · rename_i able
      exact room.sendUpdateNow (first able) _
    · exact room.park _
  · exact room.sendRouteRefresh _ _ first
  · exact room.localRibSent _ first
  · rename_i noUpdate noRefresh noRib
    cases op with
    | sendUpdate bytes => exact absurd rfl (noUpdate bytes)
    | sendRouteRefresh afiSafi subtype => exact absurd rfl (noRefresh afiSafi subtype)
    | localRibSent afiSafi => exact absurd rfl (noRib afiSafi)
    | _ => cases served

theorem onTrail_sendPending (updates : List (Stamp × List UInt8)) : ∀ {task : PeerTask}, task.pendingUpdates = [] →
      (task.written ++ (updates.map fun update => update.1.serial) ++ task.ahead).Pairwise (· ≤ ·) →
      (task.sendPending updates).OnTrail := by
  induction updates with
  | nil =>
    intro task empty sorted
    unfold sendPending
    simpa [OnTrail, trail, written, parked, ahead, empty] using sorted
  | cons update rest ih =>
    intro task empty sorted
    have failing : task.OnTrail := by
      rw [OnTrail, trail, parked, empty]
      exact sorted.sublist (((List.Sublist.refl _).append (nil_sublist _)).append (List.Sublist.refl _))
    unfold sendPending sendUpdate
    rcases @write_cases task (fun conn => Effect.update task.control.session conn update.1 update.2) with ⟨conn, left, wrote⟩ | failed
    · rw [wrote]
      apply ih
      · exact empty
      · simpa [written, ahead, Effect.serial] using sorted
    · rw [failed]
      exact failing.of_eq (trail_performs _ _)

theorem OnTrail.took {op : PeerOp} {rest : List (Stamp × PeerOp)} (held : task.OnTrail)
    (queue : task.queue = (stamp, op) :: rest) : (task.took op rest).Room stamp := by
  simpa [OnTrail, Room, PeerTask.took, trail, written, parked, ahead, queue] using held

end

section

variable {task : PeerTask} {event : Event}

theorem OnTrail.acted {after : PeerTask} (held : task.OnTrail) (acts : task.Acts event after)
    (first : ∀ elapsed, event = .takeOp elapsed → task.control.fsm.state = .established → ∀ entry ∈ task.queue.head?,
      task.writesAtOnce elapsed entry.2 = true → task.Clear) : after.OnTrail := by
  cases acts with
  | moves waits moves => exact held.moves moves
  | ends idle takes empty closed => exact held
  | takes takes queue stays moves => exact (held.took queue).onTrail.moves moves
  | leaves idle takes queue => exact (held.took queue).onTrail
  | ceases connected waiting takes queue => exact ((held.took queue).onTrail.of_eq (trail_perform _ _)).stop
  | serves live same queue served =>
    apply (held.took queue).establishedOp served
    intro able
    have head : task.queue.head? = some _ := congrArg head? queue
    exact first _ same live.1 _ head able
  | begins confirmed same => exact held.of_eq (trail_perform _ _)
  | refreshes phase same => exact held.of_eq (trail_handleRouteRefresh _ _)
  | sends live same paced => exact onTrail_sendPending _ rfl held

theorem OnTrail.step {input : Input} (held : task.OnTrail) (ordered : task.parkedFirst input = true) : (task.step input).OnTrail := by
  unfold PeerTask.step
  split
  · split
    · exact held
    · have newest : ∀ serial ∈ task.trail, serial ≤ task.queued := by
        intro serial member
        rw [OnTrail, trail, ahead, ← append_assoc] at held
        rw [trail, ahead, ← append_assoc, mem_append, mem_singleton] at member
        rcases member with early | rfl
        · exact (pairwise_append.mp held).2.2 serial early _ (mem_singleton_self _)
        · exact Nat.le_refl _
      have longer : (task.trail ++ [task.queued + 1]).Pairwise (· ≤ ·) :=
        pairwise_append.mpr ⟨held, pairwise_singleton _ _, fun serial member later last => by
          rw [mem_singleton.mp last]
          exact Nat.le_succ_of_le (newest serial member)⟩
      simpa [OnTrail, trail, written, parked, ahead] using longer
  · exact held
  · exact held.moves moves_fireGrTimer
  · split
    · apply @OnTrail.acted { task with control.writesLeft := input.writes } _ _ held (PeerTask.acts _ _)
      intro elapsed same established entry head able
      simp only [parkedFirst, same, Bool.or_eq_true, bne_iff_ne, List.isEmpty_iff, beq_iff_eq, Bool.not_eq_true',
        Option.any_eq_false] at ordered
      rcases ordered with ((elsewhere | empty) | spent) | waits
      · exact absurd established elsewhere
      · exact .inl empty
      · exact .inr spent
      · exact absurd able (Bool.not_eq_true _ ▸ waits entry head)
    · exact held

theorem onTrail_new (config : TaskConfig) (speaker : Speaker) : (new config speaker).OnTrail := pairwise_singleton _ _

-- Whatever the server queues and whenever the timers fire, the messages for its operations
-- are written in the order of the queue.
theorem writes_in_order {config : TaskConfig} {speaker : Speaker}
    (run : Reaches step (fun task input => task.parkedFirst input = true) (new config speaker) task) : task.WritesInOrder := by
  have held : task.OnTrail := run.invariant OnTrail (onTrail_new config speaker) fun _ _ held ordered => held.step ordered
  exact ((pairwise_append.mp held).1).sublist (sublist_append_left _ _)

end

def nearSpeaker : Speaker := { localConfig := ⟨65001, 0x0A000001, 180, none⟩ }
def farSpeaker : Speaker := { localConfig := ⟨65002, 0x0A000002, 180, none⟩ }

def spaced : TaskConfig := { minRouteAdvertisementIntervalSecs := some 30 }

def orderlyInputs : List Input :=
  establish 1 farSpeaker ++ [{ event := .queue 1 (.sendUpdate [1]) }, { event := .queue 1 (.sendUpdate [2]) },
    { event := .queue 1 (.sendRouteRefresh ⟨.ipv4, .unicast⟩ .boRR) }, { event := .takeOp false },
    { event := .takeOp false }, { event := .mrai }, { event := .takeOp false }]

theorem writes_in_order_past_the_timer : (orderlyInputs.foldl step (new spaced nearSpeaker)).written = [1, 2, 3] ∧
      (orderlyInputs.foldl step (new spaced nearSpeaker)).WritesInOrder :=
  ⟨by decide +kernel, writes_in_order (.of_permits _ orderlyInputs (by decide +kernel))⟩

-- The second UPDATE is parked. A demarcation and a third UPDATE are written before the timer
-- sends it.
def overtakingInputs : List Input :=
  establish 1 farSpeaker ++ [{ event := .queue 1 (.sendUpdate [1]) }, { event := .queue 1 (.sendUpdate [2]) },
    { event := .queue 1 (.sendRouteRefresh ⟨.ipv4, .unicast⟩ .boRR) }, { event := .queue 1 (.sendUpdate [3]) },
    { event := .takeOp false }, { event := .takeOp false }, { event := .takeOp false }, { event := .takeOp true },
    { event := .mrai }]

theorem parked_update_is_overtaken : (overtakingInputs.foldl step (new spaced nearSpeaker)).written = [1, 3, 4, 2] ∧
      ¬ ∀ config speaker task, Reaches step (fun _ _ => True) (new config speaker) task → task.WritesInOrder := by
  have order : (overtakingInputs.foldl step (new spaced nearSpeaker)).written = [1, 3, 4, 2] := by decide +kernel
  refine ⟨order, fun always => ?_⟩
  have sorted := always spaced nearSpeaker _ (.of_run _ overtakingInputs)
  rw [WritesInOrder] at sorted
  exact absurd sorted (by decide)

end PeerTask

end Bgpgg.Peer
