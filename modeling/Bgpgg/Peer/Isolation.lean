import Bgpgg.Peer.UpdateOrder

namespace Bgpgg.Peer

open Net Lib Rib Server List

def Effect.ended : Effect → Option Nat
  | .action session did => if did.isDisconnect then some session else none
  | _ => none

def Effect.parsedIn : Effect → List Nat
  | .peerUpdate routes => routes.map Prod.fst
  | _ => []

def Effect.atHome : Effect → Prop
  | .update session _ stamp _ => session ≤ stamp.session
  | _ => True

namespace PeerTask

structure Isolated (task : PeerTask) : Prop where
  updates : ∀ effect ∈ task.log, effect.atHome
  routes : task.log.Pairwise fun earlier later => ∀ session, earlier.ended = some session → session ∉ later.parsedIn

-- An established task takes only an UPDATE that was queued in its session. A session begins
-- with no UPDATE and no routes left from the one before, and a route refresh that ends before
-- Established finds no routes either.
def startsAfresh (task : PeerTask) (input : Input) : Bool := match input.event with
  | .takeOp _ => task.control.fsm.state != .established || task.queue.head?.all fun entry =>
        match entry.2 with
        | .sendUpdate _ => decide (task.control.session ≤ entry.1.session)
        | _ => true
  | .receive (.message .keepalive) => task.control.fsm.state != .openConfirm || (task.pendingUpdates.isEmpty && task.pendingRoutes.isEmpty)
  | .receive (.message (.routeRefresh _ .eoRR)) => task.control.fsm.state == .established || task.pendingRoutes.isEmpty
  | _ => true

-- While a session is up, all that waits belongs to it and its end has not been reported.
structure Apart (task : PeerTask) : Prop extends Isolated task where
  agrees : task.control.Agrees
  past : ∀ effect ∈ task.log, ∀ session, effect.ended = some session → session ≤ task.control.session
  ongoing : task.control.Live → ∀ effect ∈ task.log, ∀ session, effect.ended = some session → session < task.control.session
  parkedHere : task.control.Live → ∀ update ∈ task.pendingUpdates, task.control.session ≤ update.1.session
  parsedHere : task.control.Live → ∀ route ∈ task.pendingRoutes, route.1 = task.control.session

section

variable {task after : PeerTask}

variable {session : Nat} {actions : List Action} {update : Stamp × List UInt8}

theorem Isolated.append {effects : List Effect} (isolated : task.Isolated) (log : after.log = task.log ++ effects)
    (atHome : ∀ effect ∈ effects, effect.atHome) (silent : ∀ effect ∈ effects, effect.parsedIn = []) : after.Isolated := by
  refine ⟨?_, ?_⟩
  · intro effect member
    rw [log, mem_append] at member
    exact member.elim (isolated.updates effect) (atHome effect)
  · rw [log]
    have quiet : ∀ earlier, ∀ later ∈ effects, ∀ session, Effect.ended earlier = some session → session ∉ later.parsedIn := by
      intro earlier later member session _
      rw [silent later member]
      exact not_mem_nil
    refine pairwise_append.mpr ⟨isolated.routes, ?_, fun earlier _ later member => quiet earlier later member⟩
    exact pairwise_of_forall_mem_list fun earlier _ later member => quiet earlier later member

theorem action_atHome : ∀ effect ∈ actions.map (Effect.action session), effect.atHome := by
  intro effect member
  obtain ⟨action, _, rfl⟩ := mem_map.mp member
  trivial

theorem action_parsedIn : ∀ effect ∈ actions.map (Effect.action session), effect.parsedIn = [] := by
  intro effect member
  obtain ⟨action, _, rfl⟩ := mem_map.mp member
  rfl

theorem action_ended : ∀ effect ∈ actions.map (Effect.action session), ∀ ended, effect.ended = some ended →
      ended = session ∧ ∃ action ∈ actions, action.isDisconnect = true := by
  intro effect member ended ends
  obtain ⟨action, present, rfl⟩ := mem_map.mp member
  rw [Effect.ended] at ends
  split at ends
  · rename_i disconnect
    cases ends
    exact ⟨rfl, action, present, disconnect⟩
  · cases ends

theorem Apart.performs {act : Control → Control.Outcome} (apart : task.Apart) (calm : task.fresh.Calm (act task.fresh).2) :
    (task.performs act).2.Apart := by
  obtain ⟨added, out, quiet⟩ := calm.out
  have session : (act task.fresh).2.session = task.control.session := calm.session
  have live : (act task.fresh).2.Live → task.control.Live := calm.live apart.agrees
  refine { apart.toIsolated.append rfl action_atHome action_parsedIn with
    agrees := calm.agrees apart.agrees, past := ?_, ongoing := ?_, parkedHere := ?_, parsedHere := ?_ }
  · intro effect member ended ends
    change ended ≤ (act task.fresh).2.session
    rw [session]
    rcases mem_append.mp member with before | now
    · exact apart.past effect before ended ends
    · rw [(action_ended effect now ended ends).1, session]
  · intro up effect member ended ends
    change ended < (act task.fresh).2.session
    rw [session]
    rcases mem_append.mp member with before | now
    · exact apart.ongoing (live up) effect before ended ends
    · obtain ⟨_, action, present, disconnect⟩ := action_ended effect now ended ends
      rw [out] at present
      exact absurd ((quiet apart.agrees up action present).symm.trans disconnect) (by decide)
  · intro up update member
    change (act task.fresh).2.session ≤ update.1.session
    rw [session]
    exact apart.parkedHere (live up) update member
  · intro up route member
    change route.1 = (act task.fresh).2.session
    rw [session]
    exact apart.parsedHere (live up) route member

theorem Apart.perform {act : Control → Control} (apart : task.Apart) (calm : task.fresh.Calm (act task.fresh)) :
    (task.perform act).Apart := apart.performs calm

theorem mem_log_of_ended {log : List Effect} {effect other : Effect} (endless : effect.ended = none)
    (member : other ∈ log ++ [effect]) (ends : other.ended = some session) : other ∈ log := by
  rcases mem_append.mp member with before | now
  · exact before
  · rw [mem_singleton.mp now, endless] at ends
    cases ends

theorem Apart.log {effect : Effect} (apart : task.Apart) (atHome : effect.atHome) (silent : effect.parsedIn = [])
    (endless : effect.ended = none) : { task with log := task.log ++ [effect] }.Apart := by
  refine { apart.toIsolated.append rfl (forall_mem_singleton.mpr atHome) (forall_mem_singleton.mpr silent) with
    agrees := apart.agrees, parkedHere := apart.parkedHere, parsedHere := apart.parsedHere, past := ?_, ongoing := ?_ }
  · exact fun other member session ends => apart.past other (mem_log_of_ended endless member ends) session ends
  · exact fun up other member session ends => apart.ongoing up other (mem_log_of_ended endless member ends) session ends

theorem Apart.flush (apart : task.Apart) (ready : task.control.Live ∨ task.pendingRoutes = []) : task.flushPendingRoutes.Apart := by
  have delivered : ∀ session ∈ task.pendingRoutes.map Prod.fst, task.control.Live ∧ session = task.control.session := by
    intro session member
    obtain ⟨route, present, rfl⟩ := mem_map.mp member
    rcases ready with live | empty
    · exact ⟨live, apart.parsedHere live route present⟩
    · rw [empty] at present
      cases present
  refine { agrees := apart.agrees, parkedHere := apart.parkedHere, past := ?_,
           ongoing := ?_, updates := ?_, routes := ?_, parsedHere := ?_ }
  · exact forall_mem_append.mpr ⟨apart.updates, forall_mem_singleton.mpr trivial⟩
  · refine pairwise_append.mpr ⟨apart.routes, pairwise_singleton _ _, ?_⟩
    intro earlier before later now session ends parsed
    rw [mem_singleton.mp now] at parsed
    obtain ⟨live, rfl⟩ := delivered session parsed
    exact Nat.lt_irrefl _ (apart.ongoing live earlier before _ ends)
  · exact fun other member session ends => apart.past other (mem_log_of_ended rfl member ends) session ends
  · exact fun up other member session ends => apart.ongoing up other (mem_log_of_ended rfl member ends) session ends
  · exact fun _ route member => absurd member not_mem_nil

theorem Apart.accept (apart : task.Apart) (announced : List RoutePath) (withdrawn : List Withdrawal) :
    (task.acceptRoutes announced withdrawn).Apart := by
  refine { apart with parsedHere := ?_ }
  intro up route member
  rw [acceptRoutes, mem_append, mem_append, mem_map, mem_map] at member
  rcases member with (before | ⟨_, _, rfl⟩) | ⟨_, _, rfl⟩
  · exact apart.parsedHere up route before
  · rfl
  · rfl

theorem Moves.apart (moves : task.Moves after) (apart : task.Apart) : after.Apart := by
  induction moves with
  | refl => exact apart
  | trans first second early late => exact late (early apart)
  | performs act calm => exact apart.performs calm
  | modifyGr change => exact { apart with }
  | flush live => exact apart.flush (.inl live)
  | accept live announced withdrawn => exact apart.accept announced withdrawn
  | dials => exact { @Apart.log _ .dial apart trivial rfl rfl with }
  | undials => exact { apart with }

theorem Apart.write {message : Nat → Effect} (apart : task.Apart) (atHome : ∀ conn, (message conn).atHome)
    (silent : ∀ conn, (message conn).parsedIn = []) (endless : ∀ conn, (message conn).ended = none) :
    (task.write message).2.Apart ∧ (task.write message).2.control.session = task.control.session := by
  rcases @write_cases task message with ⟨conn, left, wrote⟩ | failed
  · rw [wrote]
    exact ⟨{ apart.log (atHome conn) (silent conn) (endless conn) with }, rfl⟩
  · rw [failed]
    exact ⟨apart, rfl⟩

theorem Apart.restartKeepaliveTimer (apart : task.Apart) : { task with control := task.control.restartKeepaliveTimer }.Apart ∧
      task.control.restartKeepaliveTimer.session = task.control.session := by
  unfold Control.restartKeepaliveTimer
  split
  · exact ⟨{ apart with }, rfl⟩
  · exact ⟨apart, rfl⟩

theorem Apart.sendUpdate (apart : task.Apart) (home : task.control.session ≤ update.1.session) :
    (task.sendUpdate update).2.Apart ∧ (task.sendUpdate update).2.control.session = task.control.session := by
  have wrote := @Apart.write task (fun conn => .update task.control.session conn update.1 update.2) apart (fun _ => home)
    (fun _ => rfl) fun _ => rfl
  unfold PeerTask.sendUpdate
  dsimp only
  split
  · have timed := wrote.1.restartKeepaliveTimer
    exact ⟨timed.1, timed.2.trans wrote.2⟩
  · exact wrote

theorem Apart.sendUpdateNow (apart : task.Apart) (home : task.control.session ≤ update.1.session) :
    (task.sendUpdateNow update).Apart := by
  have sent := apart.sendUpdate home
  unfold PeerTask.sendUpdateNow
  dsimp only
  split
  · exact { sent.1 with }
  · exact sent.1.perform (Control.calm_disconnect _)

theorem Apart.sendPending (updates : List (Stamp × List UInt8)) :
    ∀ {task : PeerTask}, task.Apart → (∀ update ∈ updates, task.control.session ≤ update.1.session) →
      (task.sendPending updates).Apart := by
  induction updates with
  | nil => exact fun apart _ => { apart with }
  | cons update rest ih =>
    intro task apart home
    have sent := apart.sendUpdate (home update mem_cons_self)
    unfold PeerTask.sendPending
    dsimp only
    split
    · apply ih sent.1
      intro later member
      rw [sent.2]
      exact home later (mem_cons_of_mem _ member)
    · exact sent.1.perform (Control.calm_disconnect _)

theorem Apart.modifyGr (apart : task.Apart) (change : GracefulRestartState → GracefulRestartState) :
    (task.modifyGr change).Apart := (Moves.modifyGr change).apart apart

theorem Apart.sendEorMarkers (stamp : Stamp) (afiSafis : List AfiSafi) :
    ∀ {task : PeerTask}, task.Apart → (task.sendEorMarkers stamp afiSafis).Apart := by
  induction afiSafis with
  | nil => exact fun apart => apart
  | cons afiSafi rest ih =>
    intro task apart
    have wrote := @Apart.write task (fun conn => .endOfRib task.control.session conn stamp afiSafi) apart
      (fun _ => trivial) (fun _ => rfl) fun _ => rfl
    unfold PeerTask.sendEorMarkers
    dsimp only
    split
    · exact ih apart
    · split
      · exact ih (wrote.1.modifyGr _)
      · exact wrote.1

section

variable (apart : task.Apart)

include apart

theorem Apart.localRibSent (stamp : Stamp) (afiSafi : AfiSafi) : (task.localRibSent stamp afiSafi).Apart := by
  have noted := apart.modifyGr fun state => { state with locRibReceived := afiSafi :: state.locRibReceived }
  unfold PeerTask.localRibSent
  dsimp only
  split
  · exact noted
  · split
    · exact noted.sendEorMarkers _ _
    · exact noted

theorem Apart.sendRouteRefresh (stamp : Stamp) (afiSafi : AfiSafi) (subtype : RouteRefreshSubtype) :
    (task.sendRouteRefresh stamp afiSafi subtype).Apart := by
  unfold PeerTask.sendRouteRefresh
  split
  · exact apart
  · split
    · exact apart
    · exact (@Apart.write task (fun conn => .routeRefresh task.control.session conn stamp afiSafi subtype) apart
        (fun _ => trivial) (fun _ => rfl) fun _ => rfl).1

theorem Apart.park (home : task.control.session ≤ update.1.session) :
    { task with pendingUpdates := task.pendingUpdates ++ [update] }.Apart := by
  exact { apart with parkedHere := fun up => forall_mem_append.mpr ⟨apart.parkedHere up, forall_mem_singleton.mpr home⟩ }

theorem Apart.establishedOp {elapsed : Bool} {stamp : Stamp} {op : PeerOp} (served : PeerOp.isServed op = true)
    (home : ∀ bytes, op = .sendUpdate bytes → task.control.session ≤ stamp.session) :
    (establishedOp elapsed task (some (stamp, op))).Apart := by
  cases op with
  | sendUpdate bytes =>
    unfold PeerTask.establishedOp
    dsimp only
    split
    · exact apart.sendUpdateNow (home bytes rfl)
    · exact apart.park (home bytes rfl)
  | sendRouteRefresh afiSafi subtype => exact apart.sendRouteRefresh stamp afiSafi subtype
  | localRibSent afiSafi => exact apart.localRibSent stamp afiSafi
  | _ => cases served

theorem Apart.refresh (empty : task.pendingRoutes = []) (afiSafi : AfiSafi) : (task.handleRouteRefresh afiSafi .eoRR).Apart := by
  unfold handleRouteRefresh
  split
  · exact apart
  · dsimp only
    split
    · exact apart
    · exact (moves_report rfl).apart (apart.flush (.inr empty))

theorem Apart.took (op : PeerOp) (rest : List (Stamp × PeerOp)) : (task.took op rest).Apart := { apart with }

theorem Apart.stop : task.stop.Apart := { apart with }

theorem Apart.begin (confirmed : task.control.fsm.state = .openConfirm) (unparked : task.pendingUpdates = [])
    (undelivered : task.pendingRoutes = []) :
    (task.perform fun control => (control.tryProcessEvent .bgpKeepaliveReceived).heardFromPeer).Apart := by
  obtain ⟨session, agrees, quiet⟩ := @Control.begins_session task.fresh confirmed rfl
  have earlier : ∀ effect ∈ (task.perform fun control => (control.tryProcessEvent .bgpKeepaliveReceived).heardFromPeer).log,
      ∀ ended, effect.ended = some ended → ended ≤ task.control.session := by
    intro effect member ended ends
    rcases mem_append.mp member with before | now
    · exact apart.past effect before ended ends
    · obtain ⟨_, action, present, disconnect⟩ := action_ended effect now ended ends
      exact absurd ((quiet action present).symm.trans disconnect) (by decide)
  have later : ∀ ended, ended ≤ task.control.session →
      ended < ((task.fresh.tryProcessEvent .bgpKeepaliveReceived).heardFromPeer).session := by
    intro ended before
    rw [session]
    exact Nat.lt_succ_of_le before
  refine { apart.toIsolated.append rfl action_atHome action_parsedIn with
    agrees := agrees apart.agrees, past := ?_, ongoing := ?_, parkedHere := ?_, parsedHere := ?_ }
  · exact fun effect member ended ends => Nat.le_of_lt (later ended (earlier effect member ended ends))
  · exact fun _ effect member ended ends => later ended (earlier effect member ended ends)
  · intro _ update member
    rw [show (task.perform _).pendingUpdates = [] from unparked] at member
    cases member
  · intro _ route member
    rw [show (task.perform _).pendingRoutes = [] from undelivered] at member
    cases member

theorem Apart.acted {event : Event} (acts : task.Acts event after)
    (taken : ∀ elapsed stamp bytes rest, event = .takeOp elapsed → task.control.fsm.state = .established →
      task.queue = (stamp, .sendUpdate bytes) :: rest → task.control.session ≤ stamp.session)
    (begun : event = .receive (.message .keepalive) → task.control.fsm.state = .openConfirm → task.pendingUpdates = [] ∧
      task.pendingRoutes = [])
    (refreshed : ∀ afiSafi, event = .receive (.message (.routeRefresh afiSafi .eoRR)) → task.control.fsm.state ≠ .established →
      task.pendingRoutes = []) : after.Apart := by
  cases acts with
  | moves waits moves => exact moves.apart apart
  | ends idle takes empty closed => exact apart.stop
  | takes takes queue stays moves => exact moves.apart (apart.took _ _)
  | leaves idle takes queue => exact (apart.took _ _).stop
  | ceases connected waiting takes queue => exact ((apart.took _ _).perform (Control.calm_sendNotification _)).stop
  | serves live same queue served =>
    apply (apart.took _ _).establishedOp served
    intro bytes isUpdate
    rw [isUpdate] at queue
    exact taken _ _ bytes _ same live.1 queue
  | begins confirmed same =>
    obtain ⟨unparked, undelivered⟩ := begun same confirmed
    exact apart.begin confirmed unparked undelivered
  | refreshes phase same =>
    apply apart.refresh
    apply refreshed _ same
    rcases phase with state | state <;> rw [state] <;> decide
  | sends live same paced =>
    have emptied : { task with pendingUpdates := [] }.Apart := { apart with parkedHere := fun _ _ member => by cases member }
    exact Apart.sendPending _ emptied (apart.parkedHere live)

theorem Apart.step {input : Input} (afresh : task.startsAfresh input = true) : (task.step input).Apart := by
  unfold PeerTask.step
  split
  · split
    · exact apart
    · exact { apart with }
  · exact { apart with }
  · exact moves_fireGrTimer.apart apart
  · split
    · have sameTask : { task with control.writesLeft := input.writes }.Apart := { apart with }
      apply sameTask.acted (acts _ _)
      · intro elapsed stamp bytes rest same established queue
        rw [startsAfresh, same] at afresh
        rw [established, queue] at afresh
        simpa using afresh
      · intro same confirmed
        rw [startsAfresh, same] at afresh
        rw [confirmed] at afresh
        have empty : task.pendingUpdates = [] ∧ task.pendingRoutes = [] := by simpa using afresh
        exact empty
      · intro afiSafi same unestablished
        rw [startsAfresh, same] at afresh
        have empty : task.pendingRoutes = [] := by simpa [unestablished] using afresh
        exact empty
    · exact apart

end

theorem apart_new (config : TaskConfig) (speaker : Speaker) : (new config speaker).Apart where
  updates := fun _ member => absurd member not_mem_nil
  routes := List.Pairwise.nil
  agrees := rfl
  past := fun _ member => absurd member not_mem_nil
  ongoing := fun _ _ member => absurd member not_mem_nil
  parkedHere := fun _ _ member => absurd member not_mem_nil
  parsedHere := fun _ _ member => absurd member not_mem_nil

-- Over any number of sessions, nothing of one reaches the peer or the server in a later one.
theorem sessions_isolated {config : TaskConfig} {speaker : Speaker}
    (run : Reaches step (fun task input => task.startsAfresh input = true) (new config speaker) task) : task.Isolated := by
  have apart : task.Apart := run.invariant Apart (apart_new config speaker) fun _ _ apart afresh => apart.step afresh
  exact apart.toIsolated

end

def reconnect (conn : Nat) (other : Speaker) : List Input :=
  [{ event := .receive .closed }, { event := .proceed true }, { event := .idleHold }, { event := .proceed true },
    { event := .dialed (some conn) }, { event := .receive (.message (.opens other.buildOpenMessage)) },
    { event := .receive (.message .keepalive) }]

def someKey : RouteKey := .pfx (.v4 ⟨0x0A010000, 16⟩)

def twoSessions : List Input :=
  establish 1 farSpeaker ++ [{ event := .receive (.message (.update none [] [(someKey, none)])) }, { event := .flush },
    { event := .queue 1 (.sendUpdate [1]) }, { event := .takeOp false }] ++
  reconnect 2 farSpeaker ++ [{ event := .receive (.message (.update none [] [(someKey, none)])) }, { event := .flush },
    { event := .queue 2 (.sendUpdate [2]) }, { event := .takeOp false }]

theorem sessions_isolated_over_reconnect : (twoSessions.foldl step (new {} nearSpeaker)).log.filter (fun effect => effect.parsedIn ≠ []) =
      [.peerUpdate [(1, .withdraw someKey none)], .peerUpdate [(2, .withdraw someKey none)]] ∧
    (twoSessions.foldl step (new {} nearSpeaker)).Isolated :=
  ⟨by decide +kernel, sessions_isolated (.of_permits _ twoSessions (by decide +kernel))⟩

-- The second UPDATE waits for the timer when the connection is lost.
def parkedOverReconnect : List Input :=
  establish 1 farSpeaker ++ [{ event := .queue 1 (.sendUpdate [1]) }, { event := .queue 1 (.sendUpdate [2]) },
    { event := .takeOp false }, { event := .takeOp false }] ++ reconnect 2 farSpeaker ++ [{ event := .mrai }]

-- The server has not heard of the end of the session when it queues the UPDATE, and the task
-- looks at its queue only in the next one.
def queuedOverReconnect : List Input :=
  establish 1 farSpeaker ++ (reconnect 2 farSpeaker).take 5 ++ [{ event := .queue 1 (.sendUpdate [1]) }] ++
    (reconnect 2 farSpeaker).drop 5 ++ [{ event := .takeOp false }]

-- A parsed route waits for the flush timer when the connection is lost.
def parsedOverReconnect : List Input :=
  establish 1 farSpeaker ++ [{ event := .receive (.message (.update none [] [(someKey, none)])) }] ++ reconnect 2 farSpeaker ++
    [{ event := .flush }]

theorem buffers_outlive_session : .update 2 2 ⟨2, 1⟩ [2] ∈ (parkedOverReconnect.foldl step (new spaced nearSpeaker)).log ∧
    .update 2 2 ⟨1, 1⟩ [1] ∈ (queuedOverReconnect.foldl step (new {} nearSpeaker)).log ∧
    List.Sublist [.action 1 (.report (.peerDisconnected .remoteNoNotification [⟨.ipv4, .unicast⟩])),
        .peerUpdate [(1, .withdraw someKey none)]] (parsedOverReconnect.foldl step (new {} nearSpeaker)).log ∧
    ¬ ∀ config speaker task, Reaches step (fun _ _ => True) (new config speaker) task → task.Isolated := by
  have written : .update 2 2 ⟨2, 1⟩ [2] ∈ (parkedOverReconnect.foldl step (new spaced nearSpeaker)).log := by decide +kernel
  refine ⟨written, by decide +kernel, by decide +kernel, fun always => ?_⟩
  have home := (always spaced nearSpeaker _ (.of_run _ parkedOverReconnect)).updates _ written
  exact absurd home (by decide : ¬ 2 ≤ 1)

end PeerTask

end Bgpgg.Peer
