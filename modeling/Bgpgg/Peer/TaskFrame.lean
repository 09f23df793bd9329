import Bgpgg.Peer.ControlFrame
import Bgpgg.Peer.Task

namespace Bgpgg.Peer.PeerTask

open Net Rib Server Control

-- What the handlers are made of, but for the messages they write for operations of the
-- server and the step that begins a session. Routes are accepted and delivered while a
-- session is up.
inductive Moves : PeerTask → PeerTask → Prop where
  | refl (task : PeerTask) : Moves task task
  | trans {task middle after : PeerTask} (first : Moves task middle) (second : Moves middle after) : Moves task after
  | performs {task : PeerTask} (act : Control → Control.Outcome)
      (calm : task.fresh.Calm (act task.fresh).2) :
      Moves task (task.performs act).2
  | modifyGr {task : PeerTask} (change : GracefulRestartState → GracefulRestartState) : Moves task (task.modifyGr change)
  | flush {task : PeerTask} (live : task.control.Live) : Moves task task.flushPendingRoutes
  | accept {task : PeerTask} (live : task.control.Live) (announced : List RoutePath) (withdrawn : List Withdrawal) :
      Moves task (task.acceptRoutes announced withdrawn)
  | dials {task : PeerTask} : Moves task { task with dialing := true, log := task.log ++ [.dial] }
  | undials {task : PeerTask} : Moves task { task with dialing := false }

section

variable {task : PeerTask}

theorem Moves.perform {act : Control → Control} (calm : task.fresh.Calm (act task.fresh)) : task.Moves (task.perform act) :=
  .performs _ calm

theorem moves_report {op : Report} (kind : (Action.report op).isDisconnect = false) : task.Moves (task.report op) :=
  .perform (calm_report op kind)

section

variable {control : Control} {event : FsmEvent}

theorem moves_tryProcessEvent (other : ¬ task.control.Begins event) :
    task.Moves (task.perform fun control => control.tryProcessEvent event) := .perform (calm_tryProcessEvent other)

theorem moves_disconnect (reason : PeerDownReason) : task.Moves (task.perform fun control => control.disconnect reason) :=
  .perform (calm_disconnect reason)

theorem moves_onConnAccepted (conn : Nat) : task.Moves (task.perform fun control => control.onConnAccepted conn) :=
  .perform (calm_onConnAccepted conn)

theorem moves_handleEorReceived (live : task.control.Live) (afiSafi : AfiSafi) : task.Moves (task.handleEorReceived afiSafi) := by
  unfold handleEorReceived
  split
  · exact .refl task
  · split
    · exact .refl task
    · exact (Moves.trans (.modifyGr _) (.flush live)).trans (moves_report rfl)

theorem moves_handleRouteRefresh {afiSafi : AfiSafi} {subtype : RouteRefreshSubtype}
    (delivers : task.control.Live ∨ subtype ≠ .eoRR) : task.Moves (task.handleRouteRefresh afiSafi subtype) := by
  unfold handleRouteRefresh
  split
  · exact .refl task
  · cases subtype with
    | normal => exact moves_report rfl
    | boRR =>
      dsimp only
      split
      · exact .refl task
      · split
        · exact .refl task
        · exact moves_report rfl
    | eoRR =>
      dsimp only
      split
      · exact .refl task
      · exact (Moves.flush (delivers.resolve_right fun other => other rfl)).trans (moves_report rfl)
    | unknown code => exact .refl task

theorem heardFromPeer_live (live : control.Live) : control.heardFromPeer.Live := by
  unfold heardFromPeer
  split <;> exact live

theorem moves_handleUpdate (live : task.control.Live) (eor : Option AfiSafi) (announced : List RoutePath)
    (withdrawn : List Withdrawal) : task.Moves (task.handleUpdate eor announced withdrawn) := by
  cases eor with
  | some afiSafi => exact (moves_handleEorReceived live _).trans (.perform calm_heardFromPeer)
  | none =>
    refine .trans (.perform calm_heardFromPeer) (.accept ?_ _ _)
    exact @heardFromPeer_live task.fresh live

theorem processEvent_update (phase : control.fsm.state = .openSent ∨ control.fsm.state = .openConfirm ∨
      control.fsm.state = .established) (ok : (control.processEvent .bgpUpdateReceived).1 = true) :
    control.fsm.state = .established ∧ control.processEvent .bgpUpdateReceived = (true, control.heardFromPeer) := by
  rcases phase with state | state | state
  · unfold processEvent Fsm.handleEvent at ok
    rw [state] at ok
    cases ok
  · unfold processEvent Fsm.handleEvent at ok
    rw [state] at ok
    cases ok
  · unfold processEvent Fsm.handleEvent
    rw [state]
    dsimp only [Fsm.fromEstablished, transitions, establishedTransitions, andThen]
    have same : { control with fsm.state := BgpState.established } = control := by rw [← state]
    simp [same]

theorem moves_keepalive (unconfirmed : task.control.fsm.state ≠ .openConfirm) :
    task.Moves (task.perform fun control => (control.tryProcessEvent .bgpKeepaliveReceived).heardFromPeer) :=
  .perform ((@calm_tryProcessEvent task.fresh _ fun begins => unconfirmed begins.1).trans calm_heardFromPeer)

-- The messages that do more in OpenSent and OpenConfirm than move the state machine on.
def BgpMessage.stirs : BgpMessage → Bool
  | .keepalive | .routeRefresh _ .eoRR => true
  | _ => false

theorem moves_handleReceivedMessage (phase : task.control.fsm.state = .openSent ∨ task.control.fsm.state = .openConfirm ∨
      task.control.fsm.state = .established) (connected : task.control.conn.isSome = true) {message : BgpMessage}
    (plain : task.control.fsm.state = .established ∨ BgpMessage.stirs message = false) :
    task.Moves (task.handleReceivedMessage message).2 := by
  unfold handleReceivedMessage
  split
  · exact .performs _ (calm_handleOpen _)
  · apply moves_keepalive
    rcases plain with established | quiet
    · rw [established]
      decide
    · cases quiet
  · dsimp only
    apply Moves.perform
    exact (calm_trackNotification _).trans (calm_handleNotificationReceived _)
  · dsimp only
    have calm := @calm_processEvent task.fresh .bgpUpdateReceived fun begins => by cases begins.2
    split
    · rename_i ok
      obtain ⟨established, heard⟩ := @processEvent_update task.fresh phase ok
      refine .trans (.performs _ calm) (moves_handleUpdate ?_ _ _ _)
      unfold performs
      dsimp only
      rw [heard]
      exact @heardFromPeer_live task.fresh ⟨established, connected⟩
    · exact .performs _ calm
  · apply moves_handleRouteRefresh
    rcases plain with established | quiet
    · exact .inl ⟨established, connected⟩
    · refine .inr fun ends => ?_
      rw [ends] at quiet
      cases quiet

theorem moves_handleMessage (phase : task.control.fsm.state = .openSent ∨ task.control.fsm.state = .openConfirm)
    (connected : task.control.conn.isSome = true) {message : BgpMessage} (quiet : BgpMessage.stirs message = false) :
    task.Moves (task.handleMessage message) := by
  have handled := moves_handleReceivedMessage (phase.imp id .inl) connected (.inr quiet)
  unfold handleMessage
  dsimp only
  split
  · exact handled
  · exact handled.trans (moves_disconnect _)

theorem moves_sessionOp {op : PeerOp} (stays : PeerOp.isShutdown op = false) : task.Moves (task.sessionOp op) := by
  unfold sessionOp
  split
  · exact .perform calm_hardReset
  · cases stays
  · exact moves_tryProcessEvent fun begins => by cases begins.2
  · exact moves_onConnAccepted _
  · exact .refl task

theorem moves_waitingOp (taken : Option (Stamp × PeerOp)) : task.Moves (task.waitingOp taken) := by
  unfold waitingOp
  split
  · exact moves_tryProcessEvent fun begins => by cases begins.2
  · exact moves_onConnAccepted _
  · exact .refl task

theorem moves_start (passive manual : Bool) : task.Moves (task.start passive manual) := by
  have restarts : ∀ event, event ≠ .bgpKeepaliveReceived →
      task.fresh.Calm (({ task.fresh with manuallyStopped := false } : Control).tryProcessEvent event) := fun event other =>
    (calm_manuallyStopped false).trans (calm_tryProcessEvent fun begins => other begins.2)
  have starts : ∀ event, event ≠ .bgpKeepaliveReceived → task.fresh.Calm (task.fresh.tryProcessEvent event) :=
    fun event other => calm_tryProcessEvent fun begins => other begins.2
  unfold start
  split
  · exact .refl task
  · apply Moves.perform
    cases passive with
    | false | true =>
      cases manual with
      | false => exact starts _ (by decide)
      | true => exact restarts _ (by decide)

theorem moves_idleOp {stamp : Stamp} {op : PeerOp} (stays : PeerOp.isShutdown op = false) :
    task.Moves (task.idleOp (some (stamp, op))) := by
  unfold idleOp
  dsimp only
  split
  · cases stays
  · exact moves_start _ _
  · exact moves_start _ _
  · exact moves_start _ _
  · exact moves_start _ _
  · exact moves_onConnAccepted _
  · exact .refl task

theorem moves_startDial (resolved : Bool) : task.Moves (task.startDial resolved) := by
  unfold startDial
  split
  · exact .dials
  · exact moves_tryProcessEvent fun begins => by cases begins.2

section

variable (phase : task.control.fsm.state = .openSent ∨ task.control.fsm.state = .openConfirm)

include phase

theorem unestablished_of_opening : task.fresh.fsm.state ≠ .established := by
  change task.control.fsm.state ≠ .established
  rcases phase with state | state <;> rw [state] <;> decide

theorem moves_openReceive (connected : task.control.conn.isSome = true) {incoming : Incoming}
    (quiet : ∀ message, incoming = .message message → BgpMessage.stirs message = false) :
    task.Moves (task.openReceive incoming) := by
  have unestablished := unestablished_of_opening phase
  unfold openReceive
  split
  · split
    · exact .trans (.perform calm_resolveCollisionDialedWins)
        (@moves_handleMessage (task.perform resolveCollisionDialedWins) phase connected _ (quiet _ rfl))
    · exact .perform (calm_adoptPendingAfterCollisionLoss unestablished _)
  · apply Moves.perform
    exact (calm_trackNotification _).trans (calm_promotePendingAfterConnLoss (by rw [trackNotification_fsm]; exact unestablished) _)
  · exact .perform (calm_promotePendingAfterConnLoss unestablished _)
  · exact .perform (calm_promotePendingAfterConnLoss unestablished _)
  · exact moves_handleMessage phase connected (quiet _ rfl)
  · exact .perform (calm_failWith _)
  · exact .perform (calm_failWith _)
  · exact moves_disconnect _

end

theorem moves_flushAtWatermark (live : task.control.Live) : task.Moves task.flushAtWatermark := by
  unfold flushAtWatermark
  split
  · exact .flush live
  · exact .refl task

theorem processEvent_live (live : control.Live)
    (heard : (∃ message, event = .bgpOpenReceived message) ∨ event = .bgpKeepaliveReceived ∨ event = .bgpUpdateReceived) :
    (control.processEvent event).2.Live := by
  have same : { control with fsm.state := BgpState.established } = control := by rw [← live.1]
  unfold processEvent Fsm.handleEvent
  rw [live.1]
  rcases heard with ⟨message, rfl⟩ | rfl | rfl
  · simpa [Fsm.fromEstablished, transitions, establishedTransitions, andThen, same] using live
  · simpa [Fsm.fromEstablished, transitions, establishedTransitions, andThen, same] using heardFromPeer_live live
  · simpa [Fsm.fromEstablished, transitions, establishedTransitions, andThen, same] using heardFromPeer_live live

end

section

variable (live : task.control.Live)

include live

theorem handleEorReceived_live (afiSafi : AfiSafi) : (task.handleEorReceived afiSafi).control.Live := by
  unfold handleEorReceived
  split
  · exact live
  · split <;> exact live

theorem handleUpdate_live (eor : Option AfiSafi) (announced : List RoutePath) (withdrawn : List Withdrawal) :
    (task.handleUpdate eor announced withdrawn).control.Live := by
  cases eor with
  | some afiSafi => exact @heardFromPeer_live (task.handleEorReceived afiSafi).fresh (handleEorReceived_live live afiSafi)
  | none => exact @heardFromPeer_live task.fresh live

theorem handleRouteRefresh_live (afiSafi : AfiSafi) (subtype : RouteRefreshSubtype) :
    (task.handleRouteRefresh afiSafi subtype).control.Live := by
  unfold handleRouteRefresh
  split
  · exact live
  · cases subtype with
    | normal => exact live
    | boRR =>
      dsimp only
      split
      · exact live
      · split <;> exact live
    | eoRR =>
      dsimp only
      split <;> exact live
    | unknown code => exact live

theorem handleReceivedMessage_live {message : BgpMessage} (ok : (task.handleReceivedMessage message).1 = true) :
    (task.handleReceivedMessage message).2.control.Live := by
  cases message with
  | opens message =>
    exact @processEvent_live { task.fresh with receivedOpen := some message } _ live (.inl ⟨message, rfl⟩)
  | keepalive => exact heardFromPeer_live (@processEvent_live task.fresh _ live (.inr (.inl rfl)))
  | notification notif => cases ok
  | update eor announced withdrawn =>
    have heard := @processEvent_live task.fresh _ live (.inr (.inr rfl))
    unfold handleReceivedMessage
    dsimp only
    split
    · exact @handleUpdate_live (task.performs fun control => control.processEvent .bgpUpdateReceived).2 heard _ _ _
    · exact heard
  | routeRefresh afiSafi subtype => exact handleRouteRefresh_live live afiSafi subtype

theorem moves_establishedReceive (incoming : Incoming) : task.Moves (task.establishedReceive incoming) := by
  have handled := fun message => @moves_handleReceivedMessage task (.inr (.inr live.1)) live.2 message (.inl live.1)
  unfold establishedReceive
  split
  · dsimp only
    split
    · rename_i ok
      exact (handled _).trans (moves_flushAtWatermark (handleReceivedMessage_live live ok))
    · exact (handled _).trans (moves_disconnect _)
  · exact .perform (calm_failWith _)
  · exact .perform (calm_failWith _)
  · exact moves_disconnect _

end

theorem moves_ready (event : Event) : task.Moves (task.ready event) := by
  unfold ready
  split
  · exact .perform calm_connectionReady
  · exact .refl task

theorem moves_fireGrTimer : task.Moves task.fireGrTimer := by
  unfold fireGrTimer
  split
  · exact .refl task
  · exact .trans (.modifyGr _) (moves_report rfl)

theorem calm_sessionTick (expired : Expired) (control : Control) : control.Calm (sessionTick control expired) := by
  unfold sessionTick
  split
  · exact calm_tryProcessEvent fun begins => by cases begins.2
  · split
    · exact calm_orDisconnect _ (calm_processEvent fun begins => by cases begins.2)
    · exact .refl control

theorem calm_delayOpenTick (checksRetry : Bool) (expired : Expired) (control : Control) :
    control.Calm (delayOpenTick control checksRetry expired) := by
  unfold delayOpenTick
  split
  · exact calm_tryProcessEvent fun begins => by cases begins.2
  · split
    · exact calm_orDisconnect _ (calm_processEvent fun begins => by cases begins.2)
    · exact .refl control

end

def takesOp (task : PeerTask) : Event → Bool
  | .takeOp _ =>
    match task.control.fsm.state with
    | .idle => true
    | .connect => task.control.fsm.timers.delayOpen || (task.control.conn.isNone && task.dialing)
    | .active => task.control.fsm.timers.delayOpen || task.control.conn.isNone
    | .openSent | .openConfirm | .established => task.control.conn.isSome
  | .proceed _ =>
    task.control.fsm.state == .connect && !task.control.fsm.timers.delayOpen && task.control.conn.isNone && !task.dialing
  | _ => false

def waitsForConnection (task : PeerTask) : Bool := task.control.fsm.state == .connect || task.control.fsm.state == .active

def PeerOp.isServed : PeerOp → Bool
  | .sendUpdate _ | .sendRouteRefresh _ _ | .localRibSent _ => true
  | _ => false

-- All that a step of the task itself can do.
inductive Acts (task : PeerTask) (event : Event) : PeerTask → Prop where
  | moves {after : PeerTask} (waits : task.takesOp event = false ∨ task.queue = []) (moves : task.Moves after) :
      Acts task event after
  | ends (idle : task.control.fsm.state = .idle) (takes : task.takesOp event = true) (empty : task.queue = [])
      (closed : task.closed = true) : Acts task event task.stop
  | takes {stamp : Stamp} {op : PeerOp} {rest : List (Stamp × PeerOp)} {after : PeerTask}
      (takes : task.takesOp event = true) (queue : task.queue = (stamp, op) :: rest)
      (stays : PeerOp.isShutdown op = false ∨ task.waitsForConnection = true) (moves : (task.took op rest).Moves after) :
      Acts task event after
  | leaves {stamp : Stamp} {subcode : CeaseSubcode} {rest : List (Stamp × PeerOp)}
      (idle : task.control.fsm.state = .idle) (takes : task.takesOp event = true)
      (queue : task.queue = (stamp, .shutdown subcode) :: rest) :
      Acts task event (task.took (.shutdown subcode) rest).stop
  | ceases {stamp : Stamp} {subcode : CeaseSubcode} {rest : List (Stamp × PeerOp)}
      (connected : task.control.conn.isSome = true) (waiting : task.waitsForConnection = false)
      (takes : task.takesOp event = true) (queue : task.queue = (stamp, .shutdown subcode) :: rest) :
      Acts task event ((task.took (.shutdown subcode) rest).perform fun control =>
        (control.sendNotification ⟨.cease subcode, []⟩).2).stop
  | serves {elapsed : Bool} {stamp : Stamp} {op : PeerOp} {rest : List (Stamp × PeerOp)} (live : task.control.Live)
      (same : event = .takeOp elapsed) (queue : task.queue = (stamp, op) :: rest) (served : PeerOp.isServed op = true) :
      Acts task event (establishedOp elapsed (task.took op rest) (some (stamp, op)))
  | begins (confirmed : task.control.fsm.state = .openConfirm) (same : event = .receive (.message .keepalive)) :
      Acts task event (task.perform fun control => (control.tryProcessEvent .bgpKeepaliveReceived).heardFromPeer)
  | refreshes {afiSafi : AfiSafi} (phase : task.control.fsm.state = .openSent ∨ task.control.fsm.state = .openConfirm)
      (same : event = .receive (.message (.routeRefresh afiSafi .eoRR))) :
      Acts task event (task.handleRouteRefresh afiSafi .eoRR)
  | sends (live : task.control.Live) (same : event = .mrai) (paced : task.lastUpdateSent = true) :
      Acts task event ({ task with pendingUpdates := [] }.sendPending task.pendingUpdates)

section

variable {task : PeerTask} {event : Event}

variable {stamp : Stamp} {op : PeerOp} {rest : List (Stamp × PeerOp)}

theorem takesOp_other (other : ∀ elapsed, event ≠ .takeOp elapsed) (idles : ∀ resolved, task.takesOp (.proceed resolved) = false) :
    task.takesOp event = false := by
  cases event with
  | takeOp elapsed => exact absurd rfl (other elapsed)
  | proceed resolved => exact idles resolved
  | _ => rfl

theorem acts_waitingOp {base : PeerTask} (dropped : task.Moves base) (queue : base.queue = task.queue)
    (droppedFirst : ∀ op rest, (task.took op rest).Moves (base.took op rest)) (takes : task.takesOp event = true)
    (waits : task.waitsForConnection = true) : task.Acts event (base.receiveOp waitingOp) := by
  unfold receiveOp
  rw [queue]
  cases held : task.queue with
  | nil =>
    dsimp only
    split <;> exact .moves (.inr held) dropped
  | cons entry rest =>
    obtain ⟨stamp, op⟩ := entry
    exact .takes takes held (.inr waits) ((droppedFirst op rest).trans (moves_waitingOp _))

theorem acts_receive_waiting (takes : task.takesOp event = true) (waits : task.waitsForConnection = true) :
    task.Acts event (task.receiveOp waitingOp) :=
  acts_waitingOp (.refl task) rfl (fun _ _ => .refl _) takes waits

theorem acts_handleIdle (idle : task.control.fsm.state = .idle) : task.Acts event (task.handleIdle event) := by
  unfold handleIdle
  split
  · rename_i elapsed
    have takes : task.takesOp (.takeOp elapsed) = true := by rw [takesOp, idle]
    unfold receiveOp
    split
    · rename_i empty
      split
      · rename_i closed
        exact .ends idle takes empty closed
      · exact .moves (.inr empty) (.refl task)
    · rename_i stamp op rest queue
      cases kind : PeerOp.isShutdown op with
      | false => exact .takes takes queue (.inl kind) (moves_idleOp kind)
      | true =>
        cases op with
        | shutdown subcode => exact .leaves idle takes queue
        | _ => cases kind
  · split
    · apply Acts.moves (.inl rfl)
      exact moves_tryProcessEvent fun begins => by cases begins.2
    · exact .moves (.inl rfl) (.refl task)
  · rename_i other _
    exact .moves (.inl (takesOp_other other fun _ => by rw [takesOp, idle]; rfl)) (.refl task)

theorem acts_delayOpenWait (waits : task.waitsForConnection = true) (delay : task.control.fsm.timers.delayOpen = true)
    (checksRetry : Bool) : task.Acts event (task.delayOpenWait checksRetry event) := by
  have unestablished : task.fresh.fsm.state ≠ .established := by
    change task.control.fsm.state ≠ .established
    intro established
    rw [waitsForConnection, established] at waits
    cases waits
  have takes : ∀ elapsed, task.takesOp (.takeOp elapsed) = true := by
    intro elapsed
    unfold waitsForConnection at waits
    unfold takesOp
    cases state : task.control.fsm.state with
    | connect | active => rw [delay]; rfl
    | _ => exact absurd waits (by rw [state]; decide)
  unfold delayOpenWait
  split
  · exact .moves (.inl rfl) (.perform (calm_handleDelayOpenMessage unestablished _))
  · split
    · exact .moves (.inl rfl) (.perform (calm_handleConnPendingMsg unestablished _))
    · exact .moves (.inl rfl) (.refl task)
  · exact .moves (.inl rfl) (.perform (calm_delayOpenTick _ _ _))
  · exact acts_receive_waiting (takes _) waits
  · rename_i other
    refine .moves (.inl (takesOp_other other fun _ => ?_)) (.refl task)
    rw [takesOp, delay, Bool.not_true, Bool.and_false, Bool.false_and, Bool.false_and]

theorem acts_ready (connected : task.control.conn.isSome = true) (undelayed : task.control.fsm.timers.delayOpen = false)
    (waits : task.waitsForConnection = true) : task.Acts event (task.ready event) := by
  refine .moves (.inl ?_) (moves_ready event)
  have some : task.control.conn.isNone = false := by rw [← Option.not_isSome, connected]; rfl
  unfold waitsForConnection at waits
  unfold takesOp
  split
  · cases state : task.control.fsm.state with
    | connect | active => rw [undelayed, some]; rfl
    | _ => exact absurd waits (by rw [state]; decide)
  · rw [some, Bool.and_false, Bool.false_and]
  · rfl

section

variable (connect : task.control.fsm.state = .connect)

include connect

theorem acts_dialWait (unconnected : task.control.conn.isSome = false)
    (dialing : task.dialing = true) : task.Acts event (task.dialWait event) := by
  have noConn : task.control.conn.isNone = true := by rw [← Option.not_isSome, unconnected]; rfl
  have waits : task.waitsForConnection = true := by rw [waitsForConnection, connect]; rfl
  have undialed : task.Moves { task with dialing := false } := .undials
  have unestablished : task.fresh.fsm.state ≠ .established := by
    change task.control.fsm.state ≠ .established
    rw [connect]
    decide
  unfold dialWait
  split
  · apply Acts.moves (.inl rfl)
    apply undialed.trans
    apply Moves.perform
    exact (calm_connection unestablished _ _ _).trans calm_connectionReady
  · apply Acts.moves (.inl rfl)
    exact undialed.trans (moves_tryProcessEvent fun begins => by cases begins.2)
  · apply Acts.moves (.inl rfl)
    exact undialed.trans (moves_tryProcessEvent fun begins => by cases begins.2)
  · split
    · rename_i nothing
      rw [Bool.and_eq_true, List.isEmpty_iff] at nothing
      exact .moves (.inr nothing.1) (.refl task)
    · refine acts_waitingOp undialed rfl (fun _ _ => .undials) ?_ waits
      rw [takesOp, connect, noConn, dialing]
      exact Bool.or_true _
  · rename_i other
    refine .moves (.inl (takesOp_other other fun _ => ?_)) (.refl task)
    rw [takesOp, dialing, Bool.not_true, Bool.and_false]

theorem acts_enterConnect (undelayed : task.control.fsm.timers.delayOpen = false)
    (unconnected : task.control.conn.isSome = false) (undialed : task.dialing = false) (resolved : Bool) :
    task.Acts (.proceed resolved) (task.enterConnect resolved) := by
  have noConn : task.control.conn.isNone = true := by rw [← Option.not_isSome, unconnected]; rfl
  have waits : task.waitsForConnection = true := by rw [waitsForConnection, connect]; rfl
  have takes : task.takesOp (.proceed resolved) = true := by rw [takesOp, connect, undelayed, noConn, undialed]; rfl
  unfold enterConnect
  split
  · exact acts_receive_waiting takes waits
  · exact acts_receive_waiting takes waits
  · rename_i empty
    exact .moves (.inr empty) (moves_startDial _)
  · rename_i entry rest _ _ queue
    unfold receiveOp
    rw [queue]
    exact .takes takes queue (.inr waits) ((moves_waitingOp _).trans (moves_startDial _))

theorem acts_handleConnect : task.Acts event (task.handleConnect event) := by
  have waits : task.waitsForConnection = true := by rw [waitsForConnection, connect]; rfl
  unfold handleConnect
  split
  · rename_i delay
    exact acts_delayOpenWait waits delay true
  · rename_i undelayed
    rw [Bool.not_eq_true] at undelayed
    split
    · rename_i connected
      exact acts_ready connected undelayed waits
    · rename_i unconnected
      rw [Bool.not_eq_true] at unconnected
      split
      · rename_i dialing
        exact acts_dialWait connect unconnected dialing
      · rename_i undialed
        rw [Bool.not_eq_true] at undialed
        split
        · exact acts_enterConnect connect undelayed unconnected undialed _
        · rename_i other
          refine .moves (.inl ?_) (.refl task)
          unfold takesOp
          split
          · rw [connect]
            rw [undelayed, undialed, Bool.and_false]
            rfl
          · exact absurd rfl (other _)
          · rfl

end

theorem acts_handleActive (active : task.control.fsm.state = .active) : task.Acts event (task.handleActive event) := by
  have waits : task.waitsForConnection = true := by rw [waitsForConnection, active]; rfl
  unfold handleActive
  split
  · rename_i delay
    exact acts_delayOpenWait waits delay false
  · rename_i undelayed
    rw [Bool.not_eq_true] at undelayed
    split
    · rename_i connected
      exact acts_ready connected undelayed waits
    · rename_i unconnected
      rw [Bool.not_eq_true] at unconnected
      have noConn : task.control.conn.isNone = true := by rw [← Option.not_isSome, unconnected]; rfl
      split
      · apply Acts.moves (.inl rfl)
        exact moves_tryProcessEvent fun begins => by cases begins.2
      · apply acts_receive_waiting _ waits
        rw [takesOp, active, noConn]
        exact Bool.or_true _
      · rename_i other
        exact .moves (.inl (takesOp_other other fun _ => by rw [takesOp, active]; rfl)) (.refl task)

section

variable
  (phase : task.control.fsm.state = .openSent ∨ task.control.fsm.state = .openConfirm ∨ task.control.fsm.state = .established)

include phase

theorem not_waiting_of_session : task.waitsForConnection = false := by
  rcases phase with state | state | state <;> rw [waitsForConnection, state] <;> rfl

theorem takes_of_session (elapsed : Bool) : task.takesOp (.takeOp elapsed) = task.control.conn.isSome := by
  rcases phase with state | state | state <;> rw [takesOp, state]

theorem waits_of_session (other : ∀ elapsed, event ≠ .takeOp elapsed) : task.takesOp event = false := by
  refine takesOp_other other fun _ => ?_
  rcases phase with state | state | state <;> rw [takesOp, state] <;> rfl

theorem waits_of_unconnected (unconnected : task.control.conn = none) (event : Event) : task.takesOp event = false := by
  by_cases takes : ∃ elapsed, event = .takeOp elapsed
  · obtain ⟨elapsed, rfl⟩ := takes
    rw [takes_of_session phase, unconnected]
    rfl
  · exact waits_of_session phase fun elapsed same => takes ⟨elapsed, same⟩

theorem acts_sessionOp (connected : task.control.conn.isSome = true) {elapsed : Bool} (queue : task.queue = (stamp, op) :: rest) :
    task.Acts (.takeOp elapsed) ((task.took op rest).sessionOp op) := by
  have takes : task.takesOp (.takeOp elapsed) = true := by rw [takes_of_session phase, connected]
  cases kind : PeerOp.isShutdown op with
  | false => exact .takes takes queue (.inl kind) (moves_sessionOp kind)
  | true =>
    cases op with
    | shutdown subcode => exact .ceases connected (not_waiting_of_session phase) takes queue
    | _ => cases kind

end

section

variable (phase : task.control.fsm.state = .openSent ∨ task.control.fsm.state = .openConfirm)

include phase

theorem acts_openReceive (connected : task.control.conn.isSome = true) (incoming : Incoming) :
    task.Acts (.receive incoming) (task.openReceive incoming) := by
  have waits : task.takesOp (.receive incoming) = false := waits_of_session (phase.imp id .inl) nofun
  by_cases stirring : ∃ message, incoming = .message message ∧ BgpMessage.stirs message = true
  · obtain ⟨message, rfl, stirs⟩ := stirring
    have handled : task.openReceive (.message message) = task.handleMessage message := by
      unfold openReceive
      cases message with
      | keepalive | routeRefresh => cases task.control.connPending <;> rfl
      | _ => cases stirs
    rw [handled]
    cases message with
    | keepalive =>
      rcases phase with sent | confirmed
      · exact .moves (.inl waits) (moves_keepalive (by rw [sent]; decide))
      · exact .begins confirmed rfl
    | routeRefresh afiSafi subtype =>
      cases subtype with
      | eoRR => exact .refreshes phase rfl
      | _ => cases stirs
    | _ => cases stirs
  · apply Acts.moves (.inl waits)
    apply moves_openReceive phase connected
    intro message same
    exact Bool.eq_false_of_not_eq_true fun stirs => stirring ⟨message, same, stirs⟩

theorem acts_handleOpenStates : task.Acts event (task.handleOpenStates event) := by
  have session : task.control.fsm.state = .openSent ∨ task.control.fsm.state = .openConfirm ∨
      task.control.fsm.state = .established := phase.imp id .inl
  have unestablished := unestablished_of_opening phase
  unfold handleOpenStates
  split
  · refine .moves (.inl (waits_of_session session nofun)) ?_
    exact moves_tryProcessEvent fun begins => by cases begins.2
  · rename_i conn _
    exact .moves (.inl (waits_of_unconnected session conn _)) (.refl task)
  · rename_i conn
    exact acts_openReceive phase (by rw [conn]; rfl) _
  · split
    · exact .moves (.inl (waits_of_session session nofun)) (.perform (calm_handleConnPendingMsg unestablished _))
    · exact .moves (.inl (waits_of_session session nofun)) (.refl task)
  · rename_i conn
    have connected : task.control.conn.isSome = true := by rw [conn]; rfl
    unfold receiveOp
    split
    · rename_i empty
      split <;> exact .moves (.inr empty) (.refl task)
    · rename_i stamp op rest queue
      exact acts_sessionOp session connected queue
  · exact .moves (.inl (waits_of_session session nofun)) (.perform (calm_sessionTick _ _))
  · rename_i other _
    exact .moves (.inl (waits_of_session session other)) (.refl task)

end

theorem acts_establishedOp (live : task.control.Live) (elapsed : Bool) (queue : task.queue = (stamp, op) :: rest) :
    task.Acts (.takeOp elapsed) (establishedOp elapsed (task.took op rest) (some (stamp, op))) := by
  cases kind : PeerOp.isServed op with
  | true => exact .serves live rfl queue kind
  | false =>
    have other : establishedOp elapsed (task.took op rest) (some (stamp, op)) = (task.took op rest).sessionOp op := by
      cases op <;> first | rfl | cases kind
    rw [other]
    exact acts_sessionOp (.inr (.inr live.1)) live.2 queue

theorem acts_handleEstablished (established : task.control.fsm.state = .established) :
    task.Acts event (task.handleEstablished event) := by
  have session : task.control.fsm.state = .openSent ∨ task.control.fsm.state = .openConfirm ∨
      task.control.fsm.state = .established := .inr (.inr established)
  unfold handleEstablished
  split
  · refine .moves (.inl (waits_of_session session nofun)) ?_
    exact moves_tryProcessEvent fun begins => by cases begins.2
  · rename_i conn _
    exact .moves (.inl (waits_of_unconnected session conn _)) (.refl task)
  · rename_i conn
    exact .moves (.inl (waits_of_session session nofun))
      (moves_establishedReceive ⟨established, by rw [conn]; rfl⟩ _)
  · rename_i conn
    have live : task.control.Live := ⟨established, by rw [conn]; rfl⟩
    unfold receiveOp
    split
    · rename_i empty
      split <;> exact .moves (.inr empty) (.refl task)
    · rename_i stamp op rest queue
      exact acts_establishedOp live _ queue
  · exact .moves (.inl (waits_of_session session nofun)) (.perform (calm_sessionTick _ _))
  · rename_i conn
    split
    · exact .moves (.inl (waits_of_session session nofun)) (.refl task)
    · exact .moves (.inl (waits_of_session session nofun)) (.flush ⟨established, by rw [conn]; rfl⟩)
  · rename_i conn
    split
    · exact .moves (.inl (waits_of_session session nofun)) (.refl task)
    · rename_i due
      rw [Bool.or_eq_true, not_or, Bool.not_eq_true', Bool.not_eq_false] at due
      exact .sends ⟨established, by rw [conn]; rfl⟩ rfl due.2
  · rename_i other _ _ _
    exact .moves (.inl (waits_of_session session other)) (.refl task)

theorem acts (task : PeerTask) (event : Event) : task.Acts event (task.act event) := by
  unfold act
  cases state : task.control.fsm.state with
  | idle => exact acts_handleIdle state
  | connect => exact acts_handleConnect state
  | active => exact acts_handleActive state
  | openSent => exact acts_handleOpenStates (.inl state)
  | openConfirm => exact acts_handleOpenStates (.inr state)
  | established => exact acts_handleEstablished state

end

end Bgpgg.Peer.PeerTask
