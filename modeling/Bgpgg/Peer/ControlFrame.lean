import Bgpgg.Peer.Control

namespace Bgpgg.Peer

open Server List

def Action.isDisconnect : Action → Bool
  | .report (.peerDisconnected _ _) => true
  | _ => false

namespace Control

def Live (control : Control) : Prop := control.fsm.state = .established ∧ control.conn.isSome = true

def Agrees (control : Control) : Prop := control.fsm.gracefulRestartNegotiated = control.capabilities.gracefulRestart.isSome

-- What all of the state machine does but for the step into Established: it begins no session,
-- and a session that is up afterwards was up before and has not been reported as ended.
structure Calm (control after : Control) : Prop where
  session : after.session = control.session
  config : after.config = control.config
  agrees : control.Agrees → after.Agrees
  live : control.Agrees → after.Live → control.Live
  out : ∃ added, after.out = control.out ++ added ∧ (control.Agrees → after.Live → ∀ action ∈ added, action.isDisconnect = false)

section

variable {control middle after : Control}

variable {fsm : Fsm} {outcome : Outcome} (newState : BgpState) (event : FsmEvent) (message : OpenMessage)
  (notif : NotificationMessage) (reason : PeerDownReason)

theorem Calm.refl (control : Control) : control.Calm control :=
  ⟨rfl, rfl, id, fun _ live => live, [], (append_nil _).symm, fun _ _ _ member => absurd member not_mem_nil⟩

theorem Calm.trans (first : control.Calm middle) (second : middle.Calm after) : control.Calm after := by
  obtain ⟨early, earlyOut, earlyCalm⟩ := first.out
  obtain ⟨late, lateOut, lateCalm⟩ := second.out
  have up : control.Agrees → after.Live → middle.Live := fun agrees => second.live (first.agrees agrees)
  refine ⟨second.session.trans first.session, second.config.trans first.config,
    fun agrees => second.agrees (first.agrees agrees), fun agrees live => first.live agrees (up agrees live), early ++ late,
    by rw [lateOut, earlyOut, append_assoc], fun agrees live action member => ?_⟩
  rcases mem_append.mp member with member | member
  · exact earlyCalm agrees (up agrees live) action member
  · exact lateCalm (first.agrees agrees) live action member

theorem Calm.of_fields (session : after.session = control.session) (config : after.config = control.config)
    (state : after.fsm.state = control.fsm.state) (conn : after.conn = control.conn)
    (flag : after.fsm.gracefulRestartNegotiated = control.fsm.gracefulRestartNegotiated)
    (capabilities : after.capabilities = control.capabilities) (out : after.out = control.out) : control.Calm after := by
  refine ⟨session, config, ?_, ?_, [], ?_, fun _ _ _ member => absurd member not_mem_nil⟩
  · rw [Agrees, Agrees, flag, capabilities]
    exact id
  · rw [Live, state, conn]
    exact fun _ live => live
  · rw [out, append_nil]

theorem Calm.of_down (session : after.session = control.session) (config : after.config = control.config)
    (agrees : control.Agrees → after.Agrees) (down : control.Agrees → ¬ after.Live)
    (out : ∃ added, after.out = control.out ++ added) : control.Calm after := by
  obtain ⟨added, out⟩ := out
  exact ⟨session, config, agrees, fun agrees live => absurd live (down agrees), added, out, fun agrees live => absurd live (down agrees)⟩

theorem not_live_of_state (other : control.fsm.state ≠ .established) : ¬ control.Live := fun live => other live.1

theorem calm_report (op : Report) (kind : (Action.report op).isDisconnect = false) : control.Calm (control.report op) :=
  ⟨rfl, rfl, id, fun _ live => live, [.report op], rfl, fun _ _ => forall_mem_singleton.mpr kind⟩

theorem calm_writeTo (conn : Nat) (message : PlainMessage) : control.Calm (control.writeTo conn message).2 := by
  unfold writeTo
  split
  · exact .refl control
  · exact ⟨rfl, rfl, id, fun _ live => live, [.write conn message], rfl, fun _ _ => forall_mem_singleton.mpr rfl⟩

theorem calm_write (message : PlainMessage) : control.Calm (control.write message).2 := by
  unfold write
  split
  · exact .refl control
  · exact calm_writeTo _ _

theorem calm_startConnectRetry : control.Calm control.startConnectRetry := .of_fields rfl rfl rfl rfl rfl rfl rfl
theorem calm_stopConnectRetry : control.Calm control.stopConnectRetry := .of_fields rfl rfl rfl rfl rfl rfl rfl
theorem calm_startHoldTimer : control.Calm control.startHoldTimer := .of_fields rfl rfl rfl rfl rfl rfl rfl
theorem calm_startDelayOpenTimer : control.Calm control.startDelayOpenTimer := .of_fields rfl rfl rfl rfl rfl rfl rfl
theorem calm_stopDelayOpenTimer : control.Calm control.stopDelayOpenTimer := .of_fields rfl rfl rfl rfl rfl rfl rfl
theorem calm_stopSessionTimers : control.Calm control.stopSessionTimers := .of_fields rfl rfl rfl rfl rfl rfl rfl

theorem calm_heardFromPeer : control.Calm control.heardFromPeer := by
  unfold heardFromPeer
  split
  · exact calm_startHoldTimer
  · exact .refl control

theorem calm_restartKeepaliveTimer : control.Calm control.restartKeepaliveTimer := by
  unfold restartKeepaliveTimer
  split
  · exact .of_fields rfl rfl rfl rfl rfl rfl rfl
  · exact .refl control

theorem calm_andThen {next : Control → Outcome} (first : control.Calm outcome.2)
    (second : outcome.2.Calm (next outcome.2).2) : control.Calm (andThen outcome next).2 := by
  unfold andThen
  split
  · exact first.trans second
  · exact first

theorem calm_sendOpen : control.Calm control.sendOpen.2 := by
  exact calm_andThen (calm_write _) (.of_fields rfl rfl rfl rfl rfl rfl rfl)

theorem calm_sendKeepalive : control.Calm control.sendKeepalive.2 := by
  exact calm_andThen (calm_write _) calm_restartKeepaliveTimer

theorem calm_sendNotification : control.Calm (control.sendNotification notif).2 := by
  unfold sendNotification
  split
  · exact calm_write _
  · exact .refl control

theorem startGrRestartTimer_fields : control.startGrRestartTimer.conn = control.conn ∧ control.startGrRestartTimer.fsm = control.fsm ∧
      control.startGrRestartTimer.capabilities = control.capabilities ∧
      control.startGrRestartTimer.session = control.session ∧ control.startGrRestartTimer.config = control.config ∧
      control.startGrRestartTimer.out = control.out := by
  unfold startGrRestartTimer
  split <;> exact ⟨rfl, rfl, rfl, rfl, rfl, rfl⟩

theorem disconnect_fields : (control.disconnect reason).conn = none ∧ (control.disconnect reason).fsm.state = control.fsm.state ∧
      (control.disconnect reason).fsm.gracefulRestartNegotiated = control.fsm.gracefulRestartNegotiated ∧
      (control.disconnect reason).capabilities = control.capabilities ∧
      (control.disconnect reason).session = control.session ∧ (control.disconnect reason).config = control.config ∧
      ∃ added, (control.disconnect reason).out = control.out ++ added := by
  unfold disconnect
  dsimp only
  generalize (if control.shouldPreserveRoutesWithGr reason then control.capabilities.grAfiSafis else []) = grAfiSafis
  split
  · split
    · exact ⟨rfl, rfl, rfl, rfl, rfl, rfl, _, rfl⟩
    · obtain ⟨conn, fsm, capabilities, session, config, out⟩ := @startGrRestartTimer_fields
        ({ control with conn := none, connPending := none, connDialed := false } : Control).stopSessionTimers.stopDelayOpenTimer
      have state := congrArg Fsm.state fsm
      have flag := congrArg Fsm.gracefulRestartNegotiated fsm
      have added := congrArg (· ++ [Action.report (.peerDisconnected reason grAfiSafis)]) out
      exact ⟨conn, state, flag, capabilities, session, config, _, added⟩
  · exact ⟨rfl, rfl, rfl, rfl, rfl, rfl, [], (append_nil _).symm⟩

theorem calm_disconnect : control.Calm (control.disconnect reason) := by
  obtain ⟨conn, _, flag, capabilities, session, config, out⟩ := @disconnect_fields control reason
  refine .of_down session config ?_ ?_ out
  · rw [Agrees, Agrees, flag, capabilities]
    exact id
  · intro _ live
    have some := live.2
    rw [conn] at some
    cases some

theorem calm_transitionToIdleOnError : control.Calm (control.transitionToIdleOnError reason) :=
  ((calm_disconnect reason).trans calm_stopConnectRetry).trans calm_stopSessionTimers

theorem calm_closeAs : control.Calm (control.closeAs notif reason) :=
  (calm_sendNotification notif).trans (calm_transitionToIdleOnError reason)

theorem calm_closeWith : control.Calm (control.closeWith notif) := calm_closeAs _ _

theorem calm_manuallyStopped (stopped : Bool) : control.Calm { control with manuallyStopped := stopped } :=
  .of_fields rfl rfl rfl rfl rfl rfl rfl

theorem calm_handleManualStop : control.Calm control.handleManualStop.2 := (calm_manuallyStopped true).trans (calm_closeWith _)

theorem calm_handleAutomaticStop (subcode : CeaseSubcode) : control.Calm (control.handleAutomaticStop subcode).2 :=
  (calm_closeWith _).trans (calm_report _ rfl)

theorem calm_handleFsmError : control.Calm control.handleFsmError.2 := calm_closeWith _

theorem calm_noteCapabilities : control.Calm (control.noteCapabilities message) :=
  ⟨rfl, rfl, fun _ => rfl, fun _ live => live, [], (append_nil _).symm, fun _ _ _ member => absurd member not_mem_nil⟩

theorem calm_holdTime (holdTime : Nat) : control.Calm { control with fsm.timers.holdTime := holdTime } :=
  .of_fields rfl rfl rfl rfl rfl rfl rfl

theorem calm_startSessionTimers : control.Calm control.startSessionTimers := by
  unfold startSessionTimers
  split
  · exact calm_startHoldTimer
  · exact calm_stopSessionTimers

theorem calm_enterOpenConfirm : control.Calm (control.enterOpenConfirm message).2 := by
  unfold enterOpenConfirm
  split
  · exact ((calm_noteCapabilities message).trans (calm_holdTime _)).trans
      (calm_andThen calm_sendKeepalive (calm_startSessionTimers.trans (calm_report _ rfl)))
  · split
    · exact (calm_noteCapabilities message).trans (calm_sendNotification _)
    · exact calm_sendNotification _
  · exact .refl control

theorem calm_idleTransitions : control.Calm (control.idleTransitions newState).2 := by
  unfold idleTransitions
  split
  · exact calm_startConnectRetry
  · exact calm_startConnectRetry
  · exact .refl control

theorem calm_enterOpenSent : control.Calm control.enterOpenSent.2 := ((calm_holdTime _).trans calm_startHoldTimer).trans calm_sendOpen

theorem calm_openWithDelayOpen : control.Calm (control.openWithDelayOpen message).2 := by
  exact calm_andThen ((calm_stopConnectRetry.trans calm_stopDelayOpenTimer).trans calm_sendOpen) (calm_enterOpenConfirm _)

theorem calm_stopAndDisconnect : control.Calm (control.stopAndDisconnect reason) :=
  (calm_stopConnectRetry.trans calm_stopDelayOpenTimer).trans (calm_disconnect reason)

theorem calm_connectTransitions : control.Calm (control.connectTransitions newState event).2 := by
  have retries : control.Calm (control.disconnect .remoteNoNotification).stopDelayOpenTimer.startConnectRetry :=
    ((calm_disconnect _).trans calm_stopDelayOpenTimer).trans calm_startConnectRetry
  have stops : control.Calm ({ control.disconnect .remoteNoNotification with manuallyStopped := true } : Control).stopConnectRetry :=
    ((calm_disconnect _).trans (calm_manuallyStopped true)).trans calm_stopConnectRetry
  unfold connectTransitions
  split
  any_goals exact (calm_sendNotification _).trans (calm_stopAndDisconnect _)
  any_goals exact calm_stopAndDisconnect _
  · exact retries
  · exact retries
  · exact stops
  · exact calm_stopDelayOpenTimer.trans calm_enterOpenSent
  · exact calm_stopConnectRetry.trans calm_enterOpenSent
  · exact calm_openWithDelayOpen _
  · exact .refl control

theorem calm_activeTransitions : control.Calm (control.activeTransitions newState event).2 := by
  have retries : control.Calm (control.disconnect .remoteNoNotification).stopDelayOpenTimer.startConnectRetry :=
    ((calm_disconnect _).trans calm_stopDelayOpenTimer).trans calm_startConnectRetry
  have stops : ∀ told : Control, control.Calm told → control.Calm
      ({ told.disconnect .remoteNoNotification with manuallyStopped := true } : Control).stopConnectRetry.stopDelayOpenTimer :=
    fun _ told => (((told.trans (calm_disconnect _)).trans (calm_manuallyStopped true)).trans calm_stopConnectRetry).trans
      calm_stopDelayOpenTimer
  unfold activeTransitions
  split
  any_goals exact (calm_sendNotification _).trans (calm_stopAndDisconnect _)
  any_goals exact ((calm_sendNotification _).trans calm_stopConnectRetry).trans (calm_disconnect _)
  any_goals exact calm_stopConnectRetry.trans (calm_disconnect _)
  · exact calm_startConnectRetry
  · exact retries
  · exact calm_stopAndDisconnect _
  · exact calm_stopAndDisconnect _
  · dsimp only
    apply stops
    split
    · exact calm_sendNotification _
    · exact .refl control
  · exact (calm_stopConnectRetry.trans calm_stopDelayOpenTimer).trans calm_enterOpenSent
  · exact calm_stopConnectRetry.trans calm_enterOpenSent
  · exact calm_openWithDelayOpen _
  · exact .refl control

theorem calm_openSentTransitions : control.Calm (control.openSentTransitions newState event).2 := by
  unfold openSentTransitions
  split
  any_goals exact ((calm_sendNotification _).trans (calm_disconnect _)).trans calm_stopConnectRetry
  any_goals exact ((calm_sendNotification _).trans calm_stopConnectRetry).trans (calm_disconnect _)
  any_goals exact (calm_stopDelayOpenTimer.trans calm_stopConnectRetry).trans (calm_enterOpenConfirm _)
  · exact (calm_manuallyStopped true).trans (calm_closeAs _ _)
  · exact (calm_closeAs _ _).trans (calm_report _ rfl)
  · exact calm_closeAs _ _
  · exact (calm_disconnect _).trans calm_startConnectRetry
  · exact calm_stopConnectRetry.trans (calm_disconnect _)
  · exact ((calm_sendNotification _).trans (calm_disconnect _)).trans calm_stopSessionTimers
  · exact .refl control

theorem calm_openConfirmTransitions {newState : BgpState} (other : newState ≠ .established) (event : FsmEvent) :
    control.Calm (control.openConfirmTransitions newState event).2 := by
  unfold openConfirmTransitions
  split
  any_goals exact calm_closeWith _
  · exact calm_handleManualStop
  · exact calm_handleAutomaticStop _
  · exact calm_transitionToIdleOnError _
  · exact (calm_disconnect _).trans calm_stopConnectRetry
  · exact calm_transitionToIdleOnError _
  · exact calm_sendKeepalive
  · exact absurd rfl other
  · exact .refl control

theorem calm_establishedTransitions : control.Calm (control.establishedTransitions newState event).2 := by
  unfold establishedTransitions
  split
  any_goals exact calm_transitionToIdleOnError _
  any_goals exact calm_handleFsmError
  · exact calm_handleManualStop
  · exact calm_handleAutomaticStop _
  · exact calm_closeWith _
  · exact calm_closeWith _
  · exact calm_sendKeepalive
  · exact calm_heardFromPeer
  · exact calm_heardFromPeer
  · exact .refl control

theorem startState_ne : fsm.startState ≠ .established := by
  unfold Fsm.startState
  split <;> decide

theorem handleEvent_established {event : FsmEvent} (reached : fsm.handleEvent event = .established) :
    fsm.state = .established ∨ (fsm.state = .openConfirm ∧ event = .bgpKeepaliveReceived) := by
  unfold Fsm.handleEvent at reached
  cases state : fsm.state with
  | established => exact .inl rfl
  | openConfirm =>
    rw [state] at reached
    cases event <;> first | exact .inr ⟨rfl, rfl⟩ | cases reached
  | idle =>
    rw [state] at reached
    cases event <;> first | cases reached | exact absurd reached startState_ne
  | connect =>
    rw [state] at reached
    cases event <;> cases reached
  | active =>
    rw [state] at reached
    cases event <;> first | cases reached | exact absurd reached startState_ne
  | openSent =>
    rw [state] at reached
    cases event <;> cases reached

def Begins (control : Control) (event : FsmEvent) : Prop := control.fsm.state = .openConfirm ∧ event = .bgpKeepaliveReceived

theorem calm_processEvent {event : FsmEvent} (other : ¬ control.Begins event) : control.Calm (control.processEvent event).2 := by
  have moved : control.Calm { control with fsm.state := control.fsm.handleEvent event } := by
    refine ⟨rfl, rfl, id, fun _ live => ?_, [], (append_nil _).symm, fun _ _ _ member => absurd member not_mem_nil⟩
    rcases handleEvent_established live.1 with same | begins
    · exact ⟨same, live.2⟩
    · exact absurd begins other
  apply calm_andThen
  · apply moved.trans
    cases state : control.fsm.state with
    | idle => exact calm_idleTransitions _
    | connect => exact calm_connectTransitions _ _
    | active => exact calm_activeTransitions _ _
    | openSent => exact calm_openSentTransitions _ _
    | openConfirm =>
      apply calm_openConfirmTransitions
      intro reached
      rcases handleEvent_established reached with same | begins
      · rw [state] at same
        cases same
      · exact other begins
    | established => exact calm_establishedTransitions _ _
  · split
    · exact calm_report _ rfl
    · exact .refl _

theorem calm_tryProcessEvent {event : FsmEvent} (other : ¬ control.Begins event) : control.Calm (control.tryProcessEvent event) :=
  calm_processEvent other

theorem tryProcessEvent_begins (confirmed : control.fsm.state = .openConfirm) : control.tryProcessEvent .bgpKeepaliveReceived =
      ({ control with fsm.state := .established } : Control).enterEstablished.notifyStateChange := by
  unfold tryProcessEvent processEvent Fsm.handleEvent
  rw [confirmed]
  rfl

theorem enterEstablished_fields :
    control.enterEstablished.session = control.session + 1 ∧ control.enterEstablished.capabilities = control.capabilities ∧
      control.enterEstablished.fsm.gracefulRestartNegotiated = control.fsm.gracefulRestartNegotiated ∧
      ∃ added, control.enterEstablished.out = control.out ++ added ∧ ∀ action ∈ added, action.isDisconnect = false := by
  unfold enterEstablished
  dsimp only
  split
  · exact ⟨rfl, rfl, rfl, _, rfl, forall_mem_singleton.mpr rfl⟩
  · exact ⟨rfl, rfl, rfl, [], (append_nil _).symm, fun _ member => absurd member not_mem_nil⟩

theorem begins_session (confirmed : control.fsm.state = .openConfirm) (fresh : control.out = []) :
    ((control.tryProcessEvent .bgpKeepaliveReceived).heardFromPeer).session = control.session + 1 ∧
    (control.Agrees → ((control.tryProcessEvent .bgpKeepaliveReceived).heardFromPeer).Agrees) ∧
    ∀ action ∈ ((control.tryProcessEvent .bgpKeepaliveReceived).heardFromPeer).out, action.isDisconnect = false := by
  obtain ⟨session, capabilities, flag, added, out, quiet⟩ :=
    @enterEstablished_fields ({ control with fsm.state := .established } : Control)
  have heard : ∀ action ∈ (({ control with fsm.state := .established } : Control).enterEstablished.notifyStateChange).out,
      action.isDisconnect = false := by
    refine forall_mem_append.mpr ⟨?_, forall_mem_singleton.mpr rfl⟩
    rw [out, fresh]
    exact quiet
  have agrees : control.Agrees → (({ control with fsm.state := .established } : Control).enterEstablished.notifyStateChange).Agrees := by
    intro agrees
    exact (flag.trans agrees).trans (congrArg (fun capabilities => capabilities.gracefulRestart.isSome) capabilities).symm
  rw [tryProcessEvent_begins confirmed]
  unfold heardFromPeer
  split <;> exact ⟨session, agrees, heard⟩

theorem calm_orDisconnect (calm : control.Calm outcome.2) : control.Calm (orDisconnect outcome reason) := by
  unfold orDisconnect
  split
  · exact calm
  · exact calm.trans (calm_disconnect reason)

theorem calm_connectionReady : control.Calm control.connectionReady := by
  unfold connectionReady
  split
  · exact calm_stopConnectRetry.trans calm_startDelayOpenTimer
  · exact calm_orDisconnect _ (calm_stopConnectRetry.trans (calm_processEvent fun begins => by cases begins.2))

theorem calm_sendOpenOrDisconnect : control.Calm control.sendOpenOrDisconnect.2 := by
  unfold sendOpenOrDisconnect
  split
  · exact calm_sendOpen
  · exact calm_sendOpen.trans (calm_disconnect _)

theorem calm_receivedOpen : control.Calm { control with receivedOpen := some message } := .of_fields rfl rfl rfl rfl rfl rfl rfl

theorem calm_handleOpen : control.Calm (control.handleOpen message).2 :=
  (calm_receivedOpen message).trans (calm_processEvent fun begins => by cases begins.2)

theorem calm_processDelayOpen : control.Calm (control.processDelayOpen message) :=
  calm_orDisconnect _ ((calm_stopDelayOpenTimer.trans (calm_receivedOpen message)).trans
    (calm_processEvent fun begins => by cases begins.2))

theorem calm_resolveCollisionDialedWins : control.Calm control.resolveCollisionDialedWins := .of_fields rfl rfl rfl rfl rfl rfl rfl

theorem calm_connection (unestablished : control.fsm.state ≠ .established) (conn pending : Option Nat) (dialed : Bool) :
    control.Calm { control with conn := conn, connPending := pending, connDialed := dialed } :=
  .of_down rfl rfl id (fun _ => not_live_of_state unestablished) ⟨[], (append_nil _).symm⟩

theorem calm_promotePendingAfterConnLoss (unestablished : control.fsm.state ≠ .established) (pending : Nat) :
    control.Calm (control.promotePendingAfterConnLoss pending) := by
  have replaced : control.Calm (control.replaceConnWithPending pending) := calm_connection unestablished _ _ _
  unfold promotePendingAfterConnLoss
  dsimp only
  split
  · exact (replaced.trans calm_stopDelayOpenTimer).trans calm_connectionReady
  · exact replaced.trans calm_sendOpenOrDisconnect

theorem calm_adoptWithDelayOpen (message : Option OpenMessage) : control.Calm (control.adoptWithDelayOpen message) := by
  cases message with
  | none => exact calm_stopDelayOpenTimer.trans calm_connectionReady
  | some message => exact calm_processDelayOpen message

theorem calm_openPromoted (message : Option OpenMessage) : control.Calm (control.openPromoted message) := by
  cases message with
  | none => exact calm_sendOpenOrDisconnect
  | some message =>
    unfold openPromoted
    dsimp only
    split
    · exact calm_sendOpenOrDisconnect.trans (calm_orDisconnect _ (calm_handleOpen message))
    · exact calm_sendOpenOrDisconnect

theorem sendNotification_state :
    (control.sendNotification notif).2.fsm = control.fsm ∧ (control.sendNotification notif).2.grState = control.grState := by
  unfold sendNotification write writeTo
  split
  · split
    · exact ⟨rfl, rfl⟩
    · split <;> exact ⟨rfl, rfl⟩
  · exact ⟨rfl, rfl⟩

theorem calm_adoptPendingAfterCollisionLoss (unestablished : control.fsm.state ≠ .established) (message : Option OpenMessage) :
    control.Calm (control.adoptPendingAfterCollisionLoss message) := by
  unfold adoptPendingAfterCollisionLoss
  extract_lets delayOpen told
  have calm : control.Calm told := by
    unfold told
    split
    · exact .refl control
    · exact calm_sendNotification _
  have same : told.fsm = control.fsm := by
    unfold told
    split
    · rfl
    · exact (sendNotification_state _).1
  have replaced : ∀ pending, control.Calm (told.replaceConnWithPending pending) := fun _ =>
    calm.trans (calm_connection (same ▸ unestablished) _ _ _)
  split
  · exact calm
  · split
    · exact (replaced _).trans (calm_adoptWithDelayOpen _)
    · exact (replaced _).trans (calm_openPromoted _)

theorem calm_handleConnPendingMsg (unestablished : control.fsm.state ≠ .established) (incoming : Incoming) :
    control.Calm (control.handleConnPendingMsg incoming) := by
  unfold handleConnPendingMsg
  split
  · unfold resolveCollision
    split
    · exact calm_resolveCollisionDialedWins
    · exact calm_adoptPendingAfterCollisionLoss unestablished _
  · exact calm_resolveCollisionDialedWins

theorem calm_trackNotification : control.Calm (control.trackNotification notif) := by
  unfold trackNotification
  split
  · exact .of_fields rfl rfl rfl rfl rfl rfl rfl
  · exact .refl control

theorem trackNotification_fsm : (control.trackNotification notif).fsm = control.fsm := by
  unfold trackNotification
  split <;> rfl

theorem calm_handleNotificationReceived : control.Calm (control.handleNotificationReceived notif) := by
  unfold handleNotificationReceived
  split <;> exact calm_tryProcessEvent fun begins => by cases begins.2

theorem not_begins_parseError (notif : Option NotificationMessage) : ¬ control.Begins (parseErrorToFsmEvent notif) := by
  intro begins
  have event := begins.2
  unfold parseErrorToFsmEvent at event
  split at event
  · cases event
  · split at event <;> cases event

theorem calm_handleDelayOpenMessage (unestablished : control.fsm.state ≠ .established) (incoming : Incoming) :
    control.Calm (control.handleDelayOpenMessage incoming) := by
  unfold handleDelayOpenMessage
  split
  · split
    · exact calm_adoptPendingAfterCollisionLoss unestablished _
    · exact calm_resolveCollisionDialedWins.trans (calm_processDelayOpen _)
  · exact (calm_trackNotification _).trans (calm_handleNotificationReceived _)
  · exact calm_disconnect _
  · exact calm_tryProcessEvent (not_begins_parseError _)
  · split
    · exact calm_promotePendingAfterConnLoss unestablished _
    · exact calm_tryProcessEvent (not_begins_parseError _)
  · split
    · exact calm_promotePendingAfterConnLoss unestablished _
    · exact calm_tryProcessEvent fun begins => by cases begins.2

theorem calm_failWith (notif : Option NotificationMessage) : control.Calm (control.failWith notif) := by
  cases notif with
  | none => exact calm_disconnect _
  | some notif => exact (calm_sendNotification _).trans (calm_disconnect _)

theorem calm_hardReset : control.Calm control.hardReset := (calm_write _).trans (calm_tryProcessEvent fun begins => by cases begins.2)

theorem calm_adoptRestarted (established : control.fsm.state = .established) (negotiated : control.grNegotiated = true) (accepted : Nat) :
    control.Calm { (control.disconnect .remoteNoNotification).tryProcessEvent .tcpConnectionConfirmed with
      conn := some accepted, connDialed := false } := by
  obtain ⟨_, state, flag, _⟩ := @disconnect_fields control .remoteNoNotification
  have ended := @calm_disconnect control .remoteNoNotification
  have moved : (control.disconnect .remoteNoNotification).Calm
      ((control.disconnect .remoteNoNotification).tryProcessEvent .tcpConnectionConfirmed) :=
    calm_tryProcessEvent fun begins => by cases begins.2
  have calm := ended.trans moved
  refine .of_down calm.session calm.config calm.agrees ?_ (let ⟨added, out, _⟩ := calm.out; ⟨added, out⟩)
  intro agrees live
  have restarts : control.fsm.gracefulRestartNegotiated = true := by
    rw [agrees]
    cases capability : control.capabilities.gracefulRestart with
    | none =>
      rw [grNegotiated, capability] at negotiated
      cases negotiated
    | some _ => rfl
  have reached : ((control.disconnect .remoteNoNotification).tryProcessEvent .tcpConnectionConfirmed).fsm.state = .connect := by
    have next : (control.disconnect .remoteNoNotification).fsm.handleEvent .tcpConnectionConfirmed = .connect := by
      rw [Fsm.handleEvent, state, established]
      dsimp only [Fsm.fromEstablished]
      rw [flag, restarts]
      rfl
    unfold tryProcessEvent processEvent
    rw [next, state, established]
    rfl
  have up := live.1
  rw [reached] at up
  cases up

theorem calm_onConnAccepted (accepted : Nat) : control.Calm (control.onConnAccepted accepted) := by
  have held : control.Calm
      (if control.connDialed && control.connPending.isNone then { control with connPending := some accepted } else control) := by
    split
    · exact .of_fields rfl rfl rfl rfl rfl rfl rfl
    · exact .refl control
  have adopted : control.fsm.state ≠ .established → control.Calm { control with conn := some accepted, connDialed := false } :=
    fun unestablished => calm_connection unestablished _ _ _
  unfold onConnAccepted
  cases state : control.fsm.state with
  | idle =>
    dsimp only
    split
    · apply (adopted (by rw [state]; decide)).trans
      apply calm_tryProcessEvent
      intro begins
      have phase : control.fsm.state = .openConfirm := begins.1
      rw [state] at phase
      cases phase
    · exact .refl control
  | connect | active =>
    dsimp only
    split
    · exact (adopted (by rw [state]; decide)).trans calm_connectionReady
    · exact held
  | openSent => exact held
  | openConfirm => exact .refl control
  | established =>
    dsimp only
    split
    · exact calm_writeTo _ _
    · rename_i negotiated
      exact calm_adoptRestarted state (by simpa using negotiated) accepted

end

end Control

end Bgpgg.Peer
