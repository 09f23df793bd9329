import Bgpgg.Peer.UpdateOrder

namespace Bgpgg.Peer.PeerTask

open Net Lib Server

section

variable (task : PeerTask)

-- The task has taken a shutdown, or its queue has ended: a receiver sees that a queue is
-- closed when it has taken everything in it.
def Gone : Prop := task.shutdownTaken = true ∨ (task.closed = true ∧ task.queue = [])

instance (task : PeerTask) : Decidable task.Gone := inferInstanceAs (Decidable (_ ∨ _))

def Farewell (task after : PeerTask) : Prop := after.log = task.log ∨
    ∃ session conn subcode, after.log = task.log ++ [.action session (.write conn (.notification ⟨.cease subcode, []⟩))]

def restartTimerRunning : Bool := (task.control.grState.bind GracefulRestartState.restartTimer).isSome

def nextIsShutdown : Bool := task.queue.head?.any fun entry => PeerOp.isShutdown entry.2

def lastIsShutdown : Bool := task.queue.getLast?.any fun entry => PeerOp.isShutdown entry.2

-- A shutdown is not taken in Connect or Active nor while the task's restart timer runs. The
-- queue is closed behind a shutdown, or on an idle task that then looks at its queue before
-- its idle hold timer fires.
def endsWell (input : Input) : Bool := match input.event with
  | .close => !task.running || task.closed || task.lastIsShutdown ||
      (task.queue.isEmpty && task.control.fsm.state == .idle && !task.restartTimerRunning)
  | .idleHold => !(task.closed && task.queue.isEmpty)
  | event => !(task.takesOp event && task.nextIsShutdown) || (!task.waitsForConnection && !task.restartTimerRunning)

end

structure Mailbox (task after : PeerTask) : Prop where
  queue : after.queue = task.queue
  closed : after.closed = task.closed
  shutdownTaken : after.shutdownTaken = task.shutdownTaken
  running : after.running = task.running

section

variable {task middle after : PeerTask}

variable (update : Stamp × List UInt8) (stamp : Stamp) (afiSafi : AfiSafi)

theorem Mailbox.refl (task : PeerTask) : task.Mailbox task := ⟨rfl, rfl, rfl, rfl⟩

theorem Mailbox.trans (first : task.Mailbox middle) (second : middle.Mailbox after) : task.Mailbox after :=
  ⟨second.queue.trans first.queue, second.closed.trans first.closed, second.shutdownTaken.trans first.shutdownTaken,
    second.running.trans first.running⟩

theorem Moves.mailbox (moves : task.Moves after) : task.Mailbox after := by
  induction moves with
  | trans first second early late => exact early.trans late
  | _ => exact ⟨rfl, rfl, rfl, rfl⟩

theorem mailbox_perform (act : Control → Control) : task.Mailbox (task.perform act) := ⟨rfl, rfl, rfl, rfl⟩

theorem mailbox_handleRouteRefresh : task.Mailbox (task.handleRouteRefresh afiSafi .eoRR) := by
  unfold handleRouteRefresh
  split
  · exact .refl task
  · dsimp only
    split <;> exact ⟨rfl, rfl, rfl, rfl⟩

theorem mailbox_write (message : Nat → Effect) : task.Mailbox (task.write message).2 := by
  rcases @write_cases task message with ⟨conn, left, wrote⟩ | failed
  · rw [wrote]
    exact ⟨rfl, rfl, rfl, rfl⟩
  · rw [failed]
    exact .refl task

theorem mailbox_sendUpdate : task.Mailbox (task.sendUpdate update).2 := by
  have wrote := @mailbox_write task fun conn => .update task.control.session conn update.1 update.2
  unfold sendUpdate
  dsimp only
  split
  · exact wrote.trans ⟨rfl, rfl, rfl, rfl⟩
  · exact wrote

theorem mailbox_sendUpdateNow : task.Mailbox (task.sendUpdateNow update) := by
  have sent := @mailbox_sendUpdate task update
  unfold sendUpdateNow
  dsimp only
  split
  · exact sent.trans ⟨rfl, rfl, rfl, rfl⟩
  · exact sent.trans (mailbox_perform _)

theorem mailbox_sendEorMarkers (afiSafis : List AfiSafi) : ∀ {task : PeerTask}, task.Mailbox (task.sendEorMarkers stamp afiSafis) := by
  induction afiSafis with
  | nil => exact fun {task} => .refl task
  | cons afiSafi rest ih =>
    intro task
    unfold sendEorMarkers
    dsimp only
    split
    · exact ih
    · split
      · exact ((mailbox_write _).trans (Moves.modifyGr _).mailbox).trans ih
      · exact mailbox_write _

theorem mailbox_sendRouteRefresh (subtype : RouteRefreshSubtype) : task.Mailbox (task.sendRouteRefresh stamp afiSafi subtype) := by
  unfold sendRouteRefresh
  split
  · exact .refl task
  · split
    · exact .refl task
    · exact mailbox_write _

theorem mailbox_localRibSent : task.Mailbox (task.localRibSent stamp afiSafi) := by
  have noted := (@Moves.modifyGr task fun state => { state with locRibReceived := afiSafi :: state.locRibReceived }).mailbox
  unfold localRibSent
  dsimp only
  split
  · exact noted
  · split
    · exact noted.trans (mailbox_sendEorMarkers _ _)
    · exact noted

theorem mailbox_establishedOp {elapsed : Bool} {stamp : Stamp} {op : PeerOp} (served : PeerOp.isServed op = true) :
    task.Mailbox (establishedOp elapsed task (some (stamp, op))) := by
  cases op with
  | sendUpdate bytes =>
    unfold establishedOp
    dsimp only
    split
    · exact mailbox_sendUpdateNow _
    · exact ⟨rfl, rfl, rfl, rfl⟩
  | sendRouteRefresh afiSafi subtype => exact mailbox_sendRouteRefresh _ _ _
  | localRibSent afiSafi => exact mailbox_localRibSent _ _
  | _ => cases served

theorem mailbox_sendPending (updates : List (Stamp × List UInt8)) : ∀ {task : PeerTask}, task.Mailbox (task.sendPending updates) := by
  induction updates with
  | nil => exact ⟨rfl, rfl, rfl, rfl⟩
  | cons update rest ih =>
    intro task
    have sent := @mailbox_sendUpdate task update
    unfold sendPending
    dsimp only
    split
    · exact sent.trans ih
    · exact sent.trans (mailbox_perform _)

end

-- The task runs, and its queue ends, if at all, behind a shutdown that it will come to.
structure Alive (task : PeerTask) : Prop where
  running : task.running = true
  untaken : task.shutdownTaken = false
  behind : task.closed = true → task.lastIsShutdown = true

-- Nothing is left that could act: the task has stopped, or it is idle before a queue that
-- has ended, and no restart timer will fire.
structure Silent (task : PeerTask) : Prop where
  gone : task.Gone
  timer : task.restartTimerRunning = false
  still : task.running = false ∨ (task.closed = true ∧ task.queue = [] ∧ task.control.fsm.state = .idle)

section

variable {task after : PeerTask} {input : Input}

theorem Alive.not_gone (alive : task.Alive) : ¬ task.Gone := by
  intro gone
  rcases gone with taken | ⟨closed, empty⟩
  · exact absurd (alive.untaken.symm.trans taken) (by decide)
  · have last := alive.behind closed
    rw [lastIsShutdown, empty] at last
    cases last

theorem Alive.mailbox (alive : task.Alive) (mailbox : task.Mailbox after) : after.Alive := by
  refine ⟨mailbox.running.trans alive.running, mailbox.shutdownTaken.trans alive.untaken, ?_⟩
  intro closed
  rw [lastIsShutdown, mailbox.queue]
  exact alive.behind (mailbox.closed.symm.trans closed)

theorem Alive.took {stamp : Stamp} {op : PeerOp} {rest : List (Stamp × PeerOp)} (alive : task.Alive)
    (queue : task.queue = (stamp, op) :: rest) (other : PeerOp.isShutdown op = false) : (task.took op rest).Alive := by
  refine ⟨alive.running, ?_, ?_⟩
  · rw [PeerTask.took, alive.untaken, other]
    rfl
  · intro closed
    have last := alive.behind closed
    rw [lastIsShutdown, queue] at last
    cases rest with
    | nil => exact absurd (other.symm.trans last) (by decide)
    | cons next rest => exact last

theorem Silent.fireGrTimer (silent : task.Silent) : task.fireGrTimer = task := by
  have timer := silent.timer
  unfold restartTimerRunning at timer
  unfold PeerTask.fireGrTimer
  split
  · rfl
  · rename_i running
    rw [running] at timer
    cases timer

theorem farewell_sendNotification (task : PeerTask) (subcode : CeaseSubcode) :
    task.Farewell (task.perform fun control => (control.sendNotification ⟨.cease subcode, []⟩).2).stop := by
  unfold Farewell perform performs Control.sendNotification Control.write Control.writeTo
  dsimp only
  split
  · split
    · exact .inl (List.append_nil _)
    · split
      · exact .inl (List.append_nil _)
      · exact .inr ⟨_, _, _, rfl⟩
  · exact .inl (List.append_nil _)

theorem restartTimerRunning_sendNotification (task : PeerTask) (notif : NotificationMessage) :
    (task.perform fun control => (control.sendNotification notif).2).restartTimerRunning = task.restartTimerRunning := by
  have same := (@Control.sendNotification_state task.fresh notif).2
  have timer := congrArg (fun state => (Option.bind state GracefulRestartState.restartTimer).isSome) same
  exact timer

-- A step of a task that has not been told to go: it goes on, or it leaves without a word
-- but for the Cease.
theorem Alive.acted {event : Event} (alive : task.Alive) (acts : task.Acts event after)
    (well : task.takesOp event = true → task.nextIsShutdown = true → task.waitsForConnection = false ∧ task.restartTimerRunning = false) :
    after.Alive ∨ (after.Silent ∧ task.Farewell after) := by
  have shut : ∀ {stamp : Stamp} {subcode : CeaseSubcode} {rest : List (Stamp × PeerOp)},
      task.queue = (stamp, .shutdown subcode) :: rest → task.nextIsShutdown = true := by
    intro stamp subcode rest queue
    rw [nextIsShutdown, queue]
    rfl
  cases acts with
  | moves waits moves => exact .inl (alive.mailbox moves.mailbox)
  | ends idle takes empty closed => exact absurd (.inr ⟨closed, empty⟩) alive.not_gone
  | @takes stamp op rest _ takes queue stays moves =>
    have other : PeerOp.isShutdown op = false := by
      rcases stays with other | waiting
      · exact other
      · cases op with
        | shutdown subcode => exact absurd ((well takes (shut queue)).1.symm.trans waiting) (by decide)
        | _ => rfl
    exact .inl ((alive.took queue other).mailbox moves.mailbox)
  | leaves idle takes queue =>
    exact .inr ⟨⟨.inl (Bool.or_true _), (well takes (shut queue)).2, .inl rfl⟩, .inl rfl⟩
  | @ceases stamp subcode rest connected waiting takes queue =>
    have timer := (restartTimerRunning_sendNotification (task.took (.shutdown subcode) rest) ⟨.cease subcode, []⟩).trans
      (well takes (shut queue)).2
    exact .inr ⟨⟨.inl (Bool.or_true _), timer, .inl rfl⟩, farewell_sendNotification _ subcode⟩
  | @serves elapsed stamp op rest live same queue served =>
    have other : PeerOp.isShutdown op = false := by
      cases op with
      | shutdown subcode => cases served
      | _ => rfl
    exact .inl ((alive.took queue other).mailbox (mailbox_establishedOp served))
  | begins confirmed same => exact .inl (alive.mailbox (mailbox_perform _))
  | refreshes phase same => exact .inl (alive.mailbox (mailbox_handleRouteRefresh _))
  | sends live same paced =>
    have emptied : task.Mailbox { task with pendingUpdates := [] } := ⟨rfl, rfl, rfl, rfl⟩
    exact .inl (alive.mailbox (emptied.trans (mailbox_sendPending _)))

theorem Alive.queued (alive : task.Alive) (stillOpen : task.closed = false) (session : Nat) (op : PeerOp) :
    ({ task with queue := task.queue ++ [(⟨task.queued, session⟩, op)], queued := task.queued + 1 } : PeerTask).Alive :=
  ⟨alive.running, alive.untaken, fun closed => absurd (stillOpen.symm.trans closed) (by decide)⟩

theorem Alive.close (alive : task.Alive) (well : task.closed = true ∨ task.lastIsShutdown = true ∨
      (task.queue = [] ∧ task.control.fsm.state = .idle ∧ task.restartTimerRunning = false)) :
    { task with closed := true }.Alive ∨ { task with closed := true }.Silent := by
  rcases well with closed | last | ⟨empty, idle, timer⟩
  · exact .inl ⟨alive.running, alive.untaken, fun _ => alive.behind closed⟩
  · exact .inl ⟨alive.running, alive.untaken, fun _ => last⟩
  · exact .inr ⟨.inr ⟨rfl, empty⟩, timer, .inr ⟨rfl, empty, idle⟩⟩

theorem Alive.step (alive : task.Alive) (well : task.endsWell input = true) :
    (task.step input).Alive ∨ ((task.step input).Silent ∧ task.Farewell (task.step input)) := by
  have unfolded := well
  unfold endsWell at unfolded
  unfold PeerTask.step
  split
  · split
    · exact .inl alive
    · rename_i stillOpen
      exact .inl (alive.queued (Bool.eq_false_of_not_eq_true stillOpen) _ _)
  · rename_i event
    simp only [event, alive.running, Bool.or_eq_true, Bool.and_eq_true, List.isEmpty_iff,
      beq_iff_eq, Bool.not_eq_true'] at unfolded
    rcases alive.close (by tauto) with alive | silent
    · exact .inl alive
    · exact .inr ⟨silent, .inl rfl⟩
  · exact .inl (alive.mailbox moves_fireGrTimer.mailbox)
  · rw [if_pos alive.running]
    have sameTask : { task with control.writesLeft := input.writes }.Alive := ⟨alive.running, alive.untaken, alive.behind⟩
    apply sameTask.acted (acts _ _)
    intro takes next
    have takes : task.takesOp input.event = true := takes
    have next : task.nextIsShutdown = true := next
    split at unfolded
    · rename_i event
      rw [event] at takes
      cases takes
    · rename_i event
      rw [event] at takes
      cases takes
    · rw [takes, next] at unfolded
      have apart : task.waitsForConnection = false ∧ task.restartTimerRunning = false := by simpa using unfolded
      exact apart

theorem Silent.act {event : Event} (silent : task.Silent) (running : task.running = true) (noRestart : event ≠ .idleHold) :
    (task.act event).Silent ∧ (task.act event).log = task.log := by
  obtain ⟨closed, empty, idle⟩ := silent.still.resolve_left (by rw [running]; decide)
  unfold PeerTask.act
  rw [idle]
  dsimp only
  unfold handleIdle
  split
  · unfold receiveOp
    rw [empty]
    rw [if_pos closed]
    exact ⟨⟨silent.gone, silent.timer, .inl rfl⟩, rfl⟩
  · exact absurd rfl noRestart
  · exact ⟨silent, rfl⟩

theorem Silent.step (silent : task.Silent) (well : task.endsWell input = true) :
    (task.step input).Silent ∧ (task.step input).log = task.log := by
  unfold PeerTask.step
  split
  · split
    · exact ⟨silent, rfl⟩
    · rename_i stillOpen
      have taken : task.shutdownTaken = true := silent.gone.resolve_right fun ended => stillOpen ended.1
      have stopped : task.running = false := silent.still.resolve_right fun ended => stillOpen ended.1
      exact ⟨⟨.inl taken, silent.timer, .inl stopped⟩, rfl⟩
  · refine ⟨⟨?_, silent.timer, ?_⟩, rfl⟩
    · exact silent.gone.imp_right fun ended => ⟨rfl, ended.2⟩
    · exact silent.still.imp_right fun ended => ⟨rfl, ended.2⟩
  · rw [silent.fireGrTimer]
    exact ⟨silent, rfl⟩
  · split
    · rename_i running
      have sameTask : { task with control.writesLeft := input.writes }.Silent := ⟨silent.gone, silent.timer, silent.still⟩
      apply sameTask.act running
      intro event
      obtain ⟨closed, empty, _⟩ := silent.still.resolve_left (by rw [running]; decide)
      rw [endsWell, event] at well
      rw [closed, empty] at well
      cases well
    · exact ⟨silent, rfl⟩

end

section

variable {config : TaskConfig} {speaker : Speaker} {task : PeerTask}

end

end Bgpgg.Peer.PeerTask
