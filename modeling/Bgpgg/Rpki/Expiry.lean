import Bgpgg.Rpki.CacheSession

namespace Bgpgg.Rpki

open Net Lib CacheSession

structure Timers where
  refresh : Nat
  retry : Nat
  expire : Nat

def Timers.getTimers (given : Timers) : Timers :=
  let refresh := max 1 (min given.refresh 86400)
  let retry := max 1 (min given.retry 7200)
  ⟨refresh, retry, max (max 600 (min given.expire 172800)) (max refresh retry + 1)⟩

-- A session under its clock. due is the moment of the last End of Data plus the expire interval it gave;
-- expired says that Expired has been sent to the manager since.
structure TimedSession where
  session : CacheSession
  configured : Option Nat
  expireInterval : Nat
  connected : Bool
  now : Nat
  expireDeadline : Nat
  due : Option Nat
  expired : Bool

inductive TimedStep where
  | second
  | connect (writes : Bool)
  | lost
  | receive (writes : Bool) (message : Message) (timers : Timers)
  | refresh (writes : Bool)

namespace TimedSession

def new (address : SocketAddr) (configured : Option Nat) : TimedSession :=
  ⟨.new address, configured, configured.getD 7200, false, 0, configured.getD 7200, none, false⟩

variable (state : TimedSession)

-- The timer of run_session: it fires in the second of its deadline, and only while there is a connection.
def tick : TimedSession :=
  let later := { state with now := state.now + 1 }
  if state.connected && decide (state.expireDeadline ≤ later.now) then
    { later with
      session := state.session.handleExpire, expired := true, expireDeadline := later.now + state.expireInterval }
  else later

def connect (writes : Bool) : TimedSession := match state.session.startSession writes with
  | none => state
  | some (session, _) =>
    { state with session := session, connected := true, expireDeadline := state.now + state.expireInterval }

def after (handled : Handled) : TimedSession := { state with session := handled.session, connected := handled.result.isNone }

def receive (writes : Bool) (message : Message) (timers : Timers) : TimedSession :=
  let handled := state.session.handleMessage writes message
  if handled.batch.isSome then
    let interval := state.configured.getD timers.getTimers.expire
    { state.after handled with
      expireInterval := interval, expireDeadline := state.now + interval, due := some (state.now + timers.expire), expired := false }
  else state.after handled

-- In the backoff between two connections only time passes.
def step (state : TimedSession) : TimedStep → TimedSession
  | .second => state.tick
  | .connect writes => if state.connected then state else state.connect writes
  | .lost => { state with connected := false }
  | .receive writes message timers => if state.connected then state.receive writes message timers else state
  | .refresh writes => if state.connected then state.after (state.session.handleRefresh writes) else state

end TimedSession

namespace CacheSession

variable (session : CacheSession)

def prefixFits (isAnnouncement : Bool) (vrp : Option Vrp) : Bool := session.syncing && vrp.all fun vrp =>
  if isAnnouncement then vrp ∉ session.pendingAnnounced && !(session.hasSerial && vrp ∈ session.localVrps)
  else session.hasSerial && vrp ∈ session.localVrps

def goesOn (writes : Bool) : Message → Bool
  | .serialNotify _ serial => writes || session.serialNumber.any fun ourSerial => serialAtLeast ourSerial serial
  | .cacheResponse sessionId => (session.sessionId.all fun expected => sessionId == expected) && !session.syncing
  | .ipv4Prefix pdu => session.prefixFits pdu.isAnnouncement (pduVrp IpAddr.v4 pdu)
  | .ipv6Prefix pdu => session.prefixFits pdu.isAnnouncement (pduVrp IpAddr.v6 pdu)
  | .endOfData _ _ => session.syncing
  | .cacheReset => writes
  | .errorReport code _ => code == .noDataAvailable
  | .routerKey | .resetQuery | .serialQuery _ _ => true

def takesTimers : Message → Bool
  | .endOfData _ _ => session.syncing
  | _ => false

end CacheSession

namespace TimedSession

variable (state : TimedSession)

-- Until the VRPs of an End of Data expire nothing ends the connection, and the session takes
-- no longer interval than the given one.
def uninterrupted : TimedStep → Bool
  | .second | .connect _ => true
  | .lost => state.due.isNone || state.expired
  | .receive writes message timers => (state.due.isNone || state.expired || state.session.goesOn writes message) &&
      (!state.session.takesTimers message || decide (state.configured.getD timers.getTimers.expire ≤ timers.expire))
  | .refresh writes => state.due.isNone || state.expired || writes || state.session.sessionId.isNone || !state.session.hasSerial

end TimedSession

namespace CacheSession

section

variable {session : CacheSession} {writes : Bool}

theorem handleMsgPrefix_result {isAnnouncement : Bool} {vrp : Option Vrp} (fits : session.prefixFits isAnnouncement vrp = true) :
    (session.handleMsgPrefix isAnnouncement vrp).result = none := by
  rw [prefixFits, Bool.and_eq_true] at fits
  obtain ⟨syncing, fits⟩ := fits
  cases vrp with
  | none => simp [handleMsgPrefix, syncing, goOn]
  | some vrp =>
    cases isAnnouncement with
    | true =>
      have fresh : vrp ∉ session.pendingAnnounced ∧ (session.serialNumber.isSome = false ∨ vrp ∉ session.localVrps) := by
        simpa [hasSerial] using fits
      rcases fresh with ⟨unheard, reset | unknown⟩
      · simp [handleMsgPrefix, syncing, unheard, goOn, hasSerial, reset]
      · simp [handleMsgPrefix, syncing, unheard, goOn, unknown]
    | false =>
      have known : session.hasSerial = true ∧ vrp ∈ session.localVrps := by simpa using fits
      simp [handleMsgPrefix, syncing, known, goOn]

theorem handleMessage_result {message : Message} (goes : session.goesOn writes message = true) :
    (session.handleMessage writes message).result = none := by
  cases message with
  | ipv4Prefix pdu | ipv6Prefix pdu => exact handleMsgPrefix_result goes
  | errorReport code text => cases code <;> first | rfl | cases goes
  | routerKey | resetQuery | serialQuery => rfl
  | cacheResponse sessionId =>
    have same : (session.sessionId.any fun expected => sessionId != expected) = false ∧ session.syncing = false := by
      simpa [goesOn, Option.any_eq_false, Option.all_eq_true] using goes
    simp [handleMessage, handleMsgCacheResponse, same, goOn]
  | serialNotify | endOfData | cacheReset =>
    simp only [handleMessage, handleMsgSerialNotify, handleMsgEndOfData, handleMsgCacheReset]
    split_ifs <;> simp_all [goesOn, goOn]

theorem handleRefresh_result (goes : writes = true ∨ session.sessionId = none ∨ session.hasSerial = false) :
    (session.handleRefresh writes).result = none := by
  rw [handleRefresh]
  split
  · rename_i named numbered
    rw [hasSerial, numbered, named] at goes
    simp_all
  · rfl

end

theorem handleMessage_batch (session : CacheSession) (writes : Bool) (message : Message) :
    (session.handleMessage writes message).batch.isSome = true ∧ session.takesTimers message = true ∧
        (session.handleMessage writes message).result = none ∨
      (session.handleMessage writes message).batch = none ∧
        (session.localVrps = ∅ → (session.handleMessage writes message).session.localVrps = ∅) := by
  cases message with
  | endOfData sessionId serial =>
    rw [handleMessage, handleMsgEndOfData]
    split
    · exact .inr ⟨rfl, id⟩
    · rename_i syncing
      exact .inl ⟨rfl, by simpa [takesTimers] using syncing, rfl⟩
  | cacheReset =>
    rw [handleMessage, handleMsgCacheReset]
    split <;> exact .inr ⟨rfl, fun _ => rfl⟩
  | serialNotify | cacheResponse | ipv4Prefix | ipv6Prefix =>
    simp only [handleMessage, handleMsgSerialNotify, handleMsgCacheResponse, handleMsgPrefix]
    repeat' split
    all_goals exact .inr ⟨rfl, id⟩
  | errorReport code => cases code <;> exact .inr ⟨rfl, id⟩
  | routerKey | resetQuery | serialQuery => exact .inr ⟨rfl, id⟩

end CacheSession

namespace TimedSession

structure Tracked (state : TimedSession) : Prop where
  waiting : ∀ due, state.due = some due → state.expired = false →
    state.connected = true ∧ state.now ≤ state.expireDeadline ∧ state.expireDeadline ≤ due
  cleared : state.expired = true → state.session.localVrps = ∅

theorem Tracked.step {state : TimedSession} (tracked : state.Tracked) (step : TimedStep) (kept : state.uninterrupted step = true) :
    (state.step step).Tracked := by
  cases step with
  | second =>
    rw [TimedSession.step, tick]
    split
    · exact ⟨fun _ _ => nofun, fun _ => rfl⟩
    · next early =>
      refine ⟨fun due last unsent => ?_, tracked.cleared⟩
      obtain ⟨connected, before, deadline⟩ := tracked.waiting due last unsent
      simp only [connected, Bool.true_and, decide_eq_true_eq] at early
      exact ⟨connected, Nat.le_of_not_le early, deadline⟩
  | connect writes =>
    rw [TimedSession.step]
    split
    · exact tracked
    · next down =>
      rw [connect, startSession]
      cases writes with
      | false => exact tracked
      | true => exact ⟨fun due last unsent => absurd (tracked.waiting due last unsent).1 down, tracked.cleared⟩
  | lost =>
    refine ⟨fun due last unsent => ?_, tracked.cleared⟩
    simp [uninterrupted, show state.due = some due from last, show state.expired = false from unsent] at kept
  | receive writes message timers =>
    simp only [uninterrupted, Bool.and_eq_true] at kept
    rw [TimedSession.step]
    split
    · rw [receive]
      obtain ⟨batch, takes, goes⟩ | ⟨none, cleared⟩ := state.session.handleMessage_batch writes message
      · simp only [batch, if_true, after, goes]
        refine ⟨fun due last _ => ?_, nofun⟩
        cases last
        refine ⟨rfl, Nat.le_add_right _ _, Nat.add_le_add_left ?_ _⟩
        simpa [takes] using kept.2
      · simp only [none, Option.isSome_none, Bool.false_eq_true, if_false]
        refine ⟨fun due last unsent => ⟨?_, (tracked.waiting due last unsent).2⟩, fun sent => cleared (tracked.cleared sent)⟩
        have goes : state.session.goesOn writes message = true := by simpa [show state.due = some due from last,
          show state.expired = false from unsent] using kept.1
        rw [after, handleMessage_result goes]
        rfl
    · exact tracked
  | refresh writes =>
    rw [TimedSession.step]
    split
    · refine ⟨fun due last unsent => ⟨?_, (tracked.waiting due last unsent).2⟩, fun sent => ?_⟩
      · have goes : writes = true ∨ state.session.sessionId = none ∨ state.session.hasSerial = false := by
          simpa [uninterrupted, show state.due = some due from last, show state.expired = false from unsent, or_assoc] using kept
        rw [after, handleRefresh_result goes]
        rfl
      have same : (state.session.handleRefresh writes).session.localVrps = state.session.localVrps := by
        rw [handleRefresh]
        repeat' split
        all_goals rfl
      exact same.trans (tracked.cleared sent)
    · exact tracked

end TimedSession

end Bgpgg.Rpki
