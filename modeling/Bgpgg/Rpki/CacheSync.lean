import Bgpgg.Rpki.CacheSession

namespace Bgpgg.Rpki

open Net Lib CacheSession List

-- A cache that keeps every version of its data, by session identifier and serial.
structure Cache where
  sessionId : UInt16
  serial : Option UInt32
  history : AssocMap (UInt16 × UInt32) (Finset Vrp)

inductive CacheEvent where
  | batch (batch : VrpBatch)
  | disconnected (addr : SocketAddr)
  | expired (addr : SocketAddr)
deriving DecidableEq

structure Link where
  session : CacheSession
  connected : Bool
  toCache : List Message
  toSession : List Message
  cache : Cache
  managerTx : List CacheEvent

inductive Answer where
  | data (pdus : List Message)
  | reset
  | error (code : ErrorCode) (text : String)

-- Timers fire at any time, a connection can be lost at any time, and whether a write
-- succeeds is part of the event. A message out of turn can stand anywhere in the stream.
inductive LinkEvent where
  | connect (writes : Bool)
  | disconnect
  | receive (writes : Bool)
  | refreshTimer (writes : Bool)
  | expireTimer
  | answer (answer : Answer)
  | speak (position : Nat) (message : Message)
  | update (serial : UInt32) (vrps : Finset Vrp)
  | restart (sessionId : UInt16)

namespace Cache

def current (cache : Cache) : Option (UInt32 × Finset Vrp) :=
  cache.serial.bind fun serial => (cache.history.lookup (cache.sessionId, serial)).map fun vrps => (serial, vrps)

def messages (cache : Cache) : Answer → List Message
  | .data pdus =>
    match cache.current with
    | some (serial, _) => .cacheResponse cache.sessionId :: pdus ++ [.endOfData cache.sessionId serial]
    | none => []
  | .reset => [.cacheReset]
  | .error code text => [.errorReport code text]

def base (cache : Cache) : Message → Option (Finset Vrp)
  | .serialQuery sessionId serial =>
    if sessionId = cache.sessionId then cache.history.lookup (sessionId, serial) else none
  | .resetQuery => some ∅
  | _ => none

end Cache

namespace Link

def close (link : Link) : Link := { link with
    connected := false
    toCache := []
    toSession := []
    managerTx := link.managerTx ++ [.disconnected link.session.address] }

def finish (link : Link) (handled : Handled) : Link := let link := { link with
    session := handled.session
    managerTx := link.managerTx ++ (handled.batch.map CacheEvent.batch).toList }
  match handled.result with
  | some _ => link.close
  | none => { link with toCache := link.toCache ++ handled.written }

def step (link : Link) : LinkEvent → Link
  | .connect writes =>
    if link.connected then link
    else
      match link.session.startSession writes with
      | some (session, query) => { link with session := session, connected := true, toCache := [query], toSession := [] }
      | none => link.close
  | .disconnect => if link.connected then link.close else link
  | .receive writes =>
    match link.toSession with
    | [] => link
    | message :: rest => { link with toSession := rest }.finish (link.session.handleMessage writes message)
  | .refreshTimer writes => if link.connected then link.finish (link.session.handleRefresh writes) else link
  | .expireTimer =>
    if link.connected then
      { link with session := link.session.handleExpire, managerTx := link.managerTx ++ [.expired link.session.address] }
    else link
  | .answer answer =>
    match link.toCache with
    | [] => link
    | _ :: rest => { link with toCache := rest, toSession := link.toSession ++ link.cache.messages answer }
  | .speak position message =>
    if link.connected then
      { link with toSession := link.toSession.take position ++ message :: link.toSession.drop position }
    else link
  | .update serial vrps =>
    { link with cache := ⟨link.cache.sessionId, some serial, link.cache.history.insert (link.cache.sessionId, serial) vrps⟩ }
  | .restart sessionId =>
    let link := { link with cache := ⟨sessionId, none, link.cache.history⟩ }
    if link.connected then link.close else link

end Link

def payload : Message → Option (Bool × Vrp)
  | .ipv4Prefix pdu => (CacheSession.pduVrp IpAddr.v4 pdu).map fun vrp => (pdu.isAnnouncement, vrp)
  | .ipv6Prefix pdu => (CacheSession.pduVrp IpAddr.v6 pdu).map fun vrp => (pdu.isAnnouncement, vrp)
  | _ => none

-- The least set of changes from one version to another, in any order.
structure Delta (old new : Finset Vrp) (changes : List (Bool × Vrp)) : Prop where
  distinct : changes.Nodup
  announced : ∀ vrp, (true, vrp) ∈ changes ↔ vrp ∈ new ∧ vrp ∉ old
  withdrawn : ∀ vrp, (false, vrp) ∈ changes ↔ vrp ∈ old ∧ vrp ∉ new

def Carries (pdus : List Message) (changes : List (Bool × Vrp)) : Prop := pdus.map payload = changes.map some

-- RFC 8210: a query is answered by the changes to the current version, by a Cache Reset if it
-- was a Serial Query, or by an error; serials and session identifiers name one version.
def Link.Conforming (link : Link) : LinkEvent → Prop
  | .answer (.data pdus) => ∀ query rest, link.toCache = query :: rest → ∃ old serial new changes,
      link.cache.base query = some old ∧ link.cache.current = some (serial, new) ∧ Carries pdus changes ∧ Delta old new changes
  | .answer .reset => ∀ query rest, link.toCache = query :: rest → ∃ sessionId serial, query = .serialQuery sessionId serial
  | .speak _ message => message = .routerKey ∨ ∃ serial, link.cache.serial = some serial ∧
      message = .serialNotify link.cache.sessionId serial
  | .update serial _ => link.cache.history.lookup (link.cache.sessionId, serial) = none
  | .restart sessionId => ∀ serial, link.cache.history.lookup (sessionId, serial) = none
  | _ => True

def outOfTurn : Message → Bool
  | .serialNotify _ _ | .routerKey => true
  | _ => false

def Link.Quiet (link : Link) : Prop :=
  link.toCache = [] ∧ link.session.syncing = false ∧ ∀ message ∈ link.toSession, outOfTurn message = true

-- One query at a time, and no expiry of data that a serial still stands for.
def Link.Orderly (link : Link) : LinkEvent → Prop
  | .refreshTimer _ => link.session.sessionId.isSome = true → link.session.serialNumber.isSome = true → link.Quiet
  | .receive _ => ∀ sessionId serial rest, link.toSession = .serialNotify sessionId serial :: rest →
      (link.session.serialNumber.any fun ourSerial => serialAtLeast ourSerial serial) = true ∨ link.Quiet
  | .expireTimer => link.session.serialNumber = none ∨ link.session.localVrps = ∅
  | _ => True

abbrev History := AssocMap (UInt16 × UInt32) (Finset Vrp)

section

variable {history later : History} {session : CacheSession} {toCache data : List Message}

variable {message : Message} {sessionId : UInt16} {serial : UInt32} {rest : List Message} (writes : Bool)
  {old new : Finset Vrp} {pdus : List Message}

variable {isAnnouncement : Bool} {vrp : Vrp}

def Based (history : History) (session : CacheSession) : Prop := ∀ serial, session.serialNumber = some serial →
    ∃ sessionId, session.sessionId = some sessionId ∧ history.lookup (sessionId, serial) = some session.localVrps

-- The version from which the session will take the next answer.
def StartsFrom (history : History) (session : CacheSession) (sessionId : UInt16) (old : Finset Vrp) : Prop :=
  (session.serialNumber = none ∧ old = ∅) ∨ ∃ serial, session.serialNumber = some serial ∧ session.sessionId = some sessionId ∧
      history.lookup (sessionId, serial) = some old

-- How far one query has come, with the messages out of turn left aside.
inductive Phase (history : History) (session : CacheSession) : List Message → List Message → Prop where
  | quiet (idle : session.syncing = false) : Phase history session [] []
  | asked (idle : session.syncing = false) : Phase history session [session.buildQuery] []
  | refused (message : Message) (idle : session.syncing = false)
      (refusal : message = .cacheReset ∨ ∃ code text, message = .errorReport code text) : Phase history session [] [message]
  | answered (sessionId : UInt16) (serial : UInt32) (old new : Finset Vrp) (pdus : List Message) (changes : List (Bool × Vrp))
      (idle : session.syncing = false) (start : StartsFrom history session sessionId old)
      (target : history.lookup (sessionId, serial) = some new) (carries : Carries pdus changes) (delta : Delta old new changes) :
      Phase history session [] (.cacheResponse sessionId :: pdus ++ [.endOfData sessionId serial])
  | midway (sessionId : UInt16) (serial : UInt32) (old new : Finset Vrp) (pdus : List Message) (done todo : List (Bool × Vrp))
      (syncing : session.syncing = true) (named : session.sessionId = some sessionId)
      (start : StartsFrom history session sessionId old) (target : history.lookup (sessionId, serial) = some new)
      (carries : Carries pdus todo) (delta : Delta old new (done ++ todo))
      (announced : ∀ vrp, vrp ∈ session.pendingAnnounced ↔ (true, vrp) ∈ done)
      (withdrawn : ∀ vrp, vrp ∈ session.pendingWithdrawn ↔ (false, vrp) ∈ done) :
      Phase history session [] (pdus ++ [.endOfData sessionId serial])

def Grows (history later : History) : Prop := ∀ key vrps, history.lookup key = some vrps → later.lookup key = some vrps

theorem grows_insert {key : UInt16 × UInt32} (vrps : Finset Vrp) (unused : history.lookup key = none) :
    Grows history (history.insert key vrps) := by
  intro other stored found
  rw [AssocMap.lookup_insert_if]
  split
  · rename_i same
    rw [same, unused] at found
    cases found
  · exact found

theorem Based.mono (based : Based history session) (grows : Grows history later) : Based later session := by
  intro serial held
  obtain ⟨sessionId, named, stored⟩ := based serial held
  exact ⟨sessionId, named, grows _ _ stored⟩

theorem StartsFrom.mono (start : StartsFrom history session sessionId old)
    (grows : Grows history later) : StartsFrom later session sessionId old := by
  rcases start with fresh | ⟨serial, held, named, stored⟩
  · exact .inl fresh
  · exact .inr ⟨serial, held, named, grows _ _ stored⟩

theorem Phase.mono (phase : Phase history session toCache data) (grows : Grows history later) : Phase later session toCache data := by
  cases phase with
  | quiet idle => exact .quiet idle
  | asked idle => exact .asked idle
  | refused message idle refusal => exact .refused message idle refusal
  | answered sessionId serial old new pdus changes idle start target carries delta =>
    exact .answered sessionId serial old new pdus changes idle (start.mono grows) (grows _ _ target) carries delta
  | midway sessionId serial old new pdus done todo syncing named start target carries delta announced withdrawn =>
    exact .midway sessionId serial old new pdus done todo syncing named (start.mono grows) (grows _ _ target) carries delta
      announced withdrawn

theorem Phase.expired (phase : Phase history session toCache data) : Phase history session.handleExpire toCache data := by
  cases phase with
  | quiet idle => exact .quiet idle
  | asked idle => exact @Phase.asked history session.handleExpire idle
  | refused message idle refusal => exact .refused message idle refusal
  | answered sessionId serial old new pdus changes idle start target carries delta =>
    exact .answered sessionId serial old new pdus changes idle start target carries delta
  | midway sessionId serial old new pdus done todo syncing named start target carries delta announced withdrawn =>
    exact .midway sessionId serial old new pdus done todo syncing named start target carries delta announced withdrawn

theorem handle_payload (writes : Bool) (carried : payload message = some (isAnnouncement, vrp)) :
    session.handleMessage writes message = session.handleMsgPrefix isAnnouncement (some vrp) := by
  cases message with
  | ipv4Prefix pdu | ipv6Prefix pdu =>
    obtain ⟨found, made, same⟩ := Option.map_eq_some_iff.mp carried
    cases same
    rw [handleMessage, made]
  | serialNotify | serialQuery | resetQuery | cacheResponse | endOfData | cacheReset | routerKey | errorReport => cases carried

theorem StartsFrom.held (start : StartsFrom history session sessionId old) (based : Based history session) :
    (session.hasSerial = false ∧ old = ∅) ∨ (session.hasSerial = true ∧ old = session.localVrps) := by
  rcases start with ⟨fresh, empty⟩ | ⟨serial, held, named, stored⟩
  · exact .inl ⟨by rw [hasSerial, fresh]; rfl, empty⟩
  · obtain ⟨other, otherNamed, otherStored⟩ := based serial held
    rw [named] at otherNamed
    cases otherNamed
    rw [stored] at otherStored
    exact .inr ⟨by rw [hasSerial, held]; rfl, Option.some.inj otherStored⟩

structure Advanced (history : History) (handled : Handled) (rest : List Message) : Prop where
  based : Based history handled.session
  phase : handled.result = none → Phase history handled.session handled.written rest

section

variable {done todo : List (Bool × Vrp)} (based : Based history session) (syncing : session.syncing = true)
  (named : session.sessionId = some sessionId) (start : StartsFrom history session sessionId old)
  (target : history.lookup (sessionId, serial) = some new) (announced : ∀ vrp, vrp ∈ session.pendingAnnounced ↔ (true, vrp) ∈ done)
  (withdrawn : ∀ vrp, vrp ∈ session.pendingWithdrawn ↔ (false, vrp) ∈ done)

include based syncing named start target announced withdrawn

theorem prefix_advances (carries : Carries pdus todo) (delta : Delta old new (done ++ (isAnnouncement, vrp) :: todo)) :
    Advanced history (session.handleMsgPrefix isAnnouncement (some vrp)) (pdus ++ [.endOfData sessionId serial]) := by
  have member : (isAnnouncement, vrp) ∈ done ++ (isAnnouncement, vrp) :: todo := by simp
  have fresh : (isAnnouncement, vrp) ∉ done := fun old => (nodup_append.mp delta.distinct).2.2 _ old _ mem_cons_self rfl
  have shifted : Delta old new ((done ++ [(isAnnouncement, vrp)]) ++ todo) := by
    rw [append_assoc]
    exact delta
  have known := start.held based
  rw [handleMsgPrefix, syncing]
  cases isAnnouncement with
  | true =>
    have unknown : ¬ (session.hasSerial = true ∧ vrp ∈ session.localVrps) := by
      intro both
      rcases known with ⟨none, -⟩ | ⟨-, same⟩
      · rw [none] at both
        exact Bool.false_ne_true both.1
      · exact ((delta.announced vrp).mp member).2 (same ▸ both.2)
    have single : vrp ∉ session.pendingAnnounced := fun pending => fresh ((announced vrp).mp pending)
    simp only [Bool.not_true, Bool.false_eq_true, if_false, if_true, if_neg single]
    split
    · rename_i both
      exact absurd both unknown
    · refine ⟨based, fun _ => ?_⟩
      refine .midway sessionId serial old new pdus _ todo rfl named start target carries shifted (fun other => ?_) fun other => ?_
      · exact Finset.mem_insert.trans (by simp [announced, or_comm])
      · exact (withdrawn other).trans (by simp)
  | false =>
    have inOld := ((delta.withdrawn vrp).mp member).1
    have held : session.hasSerial = true ∧ vrp ∈ session.localVrps := by
      rcases known with ⟨-, empty⟩ | ⟨some, same⟩
      · rw [empty] at inOld
        exact absurd inOld (Finset.notMem_empty _)
      · exact ⟨some, same ▸ inOld⟩
    simp only [held.1, not_not.mpr held.2]
    refine ⟨based, fun _ => ?_⟩
    refine .midway sessionId serial old new pdus _ todo rfl named start target carries shifted (fun other => ?_) fun other => ?_
    · exact (announced other).trans (by simp)
    · exact Finset.mem_insert.trans (by simp [withdrawn, or_comm])

theorem endOfData_reaches (delta : Delta old new done) :
    Advanced history (session.handleMsgEndOfData sessionId serial) [] ∧
      (session.handleMsgEndOfData sessionId serial).session.localVrps = new ∧
      (session.handleMsgEndOfData sessionId serial).batch = some ⟨session.address, sessionId, serial, new⟩ := by
  have reached : (if !session.hasSerial then session.pendingAnnounced
      else (session.localVrps ∪ session.pendingAnnounced) \ session.pendingWithdrawn) = new := by
    ext vrp
    rcases start.held based with ⟨none, empty⟩ | ⟨some, same⟩
    · simp [none, announced, delta.announced, empty]
    · simp only [some, Bool.not_true, Bool.false_eq_true, if_false, Finset.mem_sdiff, Finset.mem_union, announced,
        withdrawn, delta.announced, delta.withdrawn, ← same]
      tauto
  rw [handleMsgEndOfData, syncing]
  simp only [Bool.not_true, Bool.false_eq_true, if_false, reached]
  refine ⟨⟨fun other held => ?_, fun _ => .quiet rfl⟩, trivial, trivial⟩
  cases held
  exact ⟨sessionId, named, target⟩

end

theorem resetSession_based : Based history session.resetSession := by
  intro serial held
  cases held

theorem protocolError_advances (code : ErrorCode) (text : String) (rest : List Message) :
    Advanced history (session.protocolError code text) rest :=
  ⟨resetSession_based, nofun⟩

theorem cacheResponse_advances {changes : List (Bool × Vrp)} (based : Based history session) (idle : session.syncing = false)
    (start : StartsFrom history session sessionId old) (target : history.lookup (sessionId, serial) = some new)
    (carries : Carries pdus changes) (delta : Delta old new changes) :
    Advanced history (session.handleMsgCacheResponse sessionId) (pdus ++ [.endOfData sessionId serial]) := by
  rw [handleMsgCacheResponse]
  split
  · exact protocolError_advances _ _ _
  · rename_i agreed
    simp only [idle, Bool.false_eq_true]
    refine ⟨fun other held => ?_, fun _ => ?_⟩
    · obtain ⟨expected, named, stored⟩ := based other held
      rw [named] at agreed
      have same : sessionId = expected := by simpa using agreed
      exact ⟨sessionId, rfl, same ▸ stored⟩
    · refine .midway sessionId serial old new pdus [] changes rfl rfl ?_ target carries delta (fun _ => ?_) fun _ => ?_
      · rcases start with fresh | ⟨other, held, named, stored⟩
        · exact .inl fresh
        · exact .inr ⟨other, held, rfl, stored⟩
      · exact (iff_of_false (Finset.notMem_empty _) not_mem_nil)
      · exact (iff_of_false (Finset.notMem_empty _) not_mem_nil)

section

variable (based : Based history session)

include based

theorem refusal_advances (idle : session.syncing = false)
    (refusal : message = .cacheReset ∨ ∃ code text, message = .errorReport code text) :
    Advanced history (session.handleMessage writes message) [] := by
  rcases refusal with rfl | ⟨code, text, rfl⟩
  · rw [handleMessage, handleMsgCacheReset]
    split
    · exact ⟨resetSession_based, fun _ => Phase.asked rfl⟩
    · exact ⟨resetSession_based, nofun⟩
  · rw [handleMessage]
    unfold handleMsgErrorReport
    split
    · exact ⟨based, fun _ => .quiet idle⟩
    · exact ⟨based, nofun⟩

theorem inTurn_advances (phase : Phase history session toCache (message :: rest)) :
    toCache = [] ∧ Advanced history (session.handleMessage writes message) rest ∧
      ∀ sessionId serial, message = .endOfData sessionId serial → ∃ vrps, history.lookup (sessionId, serial) = some vrps ∧
        (session.handleMsgEndOfData sessionId serial).session.localVrps = vrps ∧
        (session.handleMsgEndOfData sessionId serial).batch = some ⟨session.address, sessionId, serial, vrps⟩ := by
  generalize whole : message :: rest = data at phase
  cases phase with
  | quiet idle | asked idle => cases whole
  | refused refusing idle refusal =>
    cases whole
    refine ⟨rfl, refusal_advances writes based idle refusal, ?_⟩
    rintro sessionId serial rfl
    obtain same | ⟨code, text, same⟩ := refusal <;> cases same
  | answered sessionId serial old new pdus changes idle start target carries delta =>
    cases whole
    exact ⟨rfl, cacheResponse_advances based idle start target carries delta, nofun⟩
  | midway sessionId serial old new pdus done todo syncing named start target carries delta announced withdrawn =>
    refine ⟨rfl, ?_⟩
    cases pdus with
    | nil =>
      cases whole
      cases todo with
      | nil =>
        rw [append_nil] at delta
        obtain ⟨advanced, reached⟩ := endOfData_reaches based syncing named start target announced withdrawn delta
        refine ⟨advanced, fun sessionId serial same => ?_⟩
        cases same
        exact ⟨new, target, reached⟩
      | cons change todo => cases carries
    | cons pdu pdus =>
      cases whole
      cases todo with
      | nil => cases carries
      | cons change todo =>
        obtain ⟨carried, carries⟩ := cons.inj carries
        rw [handle_payload writes carried]
        refine ⟨prefix_advances based syncing named start target announced withdrawn carries delta, ?_⟩
        rintro sessionId serial rfl
        cases carried

end

end

section

variable {link : Link}

def inTurn (messages : List Message) : List Message := messages.filter fun message => !outOfTurn message

theorem inTurn_eq_nil {messages : List Message} (only : ∀ message ∈ messages, outOfTurn message = true) : inTurn messages = [] := by
  rw [inTurn, filter_eq_nil_iff]
  intro message member
  rw [only message member]
  exact Bool.false_ne_true

theorem inTurn_carries {pdus : List Message} {changes : List (Bool × Vrp)} (carries : Carries pdus changes) : inTurn pdus = pdus := by
  rw [inTurn, filter_eq_self]
  intro pdu member
  have carried : payload pdu ∈ changes.map some := carries ▸ mem_map_of_mem member
  obtain ⟨change, -, same⟩ := mem_map.mp carried
  cases pdu with
  | serialNotify | routerKey => cases same
  | _ => rfl

structure Sound (link : Link) : Prop where
  based : Based link.cache.history link.session
  phase : link.connected = true → Phase link.cache.history link.session link.toCache (inTurn link.toSession)
  closed : link.connected = false → link.toCache = [] ∧ link.toSession = []

theorem Sound.connected (sound : Sound link) (busy : ¬ (link.toCache = [] ∧ link.toSession = [])) : link.connected = true := by
  by_contra closed
  exact busy (sound.closed (by simpa using closed))

theorem Sound.close (based : Based link.cache.history link.session) : Sound link.close :=
  ⟨based, nofun, fun _ => ⟨rfl, rfl⟩⟩

theorem Sound.finish {handled : Handled} (connected : link.connected = true) (based : Based link.cache.history handled.session)
    (phase : handled.result = none → Phase link.cache.history handled.session (link.toCache ++ handled.written) (inTurn link.toSession)) :
    Sound (link.finish handled) := by
  unfold Link.finish
  split
  · exact Sound.close based
  · rename_i running
    exact ⟨based, fun _ => phase running, fun closed => by simp [connected] at closed⟩

theorem Link.Quiet.phase (quiet : link.Quiet) : link.toCache = [] ∧ inTurn link.toSession = [] := ⟨quiet.1, inTurn_eq_nil quiet.2.2⟩

theorem Sound.notify (sound : Sound link) {sessionId : UInt16} {serial : UInt32} {rest : List Message}
    (writes : Bool) (connected : link.connected = true) (arrived : link.toSession = .serialNotify sessionId serial :: rest)
    (orderly : link.Orderly (.receive writes)) :
    Sound ({ link with toSession := rest }.finish (link.session.handleMsgSerialNotify serial writes)) := by
  have phase := sound.phase connected
  have skipped : inTurn link.toSession = inTurn rest := by rw [arrived]; rfl
  rw [skipped] at phase
  rw [handleMsgSerialNotify]
  split
  · exact Sound.finish connected sound.based fun _ => by rw [goOn, append_nil]; exact phase
  · rename_i newer
    obtain ⟨idle, silent⟩ := ((orderly sessionId serial rest arrived).resolve_left newer).phase
    split
    · refine Sound.finish connected sound.based fun _ => ?_
      rw [idle, ← skipped, silent]
      exact @Phase.asked _ { link.session with syncing := false } rfl
    · exact Sound.finish connected resetSession_based nofun

theorem Sound.receive (sound : Sound link) (writes : Bool) (orderly : link.Orderly (.receive writes)) :
    Sound (link.step (.receive writes)) := by
  rw [Link.step]
  split
  · exact sound
  · rename_i message rest arrived
    have connected := sound.connected (by simp [arrived])
    have phase := sound.phase connected
    cases turn : outOfTurn message with
    | false =>
      have first : inTurn link.toSession = message :: inTurn rest := by
        rw [arrived, inTurn, filter_cons, turn]
        rfl
      rw [first] at phase
      obtain ⟨idle, advanced, -⟩ := inTurn_advances writes sound.based phase
      exact Sound.finish connected advanced.based fun running => by rw [idle]; exact advanced.phase running
    | true =>
      cases message with
      | serialNotify sessionId serial => exact sound.notify writes connected arrived orderly
      | routerKey =>
        rw [arrived] at phase
        refine Sound.finish connected sound.based fun _ => ?_
        rw [handleMessage, goOn, append_nil]
        exact phase
      | _ => cases turn

theorem Sound.refreshTimer (sound : Sound link) (writes : Bool) (orderly : link.Orderly (.refreshTimer writes)) :
    Sound (link.step (.refreshTimer writes)) := by
  rw [Link.step]
  split
  · rename_i connected
    unfold handleRefresh
    split
    · rename_i sessionId serial named held
      obtain ⟨idle, silent⟩ := (orderly (by rw [named]; rfl) (by rw [held]; rfl)).phase
      have query : link.session.buildQuery = .serialQuery sessionId serial := by rw [buildQuery, named, held]
      split
      · refine Sound.finish connected sound.based fun _ => ?_
        rw [idle, silent, ← query]
        exact @Phase.asked _ { link.session with syncing := false } rfl
      · exact Sound.finish connected sound.based nofun
    · refine Sound.finish connected sound.based fun _ => ?_
      rw [goOn, append_nil]
      exact sound.phase connected
  · exact sound

theorem asked_startsFrom {cache : Cache} {session : CacheSession} {old : Finset Vrp} (based : Based cache.history session)
    (base : cache.base session.buildQuery = some old) : StartsFrom cache.history session cache.sessionId old := by
  unfold buildQuery at base
  split at base
  · rename_i sessionId serial named held
    replace base : (if sessionId = cache.sessionId then cache.history.lookup (sessionId, serial) else none) = some old := base
    by_cases same : sessionId = cache.sessionId
    · rw [if_pos same] at base
      subst same
      exact .inr ⟨serial, held, named, base⟩
    · rw [if_neg same] at base
      cases base
  · rename_i unknown
    refine .inl ⟨?_, (Option.some.inj base).symm⟩
    cases held : session.serialNumber with
    | none => rfl
    | some serial =>
      obtain ⟨sessionId, named, -⟩ := based serial held
      exact absurd held (unknown sessionId serial named)

theorem Phase.unanswered {history : History} {session : CacheSession} {query : Message} {waiting data : List Message}
    (phase : Phase history session (query :: waiting) data) :
    query = session.buildQuery ∧ waiting = [] ∧ data = [] ∧ session.syncing = false := by
  cases phase with
  | asked idle => exact ⟨rfl, rfl, rfl, idle⟩

theorem inTurn_answered {toSession messages : List Message} (silent : inTurn toSession = []) :
    inTurn (toSession ++ messages) = inTurn messages := by
  rw [inTurn, filter_append]
  exact (congrArg (· ++ inTurn messages) silent).trans (nil_append _)

theorem Sound.answer (sound : Sound link) (answer : Answer) (conforming : link.Conforming (.answer answer)) :
    Sound (link.step (.answer answer)) := by
  rw [Link.step]
  split
  · exact sound
  · rename_i query waiting queued
    have connected := sound.connected (by simp [queued])
    have phase := sound.phase connected
    rw [queued] at phase
    obtain ⟨rfl, rfl, silent, idle⟩ := phase.unanswered
    refine ⟨sound.based, fun _ => ?_, fun closed => by simp [connected] at closed⟩
    rw [inTurn_answered silent]
    cases answer with
    | data pdus =>
      obtain ⟨old, serial, new, changes, base, current, carries, delta⟩ := conforming _ _ queued
      have target : link.cache.history.lookup (link.cache.sessionId, serial) = some new := by
        obtain ⟨held, named, found⟩ := Option.bind_eq_some_iff.mp current
        obtain ⟨vrps, stored, same⟩ := Option.map_eq_some_iff.mp found
        cases same
        exact stored
      have sent : inTurn (link.cache.messages (.data pdus)) =
          .cacheResponse link.cache.sessionId :: pdus ++ [.endOfData link.cache.sessionId serial] := by
        rw [Cache.messages, current]
        dsimp only
        rw [inTurn, cons_append, filter_cons, filter_append]
        exact congrArg (fun pdus => _ :: (pdus ++ _)) (inTurn_carries carries)
      rw [sent]
      exact .answered _ serial old new pdus changes idle (asked_startsFrom sound.based base) target carries delta
    | reset => exact .refused .cacheReset idle (.inl rfl)
    | error code text => exact .refused (.errorReport code text) idle (.inr ⟨code, text, rfl⟩)

theorem Sound.speak (sound : Sound link) (position : Nat) (message : Message)
    (conforming : link.Conforming (.speak position message)) : Sound (link.step (.speak position message)) := by
  have aside : outOfTurn message = true := by
    rcases conforming with rfl | ⟨serial, -, rfl⟩ <;> rfl
  rw [Link.step]
  split
  · rename_i connected
    have same : inTurn (link.toSession.take position ++ message :: link.toSession.drop position) = inTurn link.toSession := by
      rw [inTurn, filter_append, filter_cons, aside, Bool.not_true, if_neg Bool.false_ne_true, ← filter_append]
      exact congrArg inTurn (take_append_drop position link.toSession)
    refine ⟨sound.based, fun _ => ?_, fun closed => by simp [connected] at closed⟩
    rw [same]
    exact sound.phase connected
  · exact sound

theorem Sound.step (sound : Sound link) (event : LinkEvent) (conforming : link.Conforming event)
    (orderly : link.Orderly event) : Sound (link.step event) := by
  cases event with
  | connect writes =>
    rw [Link.step]
    split
    · exact sound
    · cases writes with
      | true =>
        refine ⟨sound.based, fun _ => ?_, nofun⟩
        exact @Phase.asked _ { link.session with syncing := false } rfl
      | false => exact Sound.close sound.based
  | disconnect =>
    rw [Link.step]
    split
    · exact Sound.close sound.based
    · exact sound
  | receive writes => exact sound.receive writes orderly
  | refreshTimer writes => exact sound.refreshTimer writes orderly
  | expireTimer =>
    rw [Link.step]
    split
    · rename_i connected
      have based : Based link.cache.history link.session.handleExpire := by
        intro serial held
        obtain ⟨sessionId, named, stored⟩ := sound.based serial held
        rcases orderly with none | empty
        · exact absurd (none.symm.trans held) (Option.some_ne_none serial).symm
        · exact ⟨sessionId, named, stored.trans (congrArg some empty)⟩
      exact ⟨based, fun _ => (sound.phase connected).expired, fun closed => by simp [connected] at closed⟩
    · exact sound
  | answer answer => exact sound.answer answer conforming
  | speak position message => exact sound.speak position message conforming
  | update serial vrps =>
    have grows := grows_insert vrps conforming
    exact ⟨sound.based.mono grows, fun connected => (sound.phase connected).mono grows, sound.closed⟩
  | restart sessionId =>
    rw [Link.step]
    split
    · exact Sound.close sound.based
    · exact ⟨sound.based, sound.phase, sound.closed⟩

end

def Link.start (address : SocketAddr) (cache : Cache) : Link := ⟨CacheSession.new address, false, [], [], cache, []⟩

theorem Link.synchronised_in_orderly_runs (address : SocketAddr) (cache : Cache) (link : Link)
    (run : Reaches Link.step (fun link event => link.Conforming event ∧ link.Orderly event) (Link.start address cache) link)
    (sessionId : UInt16) (serial : UInt32) (rest : List Message) (writes : Bool)
    (arrived : link.toSession = .endOfData sessionId serial :: rest) :
    ∃ vrps, link.cache.history.lookup (sessionId, serial) = some vrps ∧ (link.step (.receive writes)).session.localVrps = vrps ∧
      (link.step (.receive writes)).managerTx = link.managerTx ++ [.batch ⟨link.session.address, sessionId, serial, vrps⟩] := by
  have sound : Sound link := by
    refine run.invariant Sound ?_ fun link event sound allowed => sound.step event allowed.1 allowed.2
    exact ⟨fun _ held => (by cases held), nofun, fun _ => ⟨rfl, rfl⟩⟩
  have connected := sound.connected (by simp [arrived])
  have phase := sound.phase connected
  rw [arrived] at phase
  obtain ⟨vrps, stored, reached, reported⟩ := (inTurn_advances writes sound.based phase).2.2 sessionId serial rfl
  have goesOn : (link.session.handleMsgEndOfData sessionId serial).result = none := by
    rw [handleMsgEndOfData] at reported ⊢
    split
    · rename_i idle
      rw [if_pos idle] at reported
      cases reported
    · rfl
  have handled : link.step (.receive writes) =
      { link with toSession := rest }.finish (link.session.handleMsgEndOfData sessionId serial) := by
    rw [Link.step, arrived]
    rfl
  rw [handled, Link.finish, goesOn, reported]
  exact ⟨vrps, stored, reached, rfl⟩

theorem Delta.refl (vrps : Finset Vrp) : Delta vrps vrps [] := ⟨nodup_nil, fun _ => by simp, fun _ => by simp⟩

theorem Delta.announce {vrp : Vrp} {vrps : Finset Vrp} (fresh : vrp ∉ vrps) : Delta vrps (insert vrp vrps) [(true, vrp)] := by
  refine ⟨nodup_singleton _, fun other => ?_, fun other => ?_⟩
  · simp only [mem_singleton, Prod.mk.injEq, true_and, Finset.mem_insert]
    exact ⟨fun same => ⟨.inl same, same ▸ fresh⟩, fun ⟨either, absent⟩ => either.resolve_right absent⟩
  · simp only [mem_singleton, Prod.mk.injEq, Bool.false_eq_true, false_and, Finset.mem_insert, false_iff, not_and, not_not]
    exact .inr

section

def exampleAddress : SocketAddr := ⟨.v4 0x0a000001#32, 323⟩

def examplePdu (pfx : Ipv4Addr) : Message := .ipv4Prefix ⟨1, 8, 24, pfx, 64512⟩

def exampleVrpOf (pfx : Ipv4Addr) : Vrp := ⟨.v4 ⟨pfx, 8⟩, 24, 64512⟩

def emptyLink : Link := Link.start exampleAddress ⟨7, none, ∅⟩

theorem Link.Conforming.data {link : Link} {pdus : List Message} {query : Message} {rest : List Message}
    {old new : Finset Vrp} {changes : List (Bool × Vrp)} (serial : UInt32) (queued : link.toCache = query :: rest)
    (base : link.cache.base query = some old) (current : link.cache.current = some (serial, new)) (carries : Carries pdus changes)
    (delta : Delta old new changes) : link.Conforming (.answer (.data pdus)) := by
  intro other others same
  rw [queued] at same
  cases same
  exact ⟨old, serial, new, changes, base, current, carries, delta⟩

theorem examplePdu_carries (pfx : Ipv4Addr) : Carries [examplePdu pfx] [(true, exampleVrpOf pfx)] := by
  simp [Carries, payload, examplePdu, exampleVrpOf, pduVrp, makeIpNetwork, PrefixPdu.isAnnouncement]

theorem carries_nil : Carries [] [] := rfl

def firstSync : List LinkEvent :=
  [.update 1 { exampleVrpOf 0x0b000000 }, .connect true, .answer (.data [examplePdu 0x0b000000]), .receive true, .receive true]

theorem Link.synchronised_after_reset :
    ((firstSync.foldl Link.step emptyLink).step (.receive true)).session.localVrps = { exampleVrpOf 0x0b000000 } := by
  have run : Reaches Link.step (fun link event => link.Conforming event ∧ link.Orderly event) emptyLink
      (firstSync.foldl Link.step emptyLink) := by
    refine Reaches.of_permits _ _ ⟨⟨rfl, trivial⟩, ⟨trivial, trivial⟩, ⟨?_, trivial⟩, ⟨trivial, ?_⟩, ⟨trivial, ?_⟩, trivial⟩
    · exact .data 1 rfl rfl rfl (examplePdu_carries _) (Delta.announce (Finset.notMem_empty _))
    · intro sessionId serial rest arrived
      cases arrived
    · intro sessionId serial rest arrived
      cases arrived
  obtain ⟨vrps, stored, reached, -⟩ := Link.synchronised_in_orderly_runs exampleAddress _ _ run 7 1 [] true (by decide +kernel)
  rw [reached]
  exact Option.some.inj (stored.symm.trans (by decide +kernel))

-- The data expires while the serial is kept, and the refresh then brings the changes alone.
def expiredSync : List LinkEvent :=
  firstSync ++ [.receive true, .update 2 { exampleVrpOf 0x0c000000, exampleVrpOf 0x0b000000 }, .expireTimer, .refreshTimer true,
    .answer (.data [examplePdu 0x0c000000]), .receive true, .receive true]

-- A refresh and a notify ask for the changes since the same serial; the second answer was
-- made when the cache had gone back to the first version.
def overlappingSync : List LinkEvent :=
  [.update 1 ∅, .connect true, .answer (.data []), .receive true, .receive true, .update 2 { exampleVrpOf 0x0b000000 },
    .refreshTimer true, .speak 0 (.serialNotify 7 2), .receive true, .answer (.data [examplePdu 0x0b000000]), .update 3 ∅,
    .answer (.data []), .receive true, .receive true, .receive true, .receive true]

def Link.Misled (link : Link) (sessionId : UInt16) (serial : UInt32) (vrps held : Finset Vrp) : Prop :=
  link.toSession = [.endOfData sessionId serial] ∧ link.cache.history.lookup (sessionId, serial) = some vrps ∧
    (link.step (.receive true)).session.localVrps = held ∧
    (link.step (.receive true)).managerTx = link.managerTx ++ [.batch ⟨link.session.address, sessionId, serial, held⟩] ∧
    held ≠ vrps

theorem expiry_and_overlap_mislead_session : (Permits Link.step Link.Conforming emptyLink expiredSync ∧
      (expiredSync.foldl Link.step emptyLink).Misled 7 2 { exampleVrpOf 0x0c000000, exampleVrpOf 0x0b000000 }
        { exampleVrpOf 0x0c000000 }) ∧
      Permits Link.step Link.Conforming emptyLink overlappingSync ∧
      (overlappingSync.foldl Link.step emptyLink).Misled 7 3 ∅ { exampleVrpOf 0x0b000000 } := by
  have first := Delta.announce (Finset.notMem_empty (exampleVrpOf 0x0b000000))
  have second : Delta { exampleVrpOf 0x0b000000 } { exampleVrpOf 0x0c000000, exampleVrpOf 0x0b000000 }
      [(true, exampleVrpOf 0x0c000000)] := Delta.announce (by decide)
  refine ⟨⟨?_, by unfold Link.Misled; decide +kernel⟩, ?_, by unfold Link.Misled; decide +kernel⟩
  · refine ⟨rfl, trivial, ?_, trivial, trivial, trivial, by unfold Link.Conforming; decide +kernel, trivial, trivial, ?_, trivial,
      trivial, trivial⟩
    · exact .data 1 rfl rfl rfl (examplePdu_carries _) first
    · exact .data 2 rfl (by decide +kernel) (by decide +kernel) (examplePdu_carries _) second
  · refine ⟨rfl, trivial, ?_, trivial, trivial, by unfold Link.Conforming; decide +kernel, trivial, .inr ⟨2, rfl, rfl⟩, trivial, ?_,
      by unfold Link.Conforming; decide +kernel, ?_, trivial, trivial, trivial, trivial, trivial⟩
    · exact .data 1 rfl rfl rfl carries_nil (Delta.refl ∅)
    · exact .data 2 rfl (by decide +kernel) (by decide +kernel) (examplePdu_carries _) first
    · exact .data 3 rfl (by decide +kernel) (by decide +kernel) carries_nil (Delta.refl ∅)

end

end Bgpgg.Rpki
