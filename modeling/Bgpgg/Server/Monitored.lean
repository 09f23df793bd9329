import Bgpgg.Server.LoopFree

namespace Bgpgg.Server

open Net Lib Rib

namespace BgpServer

variable (server : BgpServer)

def terminates (peerIp : IpAddr) (routes : List PendingRoute) : Bool := match server.peers.lookup peerIp with
  | none => false
  | some peer =>
    match peer.establishedConn.bind ConnectionState.asn with
    | none => false
    | some peerAsn =>
      let peerCfg := server.peerCfgOf peerIp
      let (validated, acceptable) := validateAfiSafi (peer.storeRoutes routes) peer.conn.negotiatedAfiSafis (announcedOf routes)
      acceptable && peerCfg.allowAutomaticStop &&
        (checkMaxPrefix peerCfg validated.adjRibIn (screenBatch (server.importChecks peer peerCfg peerAsn) routes)).isNone

end BgpServer

structure BmpPeerIdentity where
  peerAs : UInt32
  peerBgpId : UInt32
deriving DecidableEq, Repr

def ConnectionState.identity (conn : ConnectionState) : Option BmpPeerIdentity :=
  conn.asn.bind fun asn => conn.bgpId.map (BmpPeerIdentity.mk asn)

inductive Broadcast where
  | peerUp (identity : BmpPeerIdentity)
  | peerDown (identity : BmpPeerIdentity)
deriving DecidableEq, Repr

-- The bmp_session of each entry and the broadcasts for each address, the latest first; limited
-- is the history of the addresses whose session a prefix limit has ended.
structure Ledger where
  sessions : AssocMap IpAddr BmpPeerIdentity
  log : List (IpAddr × Broadcast)
  limited : List IpAddr

namespace Ledger

section

variable (ledger : Ledger) (peerIp : IpAddr)

def logOf : List Broadcast := (ledger.log.filter fun entry => entry.1 = peerIp).map Prod.snd

def raise (identity : BmpPeerIdentity) : Ledger :=
  { ledger with log := (peerIp, .peerUp identity) :: ledger.log, sessions := ledger.sessions.insert peerIp identity }

def lower (identity : BmpPeerIdentity) : Ledger :=
  { ledger with log := (peerIp, .peerDown identity) :: ledger.log, sessions := ledger.sessions.erase peerIp }

def limit (identity : BmpPeerIdentity) : Ledger :=
  { ledger with log := (peerIp, .peerDown identity) :: ledger.log, limited := peerIp :: ledger.limited }

end

end Ledger

-- PeerUp and PeerDown in turn, from a PeerUp on, each PeerDown with the identity of its PeerUp.
def InTurn : List Broadcast → Prop
  | [] => True
  | .peerUp _ :: rest => (∀ identity, rest.head? ≠ some (.peerUp identity)) ∧ InTurn rest
  | .peerDown identity :: rest => rest.head? = some (.peerUp identity) ∧ InTurn rest

structure Monitored where
  server : BgpServer
  ledger : Ledger

namespace Monitored

variable (server : BgpServer) (state : Monitored)

def announced (peerIp : IpAddr) : Option BmpPeerIdentity :=
  match state.server.peers.lookup peerIp, state.ledger.sessions.lookup peerIp with
  | some peer, none => if peer.conn.capabilities.isSome && peer.conn.connInfo.isSome then peer.conn.identity else none
  | _, _ => none

-- The identity of bmp_peer_down_if_ended, whose connection was reset, and of
-- shutdown_and_remove_peer.
def outstanding (peerIp : IpAddr) : Option BmpPeerIdentity :=
  (state.server.peers.lookup peerIp).bind fun _ => state.ledger.sessions.lookup peerIp

def limitEnds (peerIp : IpAddr) (routes : List PendingRoute) : Option BmpPeerIdentity := if state.server.terminates peerIp routes then
    (state.server.peers.lookup peerIp).bind fun peer => peer.conn.identity
  else none

def tell : ServerOp → Ledger
  | .peerStateChanged peerIp .established =>
    ((state.announced peerIp).map (state.ledger.raise peerIp)).getD state.ledger
  | .peerDisconnected peerIp _ | .removePeer peerIp =>
    ((state.outstanding peerIp).map (state.ledger.lower peerIp)).getD state.ledger
  | .peerUpdate peerIp routes =>
    ((state.limitEnds peerIp routes).map (state.ledger.limit peerIp)).getD state.ledger
  | _ => state.ledger

def step (op : ServerOp) : Monitored := ⟨state.server.handleServerOp op, state.tell op⟩

def start : Monitored := ⟨server, ⟨∅, [], []⟩⟩

-- A prefix limit ends only a session that was announced with the identity of the connection,
-- and nothing ends the session of that address again.
def EndsOnce : ServerOp → Prop
  | .peerUpdate peerIp routes => ∀ identity ∈ state.limitEnds peerIp routes,
      peerIp ∉ state.ledger.limited ∧ state.ledger.sessions.lookup peerIp = some identity
  | .peerDisconnected peerIp _ | .removePeer peerIp =>
      (state.outstanding peerIp).isSome → peerIp ∉ state.ledger.limited
  | _ => True

end Monitored

open Monitored
section

variable {ledger : Ledger} {peerIp other : IpAddr} {identity : BmpPeerIdentity}

def Ledger.InTurn (ledger : Ledger) : Prop := ∀ peerIp, Server.InTurn (ledger.logOf peerIp)

-- An open PeerUp is an outstanding session that no prefix limit has ended.
structure Ledger.Tracked (ledger : Ledger) : Prop where
  last : ∀ peerIp identity, (ledger.logOf peerIp).head? = some (.peerUp identity) ↔
    peerIp ∉ ledger.limited ∧ ledger.sessions.lookup peerIp = some identity
  kept : ∀ peerIp ∈ ledger.limited, (ledger.sessions.lookup peerIp).isSome

variable {message : Broadcast} (ops : List ServerOp)

theorem logOf_cons {ledger next : Ledger} (logged : next.log = (peerIp, message) :: ledger.log) :
    next.logOf other = if other = peerIp then message :: ledger.logOf other else ledger.logOf other := by
  rw [Ledger.logOf, Ledger.logOf, logged]
  by_cases same : other = peerIp
  · simp [same]
  · simp [same, Ne.symm same]

theorem inTurn_cons {ledger next : Ledger} (logged : next.log = (peerIp, message) :: ledger.log) :
    next.InTurn ↔ ledger.InTurn ∧ InTurn (message :: ledger.logOf peerIp) := by
  have entry : ∀ other, next.logOf other = _ := fun other => logOf_cons logged
  unfold Ledger.InTurn
  simp only [entry]
  constructor
  · intro turns
    have here := turns peerIp
    rw [if_pos rfl] at here
    refine ⟨fun other => ?_, here⟩
    by_cases same : other = peerIp
    · subst same
      cases message with
      | peerUp identity | peerDown identity => exact here.2
    · have there := turns other
      rwa [if_neg same] at there
  · intro both other
    by_cases same : other = peerIp
    · rw [if_pos same, same]
      exact both.2
    · rw [if_neg same]
      exact both.1 other

theorem raise_inTurn (identity : BmpPeerIdentity) (tracked : ledger.Tracked) (fresh : ledger.sessions.lookup peerIp = none) :
    ((ledger.raise peerIp identity).InTurn ↔ ledger.InTurn) ∧ (ledger.raise peerIp identity).Tracked := by
  have spared : peerIp ∉ ledger.limited := by
    intro member
    have kept := tracked.kept peerIp member
    rw [fresh] at kept
    cases kept
  constructor
  · rw [inTurn_cons rfl]
    refine ⟨fun both => both.1, fun turns => ⟨turns, fun identity opened => ?_, turns peerIp⟩⟩
    rw [tracked.last, fresh] at opened
    cases opened.2
  · constructor
    · intro other found
      rw [logOf_cons rfl]
      by_cases same : other = peerIp
      · subst same
        simp [Ledger.raise, spared]
      · simp [same, Ledger.raise, tracked.last]
    · intro other member
      rw [Ledger.raise, AssocMap.lookup_insert_if]
      split
      · rfl
      · exact tracked.kept other member

theorem lower_inTurn (tracked : ledger.Tracked) (stored : ledger.sessions.lookup peerIp = some identity) :
    ((ledger.lower peerIp identity).InTurn ↔ ledger.InTurn ∧ peerIp ∉ ledger.limited) ∧
      (peerIp ∉ ledger.limited → (ledger.lower peerIp identity).Tracked) := by
  constructor
  · rw [inTurn_cons rfl, InTurn, tracked.last, stored]
    exact ⟨fun both => ⟨both.1, both.2.1.1⟩, fun both => ⟨both.1, ⟨both.2, rfl⟩, both.1 peerIp⟩⟩
  · intro spared
    constructor
    · intro other found
      rw [logOf_cons rfl]
      by_cases same : other = peerIp
      · subst same
        simp [Ledger.lower]
      · simp [same, Ledger.lower, tracked.last]
    · intro other member
      have different : other ≠ peerIp := by
        rintro rfl
        exact spared member
      rw [Ledger.lower, AssocMap.lookup_erase_if, if_neg different]
      exact tracked.kept other member

theorem limit_inTurn (tracked : ledger.Tracked) (peerIp : IpAddr) (identity : BmpPeerIdentity) :
    ((ledger.limit peerIp identity).InTurn ↔ ledger.InTurn ∧ peerIp ∉ ledger.limited ∧ ledger.sessions.lookup peerIp = some identity) ∧
      (ledger.sessions.lookup peerIp = some identity → (ledger.limit peerIp identity).Tracked) := by
  constructor
  · rw [inTurn_cons rfl, InTurn, tracked.last]
    exact ⟨fun both => ⟨both.1, both.2.1⟩, fun both => ⟨both.1, both.2, both.1 peerIp⟩⟩
  · intro stored
    constructor
    · intro other found
      rw [logOf_cons rfl]
      by_cases same : other = peerIp
      · simp [same, Ledger.limit]
      · simp [same, Ledger.limit, tracked.last]
    · intro other member
      rcases List.mem_cons.mp member with same | earlier
      · rw [same, Ledger.limit, stored]
        rfl
      · exact tracked.kept other earlier

theorem step_inTurn {state : Monitored} (op : ServerOp) (tracked : state.ledger.Tracked) :
    ((state.step op).ledger.InTurn ↔ state.ledger.InTurn ∧ state.EndsOnce op) ∧ (state.EndsOnce op → (state.step op).ledger.Tracked) := by
  have quiet : (state.ledger.InTurn ↔ state.ledger.InTurn ∧ True) ∧ (True → state.ledger.Tracked) :=
    ⟨(and_iff_left trivial).symm, fun _ => tracked⟩
  have ending : ∀ peerIp, ∀ after ∈ some (((state.outstanding peerIp).map (state.ledger.lower peerIp)).getD state.ledger),
      (after.InTurn ↔ state.ledger.InTurn ∧ ((state.outstanding peerIp).isSome → peerIp ∉ state.ledger.limited)) ∧
        (((state.outstanding peerIp).isSome → peerIp ∉ state.ledger.limited) → after.Tracked) := by
    rintro peerIp _ ⟨⟩
    cases found : state.outstanding peerIp with
    | none => simpa using tracked
    | some identity =>
      have stored : state.ledger.sessions.lookup peerIp = some identity := by
        obtain ⟨_, _, stored⟩ := Option.bind_eq_some_iff.mp found
        exact stored
      simpa using lower_inTurn tracked stored
  cases op with
  | peerDisconnected peerIp _ | removePeer peerIp => exact ending peerIp _ rfl
  | peerUpdate peerIp routes =>
    unfold step Monitored.tell Monitored.EndsOnce
    dsimp only
    cases found : state.limitEnds peerIp routes with
    | none => simpa using tracked
    | some identity =>
      obtain ⟨turns, after⟩ := limit_inTurn tracked peerIp identity
      simpa using ⟨turns, fun _ stored => after stored⟩
  | peerStateChanged peerIp fsm =>
    cases fsm with
    | established =>
      unfold step Monitored.tell Monitored.EndsOnce
      dsimp only
      cases found : state.announced peerIp with
      | none => exact quiet
      | some identity =>
        have fresh : state.ledger.sessions.lookup peerIp = none := by
          unfold announced at found
          split at found
          · assumption
          · cases found
        obtain ⟨turns, after⟩ := raise_inTurn identity tracked fresh
        exact ⟨turns.trans (and_iff_left trivial).symm, fun _ => after⟩
    | _ => exact quiet
  | _ => exact quiet

theorem tell_logs (state : Monitored) (op : ServerOp) : (state.tell op).log = state.ledger.log ∨
      ∃ peerIp message, (state.tell op).log = (peerIp, message) :: state.ledger.log := by
  have recorded : ∀ (told : Option BmpPeerIdentity) (peerIp : IpAddr) (record : BmpPeerIdentity → Ledger)
      (message : BmpPeerIdentity → Broadcast), (∀ identity, (record identity).log = (peerIp, message identity) :: state.ledger.log) →
      ((told.map record).getD state.ledger).log = state.ledger.log ∨
        ∃ peerIp message, ((told.map record).getD state.ledger).log = (peerIp, message) :: state.ledger.log := by
    intro told peerIp record message logged
    cases told with
    | none => exact .inl rfl
    | some identity => exact .inr ⟨peerIp, message identity, logged identity⟩
  unfold Monitored.tell
  split
  · exact recorded _ _ _ .peerUp fun _ => rfl
  · exact recorded _ _ _ .peerDown fun _ => rfl
  · exact recorded _ _ _ .peerDown fun _ => rfl
  · exact recorded _ _ _ .peerDown fun _ => rfl
  · exact .inl rfl

theorem earlier_inTurn : ∀ state : Monitored, (ops.foldl step state).ledger.InTurn → state.ledger.InTurn := by
  induction ops with
  | nil => exact fun _ turns => turns
  | cons op rest ih =>
    intro state turns
    have next : (state.tell op).InTurn := ih _ turns
    rcases tell_logs state op with same | ⟨peerIp, message, logged⟩
    · unfold Ledger.InTurn Ledger.logOf at next
      rwa [same] at next
    · exact ((inTurn_cons logged).mp next).1

theorem run_inTurn : ∀ state : Monitored, state.ledger.Tracked → ((ops.foldl step state).ledger.InTurn ↔
      state.ledger.InTurn ∧ Permits step Monitored.EndsOnce state ops) := by
  induction ops with
  | nil => exact fun state _ => (and_iff_left trivial).symm
  | cons op rest ih =>
    intro state tracked
    obtain ⟨turns, after⟩ := step_inTurn op tracked
    constructor
    · intro whole
      have permitted := turns.mp (earlier_inTurn rest _ whole)
      exact ⟨permitted.1, permitted.2, ((ih _ (after permitted.2)).mp whole).2⟩
    · intro both
      exact (ih _ (after both.2.1)).mpr ⟨turns.mpr ⟨both.1, both.2.1⟩, both.2.2⟩

end

-- The broadcasts for every address are in turn after exactly the runs that end no session twice.
theorem broadcasts_alternate_iff (server : BgpServer) (ops : List ServerOp) :
    (∀ peerIp, InTurn ((ops.foldl Monitored.step (.start server)).ledger.logOf peerIp)) ↔
      Permits Monitored.step Monitored.EndsOnce (.start server) ops := by
  have tracked : (start server).ledger.Tracked := by
    constructor
    · simp [start, Ledger.logOf]
    · simp [start]
  have silent : (start server).ledger.InTurn := fun _ => trivial
  exact (run_inTurn ops _ tracked).trans ⟨fun both => both.2, fun permits => ⟨silent, permits⟩⟩

def limitedStart : BgpServer := { BgpServer.startExample with config := ⟨65000, 0x01010101, none,
      [{ ip := some BgpServer.reflectorIp, allowAutomaticStop := true, maxPrefix := some ⟨0, .terminate⟩ }], by decide⟩ }

def limitedThenRemoved : List ServerOp := BgpServer.establishExample ++
    [.peerUpdate BgpServer.reflectorIp [BgpServer.receivedExample ⟨0x0A010000, 16⟩ []], .removePeer BgpServer.reflectorIp]

theorem peer_down_twice : ¬ ∀ peerIp, InTurn ((limitedThenRemoved.foldl Monitored.step (.start limitedStart)).ledger.logOf peerIp) := by
  intro turns
  have both := turns BgpServer.reflectorIp
  cases both.1

end Bgpgg.Server
