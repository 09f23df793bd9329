import Bgpgg.Bmp.PeerUp
import Bgpgg.Peer.Control

namespace Bgpgg.Bmp

open Net Wire Lib Peer List

def MAX_BATCH_SIZE : Nat := 100

structure StatisticsTlv where
  statType : UInt16
  statValue : List UInt8
deriving DecidableEq, Repr

def ROUTES_IN_ADJ_RIB_IN : UInt16 := 7

def StatisticsTlv.newCounter64 (statType : UInt16) (value : UInt64) : StatisticsTlv := ⟨statType, u64Bytes value⟩

inductive BmpMessage where
  | routeMonitoring (peerHeader : PeerHeader) (bgpUpdate : UpdateMessage)
  | statisticsReport (peerHeader : PeerHeader) (statistics : List StatisticsTlv)
  | peerDown (peerHeader : PeerHeader) (reason : PeerDownReason)
  | peerUp (message : PeerUpMessage)
  | initiation (information : List InformationTlv)
  | termination (information : List InformationTlv)

def initiationMessage (sysName sysDescr : String) : BmpMessage :=
  .initiation [⟨2, sysName.toByteArray.data.toList⟩, ⟨1, sysDescr.toByteArray.data.toList⟩]

def terminationMessage : BmpMessage := .termination [⟨1, u16Bytes 4⟩]

inductive BmpOp where
  | peerUp (peerIp : IpAddr) (peerAs peerBgpId : UInt32) (localAddress : IpAddr) (localPort remotePort : UInt16)
      (sentOpen receivedOpen : OpenMessage) (use4byteAsn : Bool)
  | peerDown (peerIp : IpAddr) (peerAs peerBgpId : UInt32) (reason : PeerDownReason) (use4byteAsn : Bool)
  | routeMonitoring (peerIp : IpAddr) (peerAs peerBgpId : UInt32) (update : UpdateMessage)

structure BmpPeerStats where
  peerIp : IpAddr
  peerAs : UInt32
  peerBgpId : UInt32
  adjRibInCount : UInt64

abbrev Timestamp := UInt32 × UInt32

def convertToBmp (now : Timestamp) : BmpOp → BmpMessage
  | .peerUp peerIp peerAs peerBgpId localAddress localPort remotePort sentOpen receivedOpen use4byteAsn =>
    .peerUp ⟨.new .global peerIp peerAs peerBgpId false use4byteAsn (some now), localAddress, localPort, remotePort, sentOpen,
      receivedOpen, []⟩
  | .peerDown peerIp peerAs peerBgpId reason use4byteAsn =>
    .peerDown (.new .global peerIp peerAs peerBgpId false use4byteAsn (some now)) reason
  | .routeMonitoring peerIp peerAs peerBgpId update =>
    .routeMonitoring (.new .global peerIp peerAs peerBgpId false update.format.use4byteAsn (some now)) update

def statisticsMessage (now : Timestamp) (peerStat : BmpPeerStats) : BmpMessage :=
  .statisticsReport (.new .global peerStat.peerIp peerStat.peerAs peerStat.peerBgpId false true (some now))
    [.newCounter64 ROUTES_IN_ADJ_RIB_IN peerStat.adjRibInCount]

-- What the network makes of one send: whether a connect succeeds, where one is needed, and
-- whether the write breaks, with the number of messages of which it has written anything.
structure Attempt where
  connects : Bool
  breaks : Option Nat
deriving DecidableEq, Repr

-- The connections made so far with what was written on each, the latest first; the first of
-- them is open if conn is set.
structure BmpTcpClient where
  conn : Bool
  reconnectDelay : Nat
  connections : List (List BmpMessage)

namespace BmpTcpClient

def new : BmpTcpClient := ⟨false, 1, []⟩

def ensureConnected (client : BmpTcpClient) (attempt : Attempt) : Bool × BmpTcpClient := if client.conn then (true, client)
  else if attempt.connects then (true, ⟨true, 1, [] :: client.connections⟩)
  else (false, { client with reconnectDelay := min (client.reconnectDelay * 2) 30 })

def append (connections : List (List BmpMessage)) (messages : List BmpMessage) : List (List BmpMessage) := match connections with
  | [] => []
  | latest :: earlier => (latest ++ messages) :: earlier

def sendRaw (client : BmpTcpClient) (messages : List BmpMessage) (attempt : Attempt) : BmpTcpClient :=
  match client.ensureConnected attempt with
  | (false, waiting) => waiting
  | (true, connected) =>
    match attempt.breaks with
    | none => { connected with connections := append connected.connections messages }
    | some count => { connected with conn := false, connections := append connected.connections (messages.take count) }

end BmpTcpClient

inductive Phase where
  | looping
  | exited
deriving DecidableEq, Repr

structure BmpTask where
  phase : Phase
  destination : BmpTcpClient
  statisticsTimeout : Option Nat
  batch : List BmpMessage

inductive Event where
  | op (now : Timestamp) (op : BmpOp) (attempt : Attempt)
  | statistics (now : Timestamp) (stats : List (BmpPeerStats × Attempt))
  | batchTimer (attempt : Attempt)
  | closes (flush last : Attempt)

namespace BmpTask

def start (statisticsTimeout : Option Nat) (sysName sysDescr : String) (attempt : Attempt) : BmpTask where
  phase := .looping
  destination := BmpTcpClient.new.sendRaw [initiationMessage sysName sysDescr] attempt
  statisticsTimeout := statisticsTimeout
  batch := []

variable (task : BmpTask)

def flush (attempt : Attempt) : BmpTask := if task.batch.isEmpty then task
  else { task with destination := task.destination.sendRaw task.batch attempt, batch := [] }

def sendStatistics (now : Timestamp) (stats : List (BmpPeerStats × Attempt)) : BmpTask := { task with
    destination := stats.foldl (fun client entry => client.sendRaw [statisticsMessage now entry.1] entry.2) task.destination }

def statisticsEnabled : Bool := task.statisticsTimeout.any fun seconds => seconds > 0

def takes : Event → BmpTask
  | .op now op attempt =>
    let pushed := { task with batch := task.batch ++ [convertToBmp now op] }
    if pushed.batch.length ≥ MAX_BATCH_SIZE then pushed.flush attempt else pushed
  | .statistics now stats => if task.statisticsEnabled then task.sendStatistics now stats else task
  | .batchTimer attempt => task.flush attempt
  | .closes flush last =>
    let flushed := task.flush flush
    { flushed with phase := .exited, destination := flushed.destination.sendRaw [terminationMessage] last }

def step (event : Event) : BmpTask := match task.phase with
  | .looping => task.takes event
  | .exited => task

end BmpTask
open BmpTcpClient

section

variable (up : List IpAddr) (first second : List BmpMessage)

def BmpMessage.needs : BmpMessage → Option IpAddr
  | .routeMonitoring header _ | .statisticsReport header _ | .peerDown header _ => some header.peerAddress
  | .peerUp _ | .initiation _ | .termination _ => none

def BmpMessage.after (up : List IpAddr) : BmpMessage → List IpAddr
  | .peerUp message => message.peerHeader.peerAddress :: up
  | .peerDown header _ => up.filter fun ip => ip ≠ header.peerAddress
  | .routeMonitoring _ _ | .statisticsReport _ _ | .initiation _ | .termination _ => up

def upAfter (up : List IpAddr) (messages : List BmpMessage) : List IpAddr := messages.foldl BmpMessage.after up

def Follows : List IpAddr → List BmpMessage → Prop
  | _, [] => True
  | up, message :: rest => (∀ ip ∈ message.needs, ip ∈ up) ∧ Follows (message.after up) rest

instance decidableFollows : ∀ up messages, Decidable (Follows up messages)
  | _, [] => .isTrue trivial
  | up, message :: rest =>
    let _ : Decidable (Follows (message.after up) rest) := decidableFollows _ rest
    inferInstanceAs (Decidable ((∀ ip ∈ message.needs, ip ∈ up) ∧ Follows (message.after up) rest))

def BmpMessage.isInitiation : BmpMessage → Bool
  | .initiation _ => true
  | _ => false

def BeginsWithInitiation (messages : List BmpMessage) : Prop := ∀ first ∈ messages.head?, first.isInitiation = true

instance (messages : List BmpMessage) : Decidable (BeginsWithInitiation messages) :=
  inferInstanceAs (Decidable (∀ first ∈ messages.head?, first.isInitiation = true))

def WellOrdered (messages : List BmpMessage) : Prop := BeginsWithInitiation messages ∧ Follows [] messages

instance (messages : List BmpMessage) : Decidable (WellOrdered messages) :=
  inferInstanceAs (Decidable (BeginsWithInitiation messages ∧ Follows [] messages))

theorem follows_append : Follows up (first ++ second) ↔ Follows up first ∧ Follows (upAfter up first) second := by
  induction first generalizing up with
  | nil => simp [Follows, upAfter]
  | cons message rest ih =>
    rw [cons_append, Follows, Follows, ih, and_assoc]
    rfl

theorem upAfter_append : upAfter up (first ++ second) = upAfter (upAfter up first) second := foldl_append

theorem beginsWithInitiation_append (written : first ≠ []) : BeginsWithInitiation (first ++ second) ↔ BeginsWithInitiation first := by
  cases first with
  | nil => exact absurd rfl written
  | cons message rest => exact Iff.rfl

theorem WellOrdered.front {first second : List BmpMessage} (ordered : WellOrdered (first ++ second)) : WellOrdered first := by
  refine ⟨?_, ((follows_append [] first second).mp ordered.2).1⟩
  by_cases empty : first = []
  · rw [empty]
    exact fun first member => by cases member
  · exact (beginsWithInitiation_append first second empty).mp ordered.1

end

section

def BmpOp.Fits (up : List IpAddr) : BmpOp → Prop
  | .peerUp peerIp _ _ _ _ _ _ _ _ => peerIp ∉ up
  | .peerDown peerIp _ _ _ _ | .routeMonitoring peerIp _ _ _ => peerIp ∈ up

instance (up : List IpAddr) (op : BmpOp) : Decidable (op.Fits up) := by
  cases op <;> unfold BmpOp.Fits <;> infer_instance

def BmpOp.after (up : List IpAddr) : BmpOp → List IpAddr
  | .peerUp peerIp _ _ _ _ _ _ _ _ => peerIp :: up
  | .peerDown peerIp _ _ _ _ => up.filter fun ip => ip ≠ peerIp
  | .routeMonitoring _ _ _ _ => up

def Alternate : List IpAddr → List BmpOp → Prop
  | _, [] => True
  | up, op :: rest => op.Fits up ∧ Alternate (op.after up) rest

instance decidableAlternate : ∀ up ops, Decidable (Alternate up ops)
  | _, [] => .isTrue trivial
  | up, op :: rest =>
    let _ : Decidable (Alternate (op.after up) rest) := decidableAlternate _ rest
    inferInstanceAs (Decidable (op.Fits up ∧ Alternate (op.after up) rest))

def taken : List Event → List BmpOp
  | [] => []
  | .op _ op _ :: rest => op :: taken rest
  | .closes _ _ :: _ => []
  | .statistics _ _ :: rest | .batchTimer _ :: rest => taken rest

theorem after_convert (now : Timestamp) (op : BmpOp) (up : List IpAddr) : (convertToBmp now op).after up = op.after up := by
  cases op <;> rfl

theorem needs_convert (now : Timestamp) {op : BmpOp} {up : List IpAddr} (fits : op.Fits up) :
    ∀ ip ∈ (convertToBmp now op).needs, ip ∈ up := by
  cases op with
  | peerUp => intro ip member; cases member
  | peerDown | routeMonitoring => intro ip member; cases member; exact fits

end

def BmpTask.sends (task : BmpTask) : Event → List (List BmpMessage × Attempt)
  | .op now op attempt =>
    if task.batch.length + 1 ≥ MAX_BATCH_SIZE then [(task.batch ++ [convertToBmp now op], attempt)] else []
  | .statistics now stats =>
    if task.statisticsEnabled then stats.map fun entry => ([statisticsMessage now entry.1], entry.2) else []
  | .batchTimer attempt => if task.batch.isEmpty then [] else [(task.batch, attempt)]
  | .closes flush last => (if task.batch.isEmpty then [] else [(task.batch, flush)]) ++ [([terminationMessage], last)]

def BmpTcpClient.sendAll (client : BmpTcpClient) (sends : List (List BmpMessage × Attempt)) : BmpTcpClient :=
  sends.foldl (fun client send => client.sendRaw send.1 send.2) client

theorem BmpTask.takes_destination (task : BmpTask) (event : Event) :
    (task.takes event).destination = task.destination.sendAll (task.sends event) := by
  have flushed : ∀ attempt, (task.flush attempt).destination =
      task.destination.sendAll (if task.batch.isEmpty then [] else [(task.batch, attempt)]) := by
    intro attempt
    unfold flush
    split <;> rfl
  cases event with
  | op now op attempt =>
    simp only [takes, sends, length_append, length_singleton]
    split
    · simp [flush, sendAll]
    · rfl
  | statistics now stats =>
    simp only [takes, sends]
    split
    · simp [sendStatistics, sendAll, foldl_map]
    · rfl
  | batchTimer attempt => exact flushed attempt
  | closes flush last =>
    simp only [takes, sends, sendAll, foldl_append, foldl_cons]
    rw [flushed flush]
    rfl

section

def Attempt.through (attempt : Attempt) (messages : List BmpMessage) : List BmpMessage := match attempt.breaks with
  | none => messages
  | some count => messages.take count

def BmpMessage.reports : BmpMessage → Option IpAddr
  | .statisticsReport header _ => some header.peerAddress
  | _ => none

-- A statistics report is only written for a peer whose session the flushed operations have
-- opened; where there is no connection, nothing is written on a new one.
def SendSound (flushed : List IpAddr) (client : BmpTcpClient) (messages : List BmpMessage) (attempt : Attempt) : Prop :=
  if client.conn then ∀ ip ∈ (attempt.through messages).filterMap BmpMessage.reports, ip ∈ flushed
  else attempt.connects = true → (attempt.through messages).length = 0

def SendsSound : List IpAddr → BmpTcpClient → List (List BmpMessage × Attempt) → Prop
  | _, _, [] => True
  | flushed, client, (messages, attempt) :: rest => SendSound flushed client messages attempt ∧
    SendsSound (upAfter flushed messages) (client.sendRaw messages attempt) rest

instance (flushed : List IpAddr) (client : BmpTcpClient) (messages : List BmpMessage) (attempt : Attempt) :
    Decidable (SendSound flushed client messages attempt) := by
  unfold SendSound
  infer_instance

instance decidableSendsSound : ∀ flushed client sends, Decidable (SendsSound flushed client sends)
  | _, _, [] => .isTrue trivial
  | flushed, client, (messages, attempt) :: rest =>
    let _ : Decidable (SendsSound (upAfter flushed messages) (client.sendRaw messages attempt) rest) := decidableSendsSound _ _ rest
    inferInstanceAs (Decidable (SendSound flushed client messages attempt ∧ _))

end

section

variable {up : List IpAddr} (client : BmpTcpClient) (messages : List BmpMessage) (attempt : Attempt)

def BmpTcpClient.Good (client : BmpTcpClient) : Prop := ∀ messages ∈ client.connections, WellOrdered messages

instance (client : BmpTcpClient) : Decidable client.Good := by
  unfold BmpTcpClient.Good
  infer_instance

def BmpTcpClient.Live (client : BmpTcpClient) (up : List IpAddr) : Prop :=
  client.conn = true → ∃ latest earlier, client.connections = latest :: earlier ∧ latest ≠ [] ∧ upAfter [] latest = up

structure Valid (up : List IpAddr) (messages : List BmpMessage) : Prop where
  written : messages ≠ []
  late : ∀ message ∈ messages, message.isInitiation = false
  follows : (messages.filterMap BmpMessage.reports = [] ∧ Follows up messages) ∨
    ∃ header statistics, messages = [.statisticsReport header statistics]

theorem sendRaw_connections : (client.sendRaw messages attempt).connections =
      if client.conn then append client.connections (attempt.through messages)
      else if attempt.connects then attempt.through messages :: client.connections
      else client.connections := by
  unfold sendRaw ensureConnected Attempt.through
  by_cases connected : client.conn = true
  · rw [if_pos connected, if_pos connected]
    cases attempt.breaks <;> rfl
  · rw [if_neg connected, if_neg connected]
    by_cases connects : attempt.connects = true
    · rw [if_pos connects, if_pos connects]
      cases attempt.breaks <;> rfl
    · rw [if_neg connects, if_neg connects]

theorem Valid.through_follows {messages : List BmpMessage} (valid : Valid up messages) (attempt : Attempt) :
    Follows up (attempt.through messages) ↔ ∀ ip ∈ (attempt.through messages).filterMap BmpMessage.reports, ip ∈ up := by
  have shortened : ∃ count, attempt.through messages = messages.take count := by
    unfold Attempt.through
    split
    · exact ⟨messages.length, (take_length ..).symm⟩
    · rename_i count _
      exact ⟨count, rfl⟩
  obtain ⟨count, cut⟩ := shortened
  have parts := take_append_drop count messages
  rw [cut]
  rcases valid.follows with ⟨none, follows⟩ | ⟨header, statistics, single⟩
  · rw [← parts, filterMap_append, append_eq_nil_iff] at none
    rw [← parts, follows_append] at follows
    rw [none.1]
    exact ⟨fun _ ip member => absurd member not_mem_nil, fun _ => follows.1⟩
  · rw [single]
    cases count with
    | zero => exact ⟨fun _ ip member => absurd member not_mem_nil, fun _ => trivial⟩
    | succ count => simp [Follows, BmpMessage.needs, BmpMessage.reports]

theorem Valid.through_empty {messages : List BmpMessage} (valid : Valid up messages) (attempt : Attempt) :
    WellOrdered (attempt.through messages) ↔ (attempt.through messages).length = 0 := by
  rw [length_eq_zero_iff]
  constructor
  · intro ordered
    cases written : attempt.through messages with
    | nil => rfl
    | cons first rest =>
      have member : first ∈ messages := by
        have inside : first ∈ attempt.through messages := written ▸ mem_cons_self
        unfold Attempt.through at inside
        split at inside
        · exact inside
        · exact mem_of_mem_take inside
      have begins := ordered.1
      rw [written] at begins
      have late := valid.late first member
      rw [begins first rfl] at late
      cases late
  · intro empty
    rw [empty]
    refine ⟨?_, trivial⟩
    intro first member
    cases member

theorem sendRaw_good_iff {client : BmpTcpClient} {messages : List BmpMessage} (attempt : Attempt)
    (live : client.Live up) (valid : Valid up messages) :
    (client.sendRaw messages attempt).Good ↔ client.Good ∧ SendSound up client messages attempt := by
  unfold BmpTcpClient.Good SendSound
  rw [sendRaw_connections]
  by_cases connected : client.conn = true
  · obtain ⟨latest, earlier, split, begun, here⟩ := live connected
    rw [if_pos connected, if_pos connected, split, append, forall_mem_cons, forall_mem_cons,
      ← valid.through_follows attempt]
    have grown : WellOrdered (latest ++ attempt.through messages) ↔ WellOrdered latest ∧ Follows up (attempt.through messages) := by
      rw [WellOrdered, WellOrdered, beginsWithInitiation_append _ _ begun, follows_append, here, and_assoc]
    tauto
  · rw [if_neg connected, if_neg connected]
    by_cases connects : attempt.connects = true
    · rw [if_pos connects, forall_mem_cons, valid.through_empty attempt]
      tauto
    · rw [if_neg connects]
      exact ⟨fun good => ⟨good, fun yes => absurd yes connects⟩, fun both => both.1⟩

theorem sendRaw_live {client : BmpTcpClient} {messages : List BmpMessage} {attempt : Attempt}
    (live : client.Live up) (valid : Valid up messages) (sound : SendSound up client messages attempt) :
    (client.sendRaw messages attempt).Live (upAfter up messages) := by
  intro open'
  unfold sendRaw ensureConnected at open'
  have whole : attempt.breaks = none := by
    cases fate : attempt.breaks with
    | none => rfl
    | some count =>
      rw [fate] at open'
      by_cases connected : client.conn = true
      · simp [connected] at open'
      · by_cases connects : attempt.connects = true <;> simp [connected, connects] at open'
  have all : attempt.through messages = messages := by rw [Attempt.through, whole]
  rw [sendRaw_connections, all]
  unfold SendSound at sound
  rw [all] at sound
  by_cases connected : client.conn = true
  · obtain ⟨latest, earlier, split, begun, here⟩ := live connected
    rw [if_pos connected, split]
    refine ⟨latest ++ messages, earlier, rfl, ?_, ?_⟩
    · exact fun empty => begun (append_eq_nil_iff.mp empty).1
    · rw [upAfter_append, here]
  · rw [if_neg connected] at sound
    by_cases connects : attempt.connects = true
    · exact absurd (length_eq_zero_iff.mp (sound connects)) valid.written
    · simp [connected, connects] at open'

theorem sendRaw_good_before (good : (client.sendRaw messages attempt).Good) : client.Good := by
  unfold BmpTcpClient.Good at *
  rw [sendRaw_connections] at good
  split at good
  · cases split : client.connections with
    | nil => exact fun messages member => absurd member not_mem_nil
    | cons latest earlier =>
      rw [split, append, forall_mem_cons] at good
      rw [forall_mem_cons]
      exact ⟨good.1.front, good.2⟩
  · split at good
    · exact (forall_mem_cons.mp good).2
    · exact good

end

end Bgpgg.Bmp
