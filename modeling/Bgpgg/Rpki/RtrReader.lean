import Bgpgg.Rpki.Rtr

namespace Bgpgg.Rpki.Rtr

open Lib Checked List

def READ_BUF_SIZE : Nat := 4096

inductive RtrReadError where
  | eof
  | parse (error : ParseError)
  | messageTooLarge (length : Nat)
deriving DecidableEq, Repr

-- The stream is the list of chunks that it still delivers; a chunk that is longer than the
-- read buffer takes several reads.
structure RtrReader where
  buf : List UInt8
  chunks : List (List UInt8)
deriving DecidableEq, Repr

def RtrReader.new (chunks : List (List UInt8)) : RtrReader := { buf := [], chunks := chunks }

def read : List (List UInt8) → List UInt8 × List (List UInt8)
  | [] => ([], [])
  | chunk :: rest =>
    if chunk.length ≤ READ_BUF_SIZE then (chunk, rest) else (chunk.take READ_BUF_SIZE, chunk.drop READ_BUF_SIZE :: rest)

def parsed {Value : Type} : Checked ParseError Value → Checked RtrReadError Value
  | .ok value => .ok value
  | .err error => .err (.parse error)
  | .fault reason => .fault reason

def tryExtract (buf : List UInt8) : Checked RtrReadError (Option (Message × Nat)) := if buf.length ≥ HEADER_SIZE then do
    let field ← parsed (u32At buf 4)
    if field.toNat > MAX_MESSAGE_SIZE.toNat then .err (.messageTooLarge field.toNat)
    else if buf.length ≥ field.toNat then do
      let front ← slice buf 0 field.toNat
      let found ← parsed (fromBytes front)
      .ok (some found)
    else .ok none
  else .ok none

def drain (buf : List UInt8) (consumed : Nat) : Checked RtrReadError (List UInt8) :=
  if consumed ≤ buf.length then .ok (buf.drop consumed) else .fault .outOfBounds

def nextWithin : Nat → RtrReader → Checked RtrReadError (Message × RtrReader)
  | 0, _ => .fault .endless
  | turns + 1, reader => do
    let extracted ← tryExtract reader.buf
    match extracted with
    | some (message, consumed) =>
      let left ← drain reader.buf consumed
      .ok (message, { reader with buf := left })
    | none =>
      let (received, rest) := read reader.chunks
      if received.length = 0 then .err .eof
      else nextWithin turns { buf := reader.buf ++ received, chunks := rest }

def nextMessage (reader : RtrReader) : Checked RtrReadError (Message × RtrReader) := nextWithin (reader.chunks.flatten.length + 1) reader

def nextMessages : Nat → RtrReader → Checked RtrReadError (List Message × RtrReader)
  | 0, reader => .ok ([], reader)
  | count + 1, reader => do
    let (message, next) ← nextMessage reader
    let (messages, last) ← nextMessages count next
    .ok (message :: messages, last)

section

variable (chunks : List (List UInt8))

theorem read_flatten : (read chunks).1 ++ (read chunks).2.flatten = chunks.flatten := by
  cases chunks with
  | nil => rfl
  | cons chunk rest =>
    rw [read]
    split
    · rfl
    · rw [flatten_cons, flatten_cons, ← append_assoc, take_append_drop]

theorem read_filled (filled : ∀ chunk ∈ chunks, chunk ≠ []) : ∀ chunk ∈ (read chunks).2, chunk ≠ [] := by
  cases chunks with
  | nil => exact filled
  | cons chunk rest =>
    rw [read]
    split
    · exact fun other member => filled other (mem_cons_of_mem _ member)
    · rename_i long
      intro other member
      cases mem_cons.mp member with
      | inl here =>
        rw [here]
        intro empty
        exact long (drop_eq_nil_iff.mp empty)
      | inr later => exact filled other (mem_cons_of_mem _ later)

theorem read_received (filled : ∀ chunk ∈ chunks, chunk ≠ []) (more : chunks.flatten ≠ []) : (read chunks).1.length ≠ 0 := by
  cases chunks with
  | nil => exact absurd rfl more
  | cons chunk rest =>
    have some := filled chunk mem_cons_self
    rw [read]
    split
    · exact fun empty => some (length_eq_zero_iff.mp empty)
    · rw [length_take]
      change min 4096 chunk.length ≠ 0
      omega

end

section

variable (message : Message) (buf later tail : List UInt8)

theorem tryExtract_complete (inRange : message.InRange) (small : message.serialize.length ≤ 65536) :
    tryExtract (message.serialize ++ tail) = .ok (some (message, message.serialize.length)) := by
  have size := length_serialize message
  have length : message.length.toNat = message.serialize.length := (length_toNat message small).trans size.symm
  have front : (slice (message.serialize ++ tail) 0 message.serialize.length : Checked RtrReadError (List UInt8)) =
      .ok message.serialize := slice_write [] message.serialize tail 0 _ rfl (Nat.zero_add _)
  have bound : MAX_MESSAGE_SIZE.toNat = 65536 := rfl
  rw [tryExtract, if_pos (by rw [length_append]; omega), u32At_serialize]
  simp only [parsed, ok_bind, length]
  rw [if_neg (by omega), if_pos (by rw [length_append]; omega), front, ok_bind, fromBytes_serialize message inRange small]
  rfl

theorem tryExtract_short (small : message.serialize.length ≤ 65536) (stream : buf ++ later = message.serialize ++ tail)
    (short : buf.length < message.serialize.length) : tryExtract buf = .ok none := by
  have size := length_serialize message
  have length : message.length.toNat = message.serialize.length := (length_toNat message small).trans size.symm
  unfold tryExtract
  split
  · rename_i headed
    have inside : 4 + 4 ≤ buf.length := headed
    have field : u32At buf 4 = .ok message.length := by
      rw [← u32At_serialize message tail, ← stream, u32At_eq_ok buf 4 inside,
        u32At_eq_ok (buf ++ later) 4 (by rw [length_append]; omega), drop_append_of_le_length (by omega),
        take_append_of_le_length (by rw [length_drop]; omega)]
    have bound : MAX_MESSAGE_SIZE.toNat = 65536 := rfl
    rw [field]
    simp only [parsed, ok_bind]
    rw [if_neg (by omega), if_neg (by omega)]
  · rfl

end

def RtrReader.stream (reader : RtrReader) : List UInt8 := reader.buf ++ reader.chunks.flatten

theorem nextWithin_returns (message : Message) (inRange : message.InRange) (small : message.serialize.length ≤ 65536)
    (tail : List UInt8) (turns : Nat) (reader : RtrReader) (filled : ∀ chunk ∈ reader.chunks, chunk ≠ [])
    (stream : reader.stream = message.serialize ++ tail) (enough : reader.chunks.flatten.length < turns) :
    ∃ next : RtrReader, nextWithin turns reader = .ok (message, next) ∧ next.stream = tail ∧ ∀ chunk ∈ next.chunks, chunk ≠ [] := by
  induction turns generalizing reader with
  | zero => omega
  | succ turns ih =>
    obtain ⟨buf, chunks⟩ := reader
    replace stream : buf ++ chunks.flatten = message.serialize ++ tail := stream
    by_cases short : buf.length < message.serialize.length
    · have more : chunks.flatten ≠ [] := by
        intro empty
        have lengths := congrArg length stream
        rw [empty, append_nil, length_append] at lengths
        omega
      have received := read_received chunks filled more
      have joined := read_flatten chunks
      have fewer : (read chunks).2.flatten.length < turns := by
        have lengths := congrArg length joined
        rw [length_append] at lengths
        dsimp only at enough
        omega
      obtain ⟨next, returned, rest⟩ := ih { buf := buf ++ (read chunks).1, chunks := (read chunks).2 } (read_filled chunks filled)
        (by rw [RtrReader.stream, append_assoc, joined, stream]) fewer
      refine ⟨next, ?_, rest⟩
      rw [nextWithin, tryExtract_short message buf _ tail small stream short, ok_bind]
      dsimp only
      rw [if_neg received, returned]
    · -- The message is whole: what follows it in the buffer stays there.
      have long : message.serialize.length ≤ buf.length := by omega
      have split : buf = message.serialize ++ buf.drop message.serialize.length := by
        have front := congrArg (take message.serialize.length) stream
        rw [take_append_of_le_length long, take_left] at front
        conv_lhs => rw [← take_append_drop message.serialize.length buf, front]
      refine ⟨⟨buf.drop message.serialize.length, chunks⟩, ?_, ?_, filled⟩
      · rw [nextWithin]
        rw [show tryExtract buf = .ok (some (message, message.serialize.length)) by
          rw [split]; exact tryExtract_complete message _ inRange small]
        rw [ok_bind]
        dsimp only
        rw [drain, if_pos long]
        rfl
      · have after := congrArg (drop message.serialize.length) stream
        rwa [drop_append_of_le_length long, drop_left] at after

theorem nextMessages_returns (messages : List Message) (inRange : ∀ message ∈ messages, message.InRange)
    (small : ∀ message ∈ messages, message.serialize.length ≤ 65536) (reader : RtrReader)
    (filled : ∀ chunk ∈ reader.chunks, chunk ≠ []) (stream : reader.stream = messages.flatMap Message.serialize) :
    nextMessages messages.length reader = .ok (messages, { buf := [], chunks := [] }) := by
  induction messages generalizing reader with
  | nil =>
    obtain ⟨buf, chunks⟩ := reader
    obtain ⟨rfl, empty⟩ := append_eq_nil_iff.mp stream
    have none : chunks = [] := by
      cases chunks with
      | nil => rfl
      | cons chunk rest => exact absurd (append_eq_nil_iff.mp empty).1 (filled chunk mem_cons_self)
    rw [none]
    rfl
  | cons message messages ih =>
    obtain ⟨next, returned, left, still⟩ := nextWithin_returns message (inRange message mem_cons_self)
      (small message mem_cons_self) (messages.flatMap Message.serialize) (reader.chunks.flatten.length + 1) reader filled
      stream (Nat.lt_succ_self _)
    have rest := ih (fun other member => inRange other (mem_cons_of_mem _ member))
      (fun other member => small other (mem_cons_of_mem _ member)) next still left
    rw [length_cons, nextMessages, nextMessage, returned, ok_bind]
    dsimp only
    rw [rest]
    rfl

section

@[simp] theorem faults_parsed {Value : Type} (computation : Checked ParseError Value) :
    (parsed computation).Faults ↔ computation.Faults := by
  cases computation <;> simp [parsed]

theorem faults_tryExtract (buf : List UInt8) : ¬ (tryExtract buf).Faults := by
  unfold tryExtract
  split
  · rename_i headed
    change 8 ≤ buf.length at headed
    refine returns_bind _ _ (by rw [faults_parsed]; exact faults_u32At buf 4 (by omega)) fun field _ => ?_
    split
    · exact faults_err _
    · split
      · refine returns_bind _ _ (by rw [faults_slice]; omega) fun front _ => ?_
        refine returns_bind _ _ (by rw [faults_parsed]; exact faults_fromBytes front) fun found _ => ?_
        exact faults_ok _
      · exact faults_ok _
  · exact faults_ok _

theorem tryExtract_consumed {buf : List UInt8} {message : Message} {consumed : Nat}
    (extracted : tryExtract buf = .ok (some (message, consumed))) : consumed ≤ buf.length := by
  unfold tryExtract at extracted
  split at extracted
  · obtain ⟨field, -, extracted⟩ := of_bind extracted
    split at extracted
    · cases extracted
    · split at extracted
      · rename_i present
        rw [slice_eq_ok buf 0 field.toNat ⟨Nat.zero_le _, present⟩, ok_bind] at extracted
        obtain ⟨found, decoded, extracted⟩ := of_bind extracted
        cases extracted
        cases outcome : fromBytes ((buf.drop 0).take (field.toNat - 0)) with
        | err error | fault reason => rw [outcome] at decoded; cases decoded
        | ok value =>
          rw [outcome] at decoded
          cases decoded
          have inside := fromBytes_consumed _ message consumed outcome
          rw [length_take] at inside
          omega
      · cases extracted
  · cases extracted

theorem faults_nextWithin (turns : Nat) (reader : RtrReader) (enough : reader.chunks.flatten.length < turns) :
    ¬ (nextWithin turns reader).Faults := by
  induction turns generalizing reader with
  | zero => omega
  | succ turns ih =>
    refine returns_bind _ _ (faults_tryExtract reader.buf) fun extracted outcome => ?_
    cases extracted with
    | some found =>
      obtain ⟨message, consumed⟩ := found
      have inside := tryExtract_consumed outcome
      dsimp only
      rw [drain, if_pos inside]
      exact faults_ok _
    | none =>
      dsimp only
      split
      · exact faults_err _
      · refine ih _ ?_
        have lengths := congrArg length (read_flatten reader.chunks)
        rw [length_append] at lengths
        dsimp only
        omega

end

theorem rtr_stream_round_trips : (∀ (messages : List Message) (chunks : List (List UInt8)), (∀ message ∈ messages, message.InRange) →
      (∀ message ∈ messages, message.serialize.length ≤ MAX_MESSAGE_SIZE.toNat) →
      (∀ chunk ∈ chunks, chunk ≠ []) → chunks.flatten = messages.flatMap Message.serialize →
      nextMessages messages.length (RtrReader.new chunks) = .ok (messages, { buf := [], chunks := [] })) ∧
    (∀ bytes : List UInt8, ¬ (fromBytes bytes).Faults) ∧
    ∀ reader : RtrReader, ¬ (nextMessage reader).Faults := by
  refine ⟨?_, faults_fromBytes, fun reader => faults_nextWithin _ reader (Nat.lt_succ_self _)⟩
  intro messages chunks inRange small filled stream
  exact nextMessages_returns messages inRange small (RtrReader.new chunks) filled stream

def quoted : List Message := [.resetQuery, .errorReport .invalidRequest (some Message.resetQuery.serialize) "no"]

def cut : List (List UInt8) := [(quoted.flatMap Message.serialize).take 13, (quoted.flatMap Message.serialize).drop 13]

theorem rtr_stream_round_trips_across_header : (∀ message ∈ quoted, message.InRange) ∧ cut.flatten = quoted.flatMap Message.serialize ∧
      nextMessages 2 (RtrReader.new cut) = .ok (quoted, { buf := [], chunks := [] }) :=
  ⟨by decide, by decide, rtr_stream_round_trips.1 quoted cut (by decide) (by decide) (by decide) (by decide)⟩

end Bgpgg.Rpki.Rtr
