import Bgpgg.Lib.BigEndian

namespace Bgpgg.Lib

inductive Fault where
  | outOfBounds
  | endless
deriving DecidableEq, Repr

-- A computation on bytes returns a value or an error, or it does not return: it reads outside
-- its buffer or loops without moving.
inductive Checked (Error Value : Type) where
  | ok (value : Value)
  | err (error : Error)
  | fault (reason : Fault)
deriving DecidableEq, Repr

namespace Checked

variable {Error Other Value Result : Type}

variable (reason : Fault) (error : Error) (first : Checked Error Value) (computation : Checked Error Value) (value : Value)
  (next : Value → Checked Error Result)

def bind (first : Checked Error Value) (next : Value → Checked Error Result) : Checked Error Result := match first with
  | ok value => next value
  | err error => err error
  | fault reason => fault reason

instance : Monad (Checked Error) where
  pure := ok
  bind := bind

def optional (computation : Checked Error Value) : Checked Other (Option Value) := match computation with
  | ok value => ok (some value)
  | err _ => ok none
  | fault reason => fault reason

def silent (computation : Checked Error Value) : Checked Unit Value := match computation with
  | ok value => ok value
  | err _ => err ()
  | fault reason => fault reason

def ofOption (error : Error) : Option Value → Checked Error Value
  | some value => ok value
  | none => err error

def Faults : Checked Error Value → Prop
  | fault _ => True
  | _ => False

instance (computation : Checked Error Value) : Decidable computation.Faults := match computation with
  | ok _ => .isFalse id
  | err _ => .isFalse id
  | fault _ => .isTrue trivial

@[simp] theorem pure_eq : (pure value : Checked Error Value) = ok value := rfl

@[simp] theorem ok_bind : (ok value >>= next) = next value := rfl

@[simp] theorem err_bind : ((err error : Checked Error Value) >>= next) = err error := rfl

@[simp] theorem fault_bind : ((fault reason : Checked Error Value) >>= next) = fault reason := rfl

instance : LawfulMonad (Checked Error) := LawfulMonad.mk' (Checked Error)
    (by intro Value computation; cases computation <;> rfl)
    (by intro Value Result value next; rfl)
    (by intro Value Middle Result computation next last; cases computation <;> rfl)

@[simp] theorem faults_ok : ¬ (ok value : Checked Error Value).Faults := id

@[simp] theorem faults_err : ¬ (err error : Checked Error Value).Faults := id

@[simp] theorem faults_fault : (fault reason : Checked Error Value).Faults := trivial

@[simp] theorem faults_bind : (first >>= next).Faults ↔ first.Faults ∨ ∃ value, first = ok value ∧ (next value).Faults := by
  cases first with
  | ok value | err error => simp
  | fault reason => simp

theorem returns_bind (early : ¬ first.Faults) (late : ∀ value, first = ok value → ¬ (next value).Faults) : ¬ (first >>= next).Faults := by
  rw [faults_bind]
  intro either
  cases either with
  | inl here => exact early here
  | inr later =>
    obtain ⟨value, returned, faulty⟩ := later
    exact late value returned faulty

@[simp] theorem faults_optional : (computation.optional : Checked Other (Option Value)).Faults ↔ computation.Faults := by
  cases computation <;> simp [optional]

@[simp] theorem faults_silent : computation.silent.Faults ↔ computation.Faults := by
  cases computation <;> simp [silent]

@[simp] theorem silent_ok : (ok value : Checked Error Value).silent = ok value := rfl

theorem silent_eq_ok : computation.silent = ok value ↔ computation = ok value := by
  cases computation <;> simp [silent]

@[simp] theorem faults_ofOption (found : Option Value) : ¬ (ofOption error found).Faults := by
  cases found <;> simp [ofOption]

section

variable {State Item : Type} (step : State → Item → Checked Error State)

theorem faults_foldlM (safe : ∀ state item, ¬ (step state item).Faults) (items : List Item) (state : State) :
    ¬ (items.foldlM step state).Faults := by
  induction items generalizing state with
  | nil => exact faults_ok state
  | cons item rest ih =>
    rw [List.foldlM_cons, faults_bind]
    intro either
    cases either with
    | inl here => exact safe state item here
    | inr later =>
      obtain ⟨next, -, faulty⟩ := later
      exact ih next faulty

theorem faults_foldlM_iff (items : List Item) (state : State) : (items.foldlM step state).Faults ↔
      ∃ before item after, items = before ++ item :: after ∧
        ∃ reached, before.foldlM step state = ok reached ∧ (step reached item).Faults := by
  induction items generalizing state with
  | nil => simp
  | cons first rest ih =>
    rw [List.foldlM_cons, faults_bind]
    constructor
    · intro either
      cases either with
      | inl here => exact ⟨[], first, rest, rfl, state, rfl, here⟩
      | inr later =>
        obtain ⟨next, taken, faulty⟩ := later
        obtain ⟨before, item, after, split, reached, walked, stuck⟩ := (ih next).mp faulty
        refine ⟨first :: before, item, after, by rw [split, List.cons_append], reached, ?_, stuck⟩
        rw [List.foldlM_cons, taken]
        exact walked
    · rintro ⟨before, item, after, split, reached, walked, stuck⟩
      cases before with
      | nil =>
        cases split
        cases walked
        exact .inl stuck
      | cons other before =>
        obtain ⟨rfl, rfl⟩ := split
        rw [List.foldlM_cons] at walked
        cases taken : step state first with
        | ok next =>
          rw [taken] at walked
          exact .inr ⟨next, rfl, (ih next).mpr ⟨before, item, after, rfl, reached, walked, stuck⟩⟩
        | err error | fault reason =>
          rw [taken] at walked
          cases walked

end

theorem bind_eq_ok (result : Result) : (first >>= next) = ok result ↔ ∃ value, first = ok value ∧ next value = ok result := by
  cases first with
  | ok value | err error => simp
  | fault reason => simp

theorem of_bind {first : Checked Error Value} {next : Value → Checked Error Result} {result : Result}
    (returned : (first >>= next) = ok result) : ∃ value, first = ok value ∧ next value = ok result :=
  (bind_eq_ok first next result).mp returned

theorem returns_iff : ¬ computation.Faults ↔ (∃ value, computation = ok value) ∨ ∃ error, computation = err error := by
  cases computation <;> simp

end Checked

section

variable {Error : Type}

variable (byte : UInt8) (bytes : List UInt8) (index : Nat) (start count : Nat)

def byteAt (bytes : List UInt8) (index : Nat) : Checked Error UInt8 := match bytes[index]? with
  | some byte => .ok byte
  | none => .fault .outOfBounds

def slice (bytes : List UInt8) (start stop : Nat) : Checked Error (List UInt8) :=
  if start ≤ stop ∧ stop ≤ bytes.length then .ok ((bytes.drop start).take (stop - start)) else .fault .outOfBounds

def bytesAt (bytes : List UInt8) (start : Nat) : Nat → Checked Error (List UInt8)
  | 0 => .ok []
  | count + 1 => do
    let first ← byteAt bytes start
    let rest ← bytesAt bytes (start + 1) count
    .ok (first :: rest)

def copyInto (size : Nat) (source : List UInt8) : Checked Error (List UInt8) :=
  if source.length ≤ size then .ok (source ++ List.replicate (size - source.length) 0) else .fault .outOfBounds

def copyExact (size : Nat) (source : List UInt8) : Checked Error (List UInt8) :=
  if source.length = size then .ok source else .fault .outOfBounds

@[simp] theorem faults_byteAt : (byteAt bytes index : Checked Error UInt8).Faults ↔ bytes.length ≤ index := by
  unfold byteAt
  split
  · rename_i byte found
    have inside := (List.getElem?_eq_some_iff.mp found).1
    simp only [Checked.faults_ok, false_iff]
    omega
  · rename_i missing
    simpa using missing

@[simp] theorem byteAt_cons_zero : (byteAt (byte :: bytes) 0 : Checked Error UInt8) = .ok byte := rfl

@[simp] theorem byteAt_cons_succ : (byteAt (byte :: bytes) (index + 1) : Checked Error UInt8) = byteAt bytes index := rfl

@[simp] theorem faults_slice (start stop : Nat) :
    (slice bytes start stop : Checked Error (List UInt8)).Faults ↔ ¬ (start ≤ stop ∧ stop ≤ bytes.length) := by
  unfold slice
  split
  · rename_i inside
    simp [inside]
  · rename_i outside
    simp [outside]

theorem slice_eq_ok (start stop : Nat) (inside : start ≤ stop ∧ stop ≤ bytes.length) :
    (slice bytes start stop : Checked Error (List UInt8)) = .ok ((bytes.drop start).take (stop - start)) := by
  rw [slice, if_pos inside]

theorem bytesAt_eq_ok (inside : start + count ≤ bytes.length) :
    (bytesAt bytes start count : Checked Error (List UInt8)) = .ok ((bytes.drop start).take count) := by
  induction count generalizing start with
  | zero => rfl
  | succ count ih =>
    have present : start < bytes.length := by omega
    have front : bytes.drop start = bytes[start] :: bytes.drop (start + 1) := (List.getElem_cons_drop ..).symm
    rw [bytesAt, byteAt, List.getElem?_eq_getElem present, front]
    rw [ih (start + 1) (by omega)]
    rfl

theorem faults_bytesAt (inside : start + count ≤ bytes.length) : ¬ (bytesAt bytes start count : Checked Error (List UInt8)).Faults := by
  rw [bytesAt_eq_ok bytes start count inside]
  exact Checked.faults_ok _

theorem faults_bytesAt_short (positive : 0 < count)
    (short : bytes.length < start + count) : (bytesAt bytes start count : Checked Error (List UInt8)).Faults := by
  induction count generalizing start with
  | zero => omega
  | succ count ih =>
    rw [bytesAt, Checked.faults_bind, faults_byteAt]
    by_cases outside : bytes.length ≤ start
    · exact .inl outside
    · refine .inr ⟨bytes[start], by rw [byteAt, List.getElem?_eq_getElem (by omega)], ?_⟩
      rw [Checked.faults_bind]
      exact .inl (ih (start + 1) (by omega) (by omega))

end

-- A while loop over a buffer: each turn reads the rest of the buffer and says where the next
-- one starts. A turn that does not move is a loop without an end.
section

variable {Error State : Type}

def consume (turn : State → List UInt8 → Checked Error (State × List UInt8)) : Nat → State → List UInt8 → Checked Error State
  | _, state, [] => .ok state
  | 0, _, _ :: _ => .fault .endless
  | fuel + 1, state, byte :: bytes => do
    let (next, rest) ← turn state (byte :: bytes)
    consume turn fuel next rest

def scan (turn : State → List UInt8 → Checked Error (State × List UInt8)) (state : State) (bytes : List UInt8) : Checked Error State :=
  consume turn bytes.length state bytes

variable {turn : State → List UInt8 → Checked Error (State × List UInt8)}

def Advances (turn : State → List UInt8 → Checked Error (State × List UInt8)) (limit : Nat) : Prop :=
  ∀ state bytes next rest, bytes ≠ [] → bytes.length ≤ limit → turn state bytes = .ok (next, rest) → rest.length < bytes.length

variable {limit : Nat}

theorem consume_fuel (advances : Advances turn limit) (fuel : Nat) (state : State) (bytes : List UInt8)
    (short : bytes.length ≤ limit) (enough : bytes.length ≤ fuel) :
    consume turn fuel state bytes = scan turn state bytes := by
  rw [scan]
  generalize exact : bytes.length = length
  induction fuel using Nat.strongRecOn generalizing state bytes length with
  | _ fuel ih =>
    cases bytes with
    | nil =>
      subst exact
      cases fuel <;> rfl
    | cons byte rest =>
      subst exact
      cases fuel with
      | zero => simp at enough
      | succ fuel =>
        rw [List.length_cons, consume, consume]
        cases step : turn state (byte :: rest) with
        | err error | fault reason => rfl
        | ok value =>
          obtain ⟨next, left⟩ := value
          have shorter := advances state (byte :: rest) next left (List.cons_ne_nil _ _) short step
          simp only [List.length_cons] at shorter enough short
          simp only [Checked.ok_bind]
          rw [ih fuel (by omega) next left (by omega) (by omega) left.length rfl]
          by_cases same : rest.length = fuel
          · rw [same, ih fuel (by omega) next left (by omega) (by omega) left.length rfl]
          · rw [ih rest.length (by omega) next left (by omega) (by omega) left.length rfl]

@[simp] theorem scan_nil (state : State) : scan turn state [] = .ok state := rfl

section

variable (advances : Advances turn limit)

include advances

theorem scan_step (state : State) (bytes : List UInt8) (nonempty : bytes ≠ []) (short : bytes.length ≤ limit) :
    scan turn state bytes = (turn state bytes >>= fun moved => scan turn moved.1 moved.2) := by
  cases bytes with
  | nil => exact absurd rfl nonempty
  | cons byte rest =>
    rw [scan, List.length_cons, consume]
    cases step : turn state (byte :: rest) with
    | err error | fault reason => rfl
    | ok value =>
      obtain ⟨next, left⟩ := value
      have shorter := advances state (byte :: rest) next left (List.cons_ne_nil _ _) short step
      simp only [List.length_cons] at shorter short
      exact consume_fuel advances rest.length next left (by omega) (by omega)

theorem scan_induct (outcome : State → List UInt8 → Checked Error State → Prop) (finished : ∀ state, outcome state [] (.ok state))
    (failed : ∀ state bytes error, bytes ≠ [] → bytes.length ≤ limit → turn state bytes = .err error → outcome state bytes (.err error))
    (faulted : ∀ state bytes reason, bytes ≠ [] → bytes.length ≤ limit → turn state bytes = .fault reason →
      outcome state bytes (.fault reason))
    (moved : ∀ state bytes next rest, bytes ≠ [] → bytes.length ≤ limit → turn state bytes = .ok (next, rest) →
      outcome next rest (scan turn next rest) → outcome state bytes (scan turn next rest))
    (state : State) (bytes : List UInt8) (short : bytes.length ≤ limit) :
    outcome state bytes (scan turn state bytes) := by
  generalize bound : bytes.length = length
  induction length using Nat.strongRecOn generalizing state bytes with
  | _ length ih =>
    by_cases empty : bytes = []
    · subst empty
      exact finished state
    · rw [scan_step advances state bytes empty short]
      cases step : turn state bytes with
      | err error => exact failed state bytes error empty short step
      | fault reason => exact faulted state bytes reason empty short step
      | ok value =>
        obtain ⟨next, rest⟩ := value
        have shorter := advances state bytes next rest empty short step
        exact moved state bytes next rest empty short step (ih rest.length (by omega) next rest (by omega) rfl)

theorem scan_invariant (property : State → List UInt8 → Prop)
    (kept : ∀ state bytes next rest, turn state bytes = .ok (next, rest) → property state bytes → property next rest)
    {state final : State} {bytes : List UInt8} (short : bytes.length ≤ limit) (initial : property state bytes)
    (scanned : scan turn state bytes = .ok final) : property final [] := by
  refine scan_induct advances (fun state bytes outcome => property state bytes → ∀ final, outcome = .ok final → property final [])
    ?_ ?_ ?_ ?_ state bytes short initial final scanned
  · intro state before final same
    cases same
    exact before
  · intro _ _ _ _ _ _ _ final same
    cases same
  · intro _ _ _ _ _ _ _ final same
    cases same
  · intro state bytes next rest _ _ moved later before
    exact later (kept state bytes next rest moved before)

theorem scan_returns (safe : ∀ state bytes, bytes ≠ [] → ¬ (turn state bytes).Faults)
    (state : State) (bytes : List UInt8) (short : bytes.length ≤ limit) : ¬ (scan turn state bytes).Faults := by
  refine scan_induct advances (fun _ _ outcome => ¬ outcome.Faults) Checked.faults_ok ?_ ?_ ?_ state bytes short
  · intro _ _ error _ _ _
    exact Checked.faults_err error
  · intro state bytes reason nonempty _ faulted
    have returns := safe state bytes nonempty
    rw [faulted] at returns
    exact absurd (Checked.faults_fault reason) returns
  · intro _ _ _ _ _ _ _ kept
    exact kept

end

theorem scan_items {Item : Type} {turn : List Item → List UInt8 → Checked Error (List Item × List UInt8)}
    (advances : Advances turn limit) (write : Item → List UInt8) (readable : Item → Prop) (nonempty : ∀ item, write item ≠ [])
    (parsed : ∀ done item rest, readable item → turn done (write item ++ rest) = .ok (done ++ [item], rest))
    (items : List Item) (all : ∀ item ∈ items, readable item) (short : (items.flatMap write).length ≤ limit) :
    scan turn [] (items.flatMap write) = .ok items := by
  have continued : ∀ done, scan turn done (items.flatMap write) = .ok (done ++ items) := by
    induction items with
    | nil => exact fun done => by rw [List.append_nil]; rfl
    | cons item items ih =>
      intro done
      rw [List.flatMap_cons] at short ⊢
      have present : write item ++ items.flatMap write ≠ [] := fun empty => nonempty item (List.append_eq_nil_iff.mp empty).1
      rw [scan_step advances done _ present short, parsed done item _ (all item List.mem_cons_self), Checked.ok_bind]
      rw [List.length_append] at short
      rw [ih (fun other member => all other (List.mem_cons_of_mem _ member)) (by omega), List.append_assoc]
      rfl
  exact continued []

end

end Bgpgg.Lib
