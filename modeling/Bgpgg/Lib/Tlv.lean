import Bgpgg.Lib.Checked

namespace Bgpgg.Lib

open List

-- Items with a kind and a length of one byte each. What is left at the end and is no whole
-- item is left out.
def tlvsUpTo : Nat → List UInt8 → List (UInt8 × List UInt8)
  | fuel + 1, kind :: len :: rest => (kind, rest.take len.toNat) :: tlvsUpTo fuel (rest.drop len.toNat)
  | _, _ => []

variable {Error State : Type} (bytes : List UInt8) (item : UInt8 × List UInt8)

def tlvs : List (UInt8 × List UInt8) := tlvsUpTo bytes.length bytes

def lenByte : UInt8 := UInt8.ofNat bytes.length

def writeTlv : List UInt8 := item.1 :: lenByte item.2 :: item.2

def Short : Prop := item.2.length < 256

theorem lenByte_toNat {bytes : List UInt8} (short : bytes.length < 256) : (lenByte bytes).toNat = bytes.length := by
  rw [lenByte, UInt8.toNat_ofNat', Nat.mod_eq_of_lt short]

theorem lenByte_take {len : UInt8} {rest : List UInt8} (whole : len.toNat ≤ rest.length) : lenByte (rest.take len.toNat) = len := by
  rw [lenByte, length_take, Nat.min_eq_left whole, UInt8.ofNat_toNat]

theorem short_take (kind len : UInt8) (rest : List UInt8) : Short (kind, rest.take len.toNat) := by
  have below : len.toNat < 256 := len.toNat_lt
  have most := length_take_le len.toNat rest
  exact Nat.lt_of_le_of_lt most below

theorem tlvs_write {items : List (UInt8 × List UInt8)} (short : ∀ item ∈ items, Short item) : tlvs (items.flatMap writeTlv) = items := by
  have enough : ∀ fuel, (items.flatMap writeTlv).length ≤ fuel → tlvsUpTo fuel (items.flatMap writeTlv) = items := by
    induction items with
    | nil => intro fuel _; cases fuel <;> rfl
    | cons item items ih =>
      intro fuel bound
      rw [flatMap_cons, writeTlv] at bound ⊢
      simp only [length_cons, length_append] at bound
      cases fuel with
      | zero => omega
      | succ fuel =>
        rw [cons_append, cons_append, tlvsUpTo, lenByte_toNat (short item mem_cons_self), take_left,
          drop_left, ih (fun other member => short other (mem_cons_of_mem _ member)) fuel (by omega)]
  exact enough _ (Nat.le_refl _)

def ReadsTlv (turn : State → List UInt8 → Checked Error (State × List UInt8))
    (taken : State → UInt8 × List UInt8 → State → Prop) : Prop :=
  ∀ state bytes next rest, turn state bytes = .ok (next, rest) →
    ∃ item, Short item ∧ bytes = writeTlv item ++ rest ∧ taken state item next

theorem scan_tlvs {turn : State → List UInt8 → Checked Error (State × List UInt8)}
    {taken : State → UInt8 × List UInt8 → State → Prop} {limit : Nat} (advances : Advances turn limit)
    (reads : ReadsTlv turn taken) (outcome : State → List (UInt8 × List UInt8) → State → Prop)
    (finished : ∀ state, outcome state [] state)
    (moved : ∀ state item next items final, taken state item next → outcome next items final → outcome state (item :: items) final)
    {state final : State} {bytes : List UInt8} (short : bytes.length ≤ limit) (read : scan turn state bytes = .ok final) :
    ∃ items, (∀ item ∈ items, Short item) ∧ bytes = items.flatMap writeTlv ∧ outcome state items final := by
  revert read
  refine scan_induct advances (fun state bytes result => result = .ok final →
    ∃ items, (∀ item ∈ items, Short item) ∧ bytes = items.flatMap writeTlv ∧ outcome state items final) ?_ ?_ ?_ ?_ state bytes short
  · intro state same
    cases same
    exact ⟨[], fun _ member => absurd member not_mem_nil, rfl, finished final⟩
  · intro _ _ _ _ _ _ same
    cases same
  · intro _ _ _ _ _ _ same
    cases same
  · intro state bytes next rest _ _ step later same
    obtain ⟨items, allShort, written, reached⟩ := later same
    obtain ⟨item, itemShort, front, one⟩ := reads state bytes next rest step
    refine ⟨item :: items, ?_, ?_, moved state item next items final one reached⟩
    · intro other member
      rcases mem_cons.mp member with rfl | member
      · exact itemShort
      · exact allShort other member
    · rw [front, written, flatMap_cons]

theorem flatMap_eq_iff {Item : Type} {first second : Item → List UInt8} {items : List Item}
    (sized : ∀ item ∈ items, (first item).length = (second item).length) :
    items.flatMap first = items.flatMap second ↔ ∀ item ∈ items, first item = second item := by
  induction items with
  | nil => simp
  | cons item items ih =>
    have rest := ih fun other member => sized other (mem_cons_of_mem _ member)
    rw [flatMap_cons, flatMap_cons, forall_mem_cons, ← rest]
    constructor
    · exact fun same => append_inj same (sized item mem_cons_self)
    · exact fun both => by rw [both.1, both.2]

end Bgpgg.Lib
