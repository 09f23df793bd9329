import Mathlib.Algebra.GroupWithZero.Nat
import Mathlib.Data.List.Perm.Subperm
import Mathlib.Data.List.Nodup
import Bgpgg.Lib.Runs

namespace Bgpgg.Rib

open List Lib

class PathIdAllocator (Alloc : Type) where
  alloc : Alloc → UInt32 × Alloc
  free : Alloc → UInt32 → Alloc

def freeAll {Alloc : Type} [PathIdAllocator Alloc] (allocator : Alloc) (ids : List UInt32) : Alloc :=
  ids.foldl PathIdAllocator.free allocator

-- Bit index n stands for the identifier n + 1; 0 is never handed out.
structure BitmapPathIdAllocator where
  bits : List UInt64
  pos : Nat
deriving DecidableEq, Repr

namespace BitmapPathIdAllocator

def new : BitmapPathIdAllocator := ⟨[], 0⟩

def u64Max : UInt64 := 0xFFFFFFFFFFFFFFFF

def wordBit (word : UInt64) (bit : Nat) : Bool := word.toBitVec.getLsbD bit

def trailingOnes (word : UInt64) : Nat := (List.range 64).findIdx fun bit => !wordBit word bit

section

variable (allocator : BitmapPathIdAllocator)

-- The identifier is computed in u32, so it wraps once the bitmap passes 2^32 bits.
def alloc : UInt32 × BitmapPathIdAllocator := match (allocator.bits.drop allocator.pos).findIdx? (· != u64Max) with
  | some offset =>
    let idx := allocator.pos + offset
    let word := allocator.bits.getD idx 0
    let bit := trailingOnes word
    (UInt32.ofNat idx * 64 + UInt32.ofNat bit + 1, ⟨allocator.bits.set idx (word ||| 1 <<< UInt64.ofNat bit), idx⟩)
  | none =>
    (UInt32.ofNat allocator.bits.length * 64 + 1, ⟨allocator.bits ++ [1], allocator.bits.length⟩)

def free (id : UInt32) : BitmapPathIdAllocator := if id = 0 then allocator
  else
    let index := id.toNat - 1
    let wordIdx := index / 64
    if wordIdx < allocator.bits.length then
      let word := allocator.bits.getD wordIdx 0
      ⟨allocator.bits.set wordIdx (word &&& ~~~(1 <<< UInt64.ofNat (index % 64))),
        if wordIdx < allocator.pos then wordIdx else allocator.pos⟩
    else allocator

instance : PathIdAllocator BitmapPathIdAllocator := ⟨alloc, free⟩

def isSet (index : Nat) : Bool := wordBit (allocator.bits.getD (index / 64) 0) (index % 64)

def heldIndices : List Nat := (List.range (64 * allocator.bits.length)).filter allocator.isSet

def Held (id : Nat) : Prop := ∃ index, id = index + 1 ∧ allocator.isSet index = true

def HasRoom : Prop := allocator.heldIndices.length < 2 ^ 32 - 1

instance (allocator : BitmapPathIdAllocator) : Decidable allocator.HasRoom := Nat.decLt _ _

-- pos never passes a word with a free bit.
def Packed : Prop := ∀ index, index < 64 * allocator.pos → allocator.isSet index = true

end

section

variable (bits : List UInt64) (left right : UInt64) (word : UInt64) (bit : Nat) (ids : List UInt32)
  (allocator : BitmapPathIdAllocator) (id : UInt32) (other : Nat) (index : Nat)

theorem wordBit_zero : wordBit 0 bit = false := by
  simp [wordBit]

theorem wordBit_max (bounded : bit < 64) : wordBit u64Max bit = true := by
  have all : ∀ place : Fin 64, wordBit u64Max place.val = true := by decide
  exact all ⟨bit, bounded⟩

theorem wordBit_mask (bit place : Nat) (bitBounded : bit < 64) (placeBounded : place < 64) :
    wordBit (1 <<< UInt64.ofNat bit) place = decide (place = bit) := by
  have all : ∀ first second : Fin 64, wordBit (1 <<< UInt64.ofNat first.val) second.val = decide (second.val = first.val) := by decide
  exact all ⟨bit, bitBounded⟩ ⟨place, placeBounded⟩

theorem wordBit_or : wordBit (left ||| right) bit = (wordBit left bit || wordBit right bit) := by
  simp [wordBit]

theorem wordBit_clear (bounded : bit < 64) : wordBit (left &&& ~~~right) bit = (wordBit left bit && !wordBit right bit) := by
  simp [wordBit, bounded]

theorem eq_max_of_wordBit (full : ∀ bit, bit < 64 → wordBit word bit = true) : word = u64Max := by
  apply UInt64.eq_of_toBitVec_eq
  apply BitVec.eq_of_getLsbD_eq
  intro bit bounded
  exact (full bit bounded).trans (wordBit_max bit bounded).symm

theorem wordBit_below_trailingOnes (below : bit < trailingOnes word) : wordBit word bit = true := by
  simpa using not_of_lt_findIdx below

theorem trailingOnes_lt (free : word ≠ u64Max) : trailingOnes word < 64 := by
  by_contra high
  apply free
  apply eq_max_of_wordBit
  intro bit bounded
  exact wordBit_below_trailingOnes word bit (by omega)

theorem wordBit_trailingOnes (free : word ≠ u64Max) : wordBit word (trailingOnes word) = false := by
  have bounded := trailingOnes_lt word free
  have inside : (range 64).findIdx (fun bit => !wordBit word bit) < (range 64).length := by
    simpa [trailingOnes] using bounded
  simpa [trailingOnes] using findIdx_getElem (w := inside)

theorem isSet_lt (set : allocator.isSet index = true) : index < 64 * allocator.bits.length := by
  by_contra outside
  have beyond : allocator.bits.length ≤ index / 64 := by omega
  simp [isSet, getElem?_eq_none beyond, wordBit_zero] at set

theorem mem_heldIndices : index ∈ allocator.heldIndices ↔ allocator.isSet index = true := by
  simp only [heldIndices, mem_filter, mem_range]
  exact ⟨fun both => both.2, fun set => ⟨isSet_lt allocator index set, set⟩⟩

theorem index_le_heldCount (below : ∀ lower, lower < index → allocator.isSet lower = true) : index ≤ allocator.heldIndices.length := by
  have included : range index ⊆ allocator.heldIndices := by
    intro lower member
    exact (mem_heldIndices allocator lower).mpr (below lower (mem_range.mp member))
  simpa using (nodup_range.subperm included).length_le

theorem isSet_set (pos : Nat) {idx : Nat} (index : Nat) (word : UInt64) (inside : idx < bits.length) :
    isSet ⟨bits.set idx word, pos⟩ index = if index / 64 = idx then wordBit word (index % 64) else isSet ⟨bits, pos⟩ index := by
  by_cases same : index / 64 = idx
  · simp [isSet, same, inside]
  · simp [isSet, same, getElem?_set_ne (Ne.symm same)]

theorem ofNat_id (room : index < 2 ^ 32 - 1) : (UInt32.ofNat index + 1).toNat = index + 1 := by
  rw [UInt32.toNat_add, UInt32.toNat_ofNat']
  have small : index % 2 ^ 32 = index := Nat.mod_eq_of_lt (by omega)
  rw [small]
  exact Nat.mod_eq_of_lt (by simp only [UInt32.reduceToNat]; omega)

structure Allocated (before after : BitmapPathIdAllocator) (id : UInt32) (index : Nat) : Prop where
  ident : id = UInt32.ofNat index + 1
  wasFree : before.isSet index = false
  lowest : ∀ lower, lower < index → before.isSet lower = true
  bitsAfter : ∀ other, after.isSet other = (before.isSet other || decide (other = index))
  packed : after.Packed

theorem alloc_reuse (offset : Nat) (packed : allocator.Packed)
    (found : (allocator.bits.drop allocator.pos).findIdx? (· != u64Max) = some offset) :
    ∃ index, Allocated allocator allocator.alloc.2 allocator.alloc.1 index := by
  obtain ⟨inside, free, full⟩ := findIdx?_eq_some_iff_getElem.mp found
  rw [length_drop] at inside
  have bounded : allocator.pos + offset < allocator.bits.length := by omega
  have wordAt : allocator.bits.getD (allocator.pos + offset) 0 = allocator.bits[allocator.pos + offset] := by
    simp [bounded]
  have notFull : allocator.bits.getD (allocator.pos + offset) 0 ≠ u64Max := by
    rw [wordAt]
    simpa using free
  have bit := trailingOnes_lt _ notFull
  have result : allocator.alloc = (UInt32.ofNat (allocator.pos + offset) * 64 +
      UInt32.ofNat (trailingOnes (allocator.bits.getD (allocator.pos + offset) 0)) + 1,
      ⟨allocator.bits.set (allocator.pos + offset) (allocator.bits.getD (allocator.pos + offset) 0 |||
        1 <<< UInt64.ofNat (trailingOnes (allocator.bits.getD (allocator.pos + offset) 0))),
        allocator.pos + offset⟩) := by
    rw [alloc, found]
  generalize wordOf : allocator.bits.getD (allocator.pos + offset) 0 = word at *
  generalize bitOf : trailingOnes word = place at *
  have earlier : ∀ lower, lower < 64 * (allocator.pos + offset) → allocator.isSet lower = true := by
    intro lower below
    by_cases before : lower < 64 * allocator.pos
    · exact packed lower before
    · have place : lower / 64 = allocator.pos + (lower / 64 - allocator.pos) := by omega
      have skipped := full (lower / 64 - allocator.pos) (by omega)
      simp only [getElem_drop, bne_iff_ne, Decidable.not_not] at skipped
      have whole : allocator.bits.getD (lower / 64) 0 = u64Max := by
        rw [place, getD_eq_getElem?_getD, getElem?_eq_getElem (by omega)]
        exact skipped
      rw [isSet, whole]
      exact wordBit_max _ (Nat.mod_lt _ (by omega))
  have decompose : ∀ other, (other = 64 * (allocator.pos + offset) + place ↔
      other / 64 = allocator.pos + offset ∧ other % 64 = place) := by
    omega
  have bitsAfter : ∀ other, allocator.alloc.2.isSet other =
      (allocator.isSet other || decide (other = 64 * (allocator.pos + offset) + place)) := by
    intro other
    rw [result, isSet_set _ _ _ _ bounded]
    by_cases here : other / 64 = allocator.pos + offset
    · rw [if_pos here, wordBit_or, wordBit_mask _ _ bit (Nat.mod_lt _ (by omega)), isSet, here, wordOf]
      simp [decompose, here]
    · rw [if_neg here]
      have apart : ¬ other = 64 * (allocator.pos + offset) + place := fun same => here ((decompose other).mp same).1
      simp [isSet, apart]
  refine ⟨64 * (allocator.pos + offset) + place, ⟨?_, ?_, ?_, bitsAfter, ?_⟩⟩
  · rw [result]
    simp only [UInt32.ofNat_add, UInt32.ofNat_mul]
    rw [UInt32.mul_comm (UInt32.ofNat 64)]
    rfl
  · have index := (decompose (64 * (allocator.pos + offset) + place)).mp rfl
    rw [isSet, index.1, index.2, wordOf, ← bitOf]
    exact wordBit_trailingOnes word notFull
  · intro lower below
    by_cases here : lower / 64 = allocator.pos + offset
    · rw [isSet, here, wordOf]
      exact wordBit_below_trailingOnes word _ (by omega)
    · exact earlier lower (by omega)
  · intro lower below
    rw [bitsAfter, earlier lower (by simpa [result] using below), Bool.true_or]

theorem isSet_append_one (pos other index : Nat) :
    isSet ⟨bits ++ [1], other⟩ index = (isSet ⟨bits, pos⟩ index || decide (index = 64 * bits.length)) := by
  by_cases before : index / 64 < bits.length
  · have apart : ¬ index = 64 * bits.length := by omega
    simp [isSet, getElem?_append_left before, apart]
  · by_cases here : index / 64 = bits.length
    · have low : wordBit 1 (index % 64) = decide (index % 64 = 0) := by
        simpa using wordBit_mask 0 (index % 64) (by omega) (Nat.mod_lt _ (by omega))
      have place : (index = 64 * bits.length) ↔ index % 64 = 0 := by omega
      simp [isSet, here, low, place, wordBit_zero]
    · have beyond : (bits ++ [1])[index / 64]? = none := getElem?_eq_none (by simp; omega)
      have outside : bits[index / 64]? = none := getElem?_eq_none (by omega)
      have apart : ¬ index = 64 * bits.length := by omega
      simp [isSet, beyond, outside, apart]

section

variable (packed : allocator.Packed)

include packed

theorem alloc_grow (missing : (allocator.bits.drop allocator.pos).findIdx? (· != u64Max) = none) :
    ∃ index, Allocated allocator allocator.alloc.2 allocator.alloc.1 index := by
  have result : allocator.alloc = (UInt32.ofNat allocator.bits.length * 64 + 1, ⟨allocator.bits ++ [1], allocator.bits.length⟩) := by
    rw [alloc, missing]
  have earlier : ∀ lower, lower < 64 * allocator.bits.length → allocator.isSet lower = true := by
    intro lower below
    by_cases before : lower < 64 * allocator.pos
    · exact packed lower before
    · have inside : lower / 64 < allocator.bits.length := by omega
      have member : allocator.bits[lower / 64] ∈ allocator.bits.drop allocator.pos := by
        refine mem_drop_iff_getElem.mpr ⟨lower / 64 - allocator.pos, by omega, ?_⟩
        congr 1
        omega
      have full := findIdx?_eq_none_iff.mp missing _ member
      have whole : allocator.bits.getD (lower / 64) 0 = u64Max := by
        simpa [inside] using full
      rw [isSet, whole]
      exact wordBit_max _ (Nat.mod_lt _ (by omega))
  refine ⟨64 * allocator.bits.length, ⟨?_, ?_, earlier, ?_, ?_⟩⟩
  · rw [result, UInt32.ofNat_mul, UInt32.mul_comm (UInt32.ofNat 64)]
    rfl
  · by_contra set
    have inside := isSet_lt allocator _ (by simpa using set)
    omega
  · intro other
    rw [result]
    exact isSet_append_one allocator.bits allocator.pos allocator.bits.length other
  · intro lower below
    rw [result] at below ⊢
    rw [isSet_append_one allocator.bits allocator.pos, earlier lower below, Bool.true_or]

theorem alloc_allocates : ∃ index, Allocated allocator allocator.alloc.2 allocator.alloc.1 index := by
  cases search : (allocator.bits.drop allocator.pos).findIdx? (· != u64Max) with
  | some offset => exact alloc_reuse allocator offset packed search
  | none => exact alloc_grow allocator packed search

theorem alloc_index (room : allocator.HasRoom) :
    ∃ index, Allocated allocator allocator.alloc.2 allocator.alloc.1 index ∧ allocator.alloc.1.toNat = index + 1 := by
  obtain ⟨index, taken⟩ := alloc_allocates allocator packed
  have low := index_le_heldCount allocator index taken.lowest
  refine ⟨index, taken, ?_⟩
  rw [taken.ident]
  exact ofNat_id index (by simp only [HasRoom] at room; omega)

theorem alloc_held (room : allocator.HasRoom) :
    ¬ allocator.Held allocator.alloc.1.toNat ∧ 1 ≤ allocator.alloc.1.toNat ∧ allocator.alloc.2.Packed ∧
      ∀ id, allocator.alloc.2.Held id ↔ allocator.Held id ∨ id = allocator.alloc.1.toNat := by
  obtain ⟨index, taken, ident⟩ := alloc_index allocator packed room
  refine ⟨?_, by omega, taken.packed, ?_⟩
  · rintro ⟨other, same, set⟩
    have equal : other = index := by omega
    rw [equal, taken.wasFree] at set
    cases set
  · intro id
    simp only [Held, taken.bitsAfter, Bool.or_eq_true, decide_eq_true_eq, ident]
    constructor
    · rintro ⟨other, rfl, set | rfl⟩
      · exact .inl ⟨other, rfl, set⟩
      · exact .inr rfl
    · rintro (⟨other, rfl, set⟩ | rfl)
      · exact ⟨other, rfl, .inl set⟩
      · exact ⟨index, rfl, .inr rfl⟩

end

theorem isSet_free : (allocator.free id).isSet index = (allocator.isSet index && decide (index + 1 ≠ id.toNat)) := by
  by_cases zero : id = 0
  · subst zero
    simp [free]
  · have positive : 0 < id.toNat := by
      have nonzero : id.toNat ≠ 0 := fun same => zero (UInt32.toNat_inj.mp same)
      omega
    by_cases inside : (id.toNat - 1) / 64 < allocator.bits.length
    · rw [free, if_neg zero]
      simp only [if_pos inside]
      rw [isSet_set _ _ _ _ inside]
      by_cases here : index / 64 = (id.toNat - 1) / 64
      · have bit : (id.toNat - 1) % 64 < 64 := Nat.mod_lt _ (by omega)
        have place : index % 64 = (id.toNat - 1) % 64 ↔ index + 1 = id.toNat := by omega
        rw [if_pos here, wordBit_clear _ _ _ (Nat.mod_lt _ (by omega)), wordBit_mask _ _ bit (Nat.mod_lt _ (by omega)), isSet, here]
        simp [place]
      · have apart : ¬ index + 1 = id.toNat := by omega
        rw [if_neg here]
        simp [isSet, apart]
    · rw [free]
      simp only [if_neg inside]
      by_cases here : index + 1 = id.toNat
      · have unset : allocator.isSet index = false := by
          by_contra set
          have low := isSet_lt allocator index (by simpa using set)
          omega
        simp [unset]
      · simp [here]

theorem free_packed (packed : allocator.Packed) : (allocator.free id).Packed := by
  intro index below
  rw [isSet_free]
  by_cases zero : id = 0
  · subst zero
    simpa [free] using packed index below
  · have lower : index < 64 * allocator.pos ∧ index / 64 < (id.toNat - 1) / 64 ∨
        index < 64 * allocator.pos ∧ index / 64 ≠ (id.toNat - 1) / 64 ∨
        index < 64 * allocator.pos ∧ ¬ (id.toNat - 1) / 64 < allocator.bits.length := by
      rw [free, if_neg zero] at below
      by_cases inside : (id.toNat - 1) / 64 < allocator.bits.length
      · simp only [if_pos inside] at below
        by_cases moved : (id.toNat - 1) / 64 < allocator.pos
        · simp only [if_pos moved] at below
          omega
        · simp only [if_neg moved] at below
          omega
      · simp only [if_neg inside] at below
        omega
    have set : allocator.isSet index = true := packed index (by omega)
    have low := isSet_lt allocator index set
    have different : index + 1 ≠ id.toNat := by omega
    simp [set, different]

theorem free_held : (allocator.free id).Held other ↔ allocator.Held other ∧ other ≠ id.toNat := by
  simp only [Held, isSet_free, Bool.and_eq_true, decide_eq_true_eq]
  constructor
  · rintro ⟨index, rfl, set, different⟩
    exact ⟨⟨index, rfl, set⟩, different⟩
  · rintro ⟨⟨index, rfl, set⟩, different⟩
    exact ⟨index, rfl, set, different⟩

theorem freeAll_held : (freeAll allocator ids).Held other ↔ allocator.Held other ∧ ∀ id ∈ ids, other ≠ id.toNat := by
  induction ids generalizing allocator with
  | nil => simp [freeAll]
  | cons id rest ih =>
    have step : freeAll allocator (id :: rest) = freeAll (allocator.free id) rest := rfl
    rw [step, ih, free_held, forall_mem_cons, and_assoc]

theorem freeAll_packed (packed : allocator.Packed) : (freeAll allocator ids).Packed := by
  induction ids generalizing allocator with
  | nil => exact packed
  | cons id rest ih => exact ih (allocator.free id) (free_packed allocator id packed)

end

inductive Call where
  | alloc
  | free (id : UInt32)
  | freeAll (ids : List UInt32)
deriving DecidableEq, Repr

structure Ledger where
  allocator : BitmapPathIdAllocator
  ids : List UInt32
deriving DecidableEq, Repr

namespace Ledger

variable (ledger : Ledger)

def step : Call → Ledger
  | .alloc => ⟨ledger.allocator.alloc.2, ledger.allocator.alloc.1 :: ledger.ids⟩
  | .free id => ⟨ledger.allocator.free id, ledger.ids.filter (· ≠ id)⟩
  | .freeAll ids => ⟨freeAll ledger.allocator ids, ledger.ids.filter (· ∉ ids)⟩

def HasRoom : Prop := ledger.ids.length < 2 ^ 32 - 1

instance : Decidable ledger.HasRoom := Nat.decLt _ _

structure GivesLowest : Prop where
  positive : ledger.allocator.alloc.1 ≠ 0
  unused : ledger.allocator.alloc.1 ∉ ledger.ids
  lowest : ∀ id, id ≠ 0 → id < ledger.allocator.alloc.1 → id ∈ ledger.ids
  marks : ∀ id : UInt32, ledger.allocator.alloc.2.Held id.toNat ↔ id = ledger.allocator.alloc.1 ∨ id ∈ ledger.ids

structure Tracks : Prop where
  packed : ledger.allocator.Packed
  held : ∀ id, ledger.allocator.Held id ↔ ∃ given ∈ ledger.ids, given.toNat = id

variable {ledger}

theorem Tracks.room (tracks : ledger.Tracks) (room : ledger.HasRoom) : ledger.allocator.HasRoom := by
  have distinct : (ledger.allocator.heldIndices.map (· + 1)).Nodup :=
    (nodup_range.filter _).map fun _ _ same => Nat.succ.inj same
  have given : ledger.allocator.heldIndices.map (· + 1) ⊆ ledger.ids.map UInt32.toNat := by
    intro id member
    obtain ⟨index, set, rfl⟩ := mem_map.mp member
    exact mem_map.mpr ((tracks.held _).mp ⟨index, rfl, (mem_heldIndices _ _).mp set⟩)
  have fewer := (distinct.subperm given).length_le
  rw [length_map, length_map] at fewer
  exact Nat.lt_of_le_of_lt fewer room

theorem Tracks.step (tracks : ledger.Tracks) (call : Call) (room : ledger.HasRoom) : (ledger.step call).Tracks := by
  cases call with
  | alloc =>
    obtain ⟨-, -, packed, held⟩ := alloc_held _ tracks.packed (tracks.room room)
    refine ⟨packed, fun id => ?_⟩
    rw [Ledger.step, held, tracks.held]
    simp [or_comm, eq_comm]
  | free freed =>
    refine ⟨free_packed _ freed tracks.packed, fun id => ?_⟩
    rw [Ledger.step, free_held, tracks.held]
    grind [UInt32.toNat_inj]
  | freeAll freed =>
    refine ⟨freeAll_packed _ _ tracks.packed, fun id => ?_⟩
    rw [Ledger.step, freeAll_held, tracks.held]
    grind [UInt32.toNat_inj]

theorem alloc_gives_lowest (reached : Reaches Ledger.step (fun ledger _ => ledger.HasRoom) ⟨.new, []⟩ ledger)
    (room : ledger.HasRoom) : ledger.GivesLowest := by
  have tracks := reached.invariant Tracks ⟨fun _ low => by simp [new] at low, fun id => by simp [Held, isSet, new, wordBit_zero]⟩
    fun _ call tracks room => tracks.step call room
  have given : ∀ id : UInt32, ledger.allocator.Held id.toNat ↔ id ∈ ledger.ids := by
    simp [tracks.held, UInt32.toNat_inj]
  obtain ⟨index, taken, ident⟩ := alloc_index _ tracks.packed (tracks.room room)
  obtain ⟨fresh, positive, -, held⟩ := alloc_held _ tracks.packed (tracks.room room)
  refine ⟨?_, ?_, ?_, ?_⟩
  · intro zero
    rw [zero] at positive
    cases positive
  · rwa [← given]
  · intro id nonzero below
    have above : id.toNat ≠ 0 := fun same => nonzero (UInt32.toNat_inj.mp same)
    have low : id.toNat < index + 1 := ident ▸ UInt32.lt_iff_toNat_lt.mp below
    exact (given id).mp ⟨id.toNat - 1, by omega, taken.lowest _ (by omega)⟩
  · intro id
    rw [held, given, UInt32.toNat_inj, or_comm]

theorem reuses_freed_id : (Ledger.GivesLowest ([Call.alloc, .alloc, .alloc, .freeAll [2, 9], .free 0].foldl step ⟨.new, []⟩)) :=
  alloc_gives_lowest (.of_permits _ _ (by decide)) (by decide)

end Ledger

end BitmapPathIdAllocator

end Bgpgg.Rib
