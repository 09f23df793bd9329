import Mathlib.Data.List.Dedup

namespace Bgpgg.Lib

-- The order in which a hash table is walked: any arrangement of the keys put into it. What
-- holds for every such order does not depend on the hasher.
structure HashOrder (Key : Type) [DecidableEq Key] where
  keys : List Key → List Key
  perm : ∀ inserted, (keys inserted).Perm inserted.dedup

namespace HashOrder

variable {Key : Type} [DecidableEq Key]

instance : Inhabited (HashOrder Key) := ⟨⟨List.dedup, fun _ => .refl _⟩⟩

def reversed (order : HashOrder Key) : HashOrder Key where
  keys inserted := (order.keys inserted).reverse
  perm inserted := (List.reverse_perm _).trans (order.perm inserted)

section

variable (order : HashOrder Key) (first second : HashOrder Key) (inserted : List Key)

theorem mem_keys (key : Key) : key ∈ order.keys inserted ↔ key ∈ inserted := by
  rw [(order.perm inserted).mem_iff, List.mem_dedup]

theorem nodup_keys : (order.keys inserted).Nodup := (order.perm inserted).nodup_iff.mpr (List.nodup_dedup inserted)

theorem keys_perm : (first.keys inserted).Perm (second.keys inserted) := (first.perm inserted).trans (second.perm inserted).symm

theorem filter_keys_of_single (picked : Key → Bool)
    (single : ∀ key ∈ inserted, ∀ other ∈ inserted, picked key = true → picked other = true → key = other) :
    (first.keys inserted).filter picked = (second.keys inserted).filter picked := by
  have perm := (first.keys_perm second inserted).filter picked
  have distinct := (first.nodup_keys inserted).filter picked
  have members : ∀ key ∈ (first.keys inserted).filter picked, key ∈ inserted ∧ picked key = true := by
    intro key member
    rw [List.mem_filter, mem_keys] at member
    exact member
  generalize (first.keys inserted).filter picked = keys at perm distinct members
  cases keys with
  | nil => exact (List.nil_perm.mp perm).symm
  | cons key rest =>
    cases rest with
    | nil => exact List.singleton_perm.mp perm
    | cons other rest =>
      have here := members key (by simp)
      have there := members other (by simp)
      have same := single key here.1 other there.1 here.2 there.2
      simp [same] at distinct

end

omit [DecidableEq Key] in
theorem head_reverse_ne {keys : List Key} (distinct : keys.Nodup) {key other : Key} (here : key ∈ keys) (there : other ∈ keys)
    (different : key ≠ other) : keys.head? ≠ keys.reverse.head? := by
  cases keys with
  | nil => cases here
  | cons first rest =>
    rw [List.head?_reverse]
    intro same
    rcases List.eq_nil_or_concat rest with none | ⟨before, last, shape⟩
    · rw [none, List.mem_singleton] at here there
      exact different (here.trans there.symm)
    · rw [shape, List.concat_eq_append, ← List.cons_append, List.getLast?_append] at same
      have equal : first = last := by simpa using same
      rw [shape, List.concat_eq_append, equal] at distinct
      simp at distinct

end HashOrder

end Bgpgg.Lib
