import Mathlib.Data.List.AList

namespace Bgpgg.Lib

-- A finite map with an iteration order that no result depends on. The order of
-- the entries stands for the unspecified order of a hash table, so every fact
-- about a map is stated through lookup or membership.
abbrev AssocMap (Key Value : Type) := AList (fun _ : Key => Value)

namespace AssocMap

variable {Key Value Result : Type} [DecidableEq Key]

variable (table : AssocMap Key Value) (key other : Key) (value : Value)

def values (table : AssocMap Key Value) : List Value := table.entries.map Sigma.snd

def contains (table : AssocMap Key Value) (key : Key) : Bool := (table.lookup key).isSome

def size (table : AssocMap Key Value) : Nat := table.entries.length

variable (change : Key → Value → Option Result)

def filterMapValues (table : AssocMap Key Value) : AssocMap Key Result where
  entries := table.entries.filterMap fun entry => (change entry.1 entry.2).map (Sigma.mk entry.1)
  nodupKeys := by
    have ordered := table.nodupKeys
    rw [List.nodupKeys_iff_pairwise] at ordered ⊢
    refine List.Pairwise.filterMap _ ?_ ordered
    intro first second different left leftOf right rightOf same
    obtain ⟨kept, -, rfl⟩ := Option.map_eq_some_iff.mp leftOf
    obtain ⟨other, -, rfl⟩ := Option.map_eq_some_iff.mp rightOf
    exact different same

theorem lookup_filterMapValues (table : AssocMap Key Value)
    (key : Key) : (filterMapValues change table).lookup key = (table.lookup key).bind (change key) := by
  apply Option.ext
  intro result
  rw [Option.bind_eq_some_iff, ← Option.mem_def, AList.mem_lookup_iff]
  simp only [filterMapValues, List.mem_filterMap, Option.map_eq_some_iff]
  constructor
  · rintro ⟨⟨found, value⟩, member, kept, changed, same⟩
    cases same
    exact ⟨value, AList.mem_lookup_iff.mpr member, changed⟩
  · rintro ⟨value, member, changed⟩
    exact ⟨⟨key, value⟩, AList.mem_lookup_iff.mp member, result, changed, rfl⟩

theorem mem_values_iff : value ∈ values table ↔ ∃ key, table.lookup key = some value := by
  simp only [values, List.mem_map]
  constructor
  · rintro ⟨⟨key, found⟩, member, rfl⟩
    exact ⟨key, AList.mem_lookup_iff.mpr member⟩
  · rintro ⟨key, found⟩
    exact ⟨⟨key, value⟩, AList.mem_lookup_iff.mp found, rfl⟩

theorem lookup_insert_if : (table.insert key value).lookup other = if other = key then some value else table.lookup other := by
  by_cases same : other = key
  · subst same
    simp
  · simp [same]

theorem lookup_erase_if : (table.erase key).lookup other = if other = key then none else table.lookup other := by
  by_cases same : other = key
  · subst same
    simp
  · simp [same]

theorem size_congr {first : AssocMap Key Value} {second : AssocMap Key Result}
    (same : ∀ key, contains first key = contains second key) : size first = size second := by
  have stored : ∀ key, key ∈ first.keys ↔ key ∈ second.keys := by
    intro key
    have agree := same key
    rw [contains, contains, Bool.eq_iff_iff, AList.lookup_isSome, AList.lookup_isSome] at agree
    exact agree
  have sameKeys : first.keys.Perm second.keys := (List.perm_ext_iff_of_nodup first.nodupKeys second.nodupKeys).mpr stored
  simpa [size, AList.keys, List.keys] using sameKeys.length_eq

theorem flatMap_entries_at (key : Key) (collect : Value → List Result) :
    (table.entries.flatMap fun entry => if entry.1 = key then collect entry.2 else []) = ((table.lookup key).map collect).getD [] := by
  have walked : ∀ entries : List (Sigma fun _ : Key => Value), entries.NodupKeys →
      (entries.flatMap fun entry => if entry.1 = key then collect entry.2 else []) = ((entries.dlookup key).map collect).getD [] := by
    intro entries
    induction entries with
    | nil => exact fun _ => rfl
    | cons head rest ih =>
      intro distinct
      obtain ⟨fresh, later⟩ := List.nodupKeys_cons.mp distinct
      rw [List.flatMap_cons, ih later]
      obtain ⟨stored, value⟩ := head
      by_cases here : stored = key
      · subst here
        have absent : rest.dlookup stored = none := List.dlookup_eq_none.mpr fresh
        simp [absent]
      · rw [List.dlookup_cons_ne _ _ (Ne.symm here)]
        simp [here]
  exact walked table.entries table.nodupKeys

end AssocMap

end Bgpgg.Lib
