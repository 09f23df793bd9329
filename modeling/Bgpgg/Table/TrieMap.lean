import Bgpgg.Lib.AssocMap
import Bgpgg.Table.TrieRefinement

namespace Bgpgg.Table.PrefixTrie

open Lib PatriciaTree

variable {width : Nat} {Value : Type} {trie : PrefixTrie width Value} {tree : PrefixTree width Value} {key : CanonicalNet width}
  {value : Value}

-- A whole trie: the tree at the root, which owns every index that is not free.
structure Represents (trie : PrefixTrie width Value) (tree : PrefixTree width Value) : Prop where
  holds : ∃ used, Holds trie.nodes trie.root tree used ∧ Packed trie used
  under : tree.Under []
  len : trie.len = tree.entries.length

theorem represents_new : Represents (.new : PrefixTrie width Value) .nil := ⟨⟨[], .nil, .refl []⟩, trivial, rfl⟩

theorem Packed.enough {used : List Nat} (packed : Packed trie used) : used.length < trie.nodes.length + 1 := by
  have length := packed.length
  omega

-- Without a free index the arena is the tree, and half of a tree is entries.
theorem Represents.arena_le (represents : Represents trie tree) (empty : trie.freeList = []) : trie.nodes.length ≤ 2 * trie.len := by
  obtain ⟨used, holds, packed⟩ := represents.holds
  have length := packed.length
  have bound := (size_le represents.under).1
  rw [← holds.length_eq_size] at bound
  rw [empty, List.length_nil] at length
  rw [represents.len]
  omega

theorem Grafted.represents {next : PrefixTrie width Value} {link : Option Nat} (grafted : Grafted trie [] link tree next)
    (under : tree.Under []) {len : Nat} (counts : len = tree.entries.length) :
    Represents { next with root := link, len := len } tree ∧ next.nodes.length ≤ max trie.nodes.length (2 * len) := by
  obtain ⟨used, holds, packed⟩ := grafted.holds
  rw [List.append_nil] at packed
  have represents : Represents { next with root := link, len := len } tree := ⟨⟨used, holds, packed⟩, under, counts⟩
  refine ⟨represents, ?_⟩
  rcases grafted.grown with same | empty
  · exact same ▸ Nat.le_max_left _ _
  · exact Nat.le_trans (represents.arena_le empty) (Nat.le_max_right _ _)

section

variable (represents : Represents trie tree)

include represents

theorem Represents.insert (key : CanonicalNet width) (value : Value) :
    ∃ next, trie.insert key.val value = some (tree.get key, next) ∧ Represents next (tree.insert key value) ∧
      next.nodes.length ≤ max trie.nodes.length (2 * next.len) := by
  obtain ⟨used, holds, packed⟩ := represents.holds
  have under : (tree.insert key value).Under [] := insert_under represents.under List.nil_prefix
  have counts := length_entries_insert key value tree
  rw [PrefixTrie.insert]
  cases root : trie.root with
  | none =>
    rw [root] at holds
    obtain ⟨rfl, rfl⟩ := holds_none holds
    obtain ⟨idx, next, allocated, len, -, grafted⟩ := graft_leaf packed key value
    have length : next.len + 1 = (PatriciaTree.insert key value .nil : PrefixTree width Value).entries.length := by
      rw [len, represents.len]
      exact counts.symm
    refine ⟨{ next with root := some idx, len := next.len + 1 }, ?_, grafted.represents under length⟩
    simp only [allocated]
    rfl
  | some top =>
    rw [root] at holds
    have linked : Linked trie none top [] := root
    obtain ⟨idx, next, inserted, len, grafted⟩ := @insertAt_spec _ _ _ _ _ _ key value (trie.nodes.length + 1) _ _ holds
      (by rwa [List.append_nil]) linked packed.enough
    have length : (if (tree.get key).isNone then next.len + 1 else next.len) = (tree.insert key value).entries.length := by
      rw [counts, len, represents.len]
      split <;> rfl
    exact ⟨_, inserted, grafted.represents under length⟩

theorem Represents.remove (key : CanonicalNet width) :
    ∃ next, trie.remove key.val = some (tree.get key, next) ∧ Represents next (tree.remove key) ∧
      next.nodes.length = trie.nodes.length := by
  obtain ⟨used, holds, packed⟩ := represents.holds
  rw [PrefixTrie.remove]
  cases root : trie.root with
  | none =>
    rw [root] at holds
    obtain ⟨rfl, rfl⟩ := holds_none holds
    exact ⟨trie, rfl, represents, rfl⟩
  | some top =>
    rw [root] at holds
    cases stored : tree.get key with
    | none =>
      refine ⟨trie, removeAt_absent _ holds packed.enough stored, ?_, rfl⟩
      rw [remove_absent represents.under stored]
      exact represents
    | some value =>
      have linked : Linked trie none top [] := root
      obtain ⟨link, next, removed, len, length, grafted⟩ := removeAt_present (trie.nodes.length + 1) holds
        (by rwa [List.append_nil]) linked packed.enough stored
      have counts := length_entries_remove key tree
      rw [stored, Option.toList_some, List.length_singleton] at counts
      have remaining : next.len = (tree.remove key).entries.length := by
        rw [len, represents.len]
        omega
      exact ⟨_, removed, (grafted.represents (remove_under represents.under) remaining).1, length⟩

theorem Represents.valueNode (key : CanonicalNet width) : trie.valueNode key.val = some none ∧ tree.get key = none ∨
      ∃ idx node value, trie.valueNode key.val = some (some (idx, value)) ∧ tree.get key = some value ∧ trie.nodes[idx]? = some node ∧
        ∀ later, Represents (trie.setNode idx { node with value := some later }) (tree.insert key later) := by
  obtain ⟨used, holds, packed⟩ := represents.holds
  rw [PrefixTrie.valueNode]
  cases root : trie.root with
  | none =>
    rw [root] at holds
    obtain ⟨rfl, rfl⟩ := holds_none holds
    exact .inl ⟨rfl, rfl⟩
  | some top =>
    rw [root] at holds
    rcases @findExact_spec _ _ _ _ _ key (trie.nodes.length + 1) _ _ holds (by rwa [List.append_nil]) packed.enough with
      ⟨walked, absent⟩ | ⟨idx, node, walked, read, same, written⟩
    · exact .inl ⟨by simp only [walked]; rfl, absent⟩
    · cases stored : node.value with
      | none =>
        refine .inl ⟨?_, same.symm.trans stored⟩
        simp only [walked, PrefixTrie.node, Option.bind_eq_bind, Option.bind_some, read, stored]
        rfl
      | some value =>
        refine .inr ⟨idx, node, value, ?_, same.symm.trans stored, read, fun later => ?_⟩
        · simp only [walked, PrefixTrie.node, Option.bind_eq_bind, Option.bind_some, read, stored]
          rfl
        · have counts := length_entries_insert key later tree
          rw [← same, stored] at counts
          have under : (tree.insert key later).Under [] := insert_under represents.under List.nil_prefix
          have whole := ((written later).represents under (represents.len.trans counts.symm)).1
          rw [← root] at whole
          exact whole

theorem Represents.get (key : CanonicalNet width) : trie.get key.val = some (tree.get key) := by
  rw [PrefixTrie.get]
  rcases represents.valueNode key with ⟨walked, absent⟩ | ⟨idx, node, value, walked, present, -⟩
  · rw [walked, absent]
    rfl
  · rw [walked, present]
    rfl

theorem Represents.getMut (key : CanonicalNet width) (change : Value → Value) :
    ∃ next, trie.getMut key.val change = some (tree.get key, next) ∧
      Represents next ((tree.get key).elim tree fun value => tree.insert key (change value)) ∧
      next.nodes.length = trie.nodes.length := by
  rw [PrefixTrie.getMut]
  rcases represents.valueNode key with ⟨walked, absent⟩ | ⟨idx, node, value, walked, present, read, written⟩
  · rw [walked, absent]
    exact ⟨trie, rfl, represents, rfl⟩
  · rw [walked, present]
    refine ⟨_, ?_, written (change value), by simp [setNode]⟩
    simp only [Option.bind_eq_bind, Option.bind_some, modifyNode_eq read]
    rfl

end

end Bgpgg.Table.PrefixTrie

namespace Bgpgg.Table

open Lib PatriciaTree

variable {width : Nat} {Value : Type}

inductive TrieOp (width : Nat) (Value : Type) where
  | insert (key : CanonicalNet width) (value : Value)
  | remove (key : CanonicalNet width)
  | getMut (key : CanonicalNet width) (change : Value → Value)

abbrev NetMap (width : Nat) (Value : Type) := AssocMap (CanonicalNet width) Value

namespace TrieOp

def onTrie (trie : PrefixTrie width Value) : TrieOp width Value → Option (Option Value × PrefixTrie width Value)
  | insert key value => trie.insert key.val value
  | remove key => trie.remove key.val
  | getMut key change => trie.getMut key.val change

def key : TrieOp width Value → CanonicalNet width
  | insert key _ | remove key | getMut key _ => key

def onMap (map : NetMap width Value) : TrieOp width Value → NetMap width Value
  | insert key value => map.insert key value
  | remove key => map.erase key
  | getMut key change => (map.lookup key).elim map fun value => map.insert key (change value)

def runTrie : List (TrieOp width Value) → PrefixTrie width Value → Option (List (Option Value) × PrefixTrie width Value)
  | [], trie => some ([], trie)
  | op :: ops, trie => do
    let (old, trie) ← op.onTrie trie
    let (olds, trie) ← runTrie ops trie
    return (old :: olds, trie)

def runMap : List (TrieOp width Value) → NetMap width Value → List (Option Value) × NetMap width Value
  | [], map => ([], map)
  | op :: ops, map => ((map.lookup op.key) :: (runMap ops (op.onMap map)).1, (runMap ops (op.onMap map)).2)

def peak : List (TrieOp width Value) → NetMap width Value → Nat
  | [], map => map.size
  | op :: ops, map => max map.size (peak ops (op.onMap map))

end TrieOp

namespace PrefixTrie

variable {trie : PrefixTrie width Value} {map : NetMap width Value}

def Refines (trie : PrefixTrie width Value) (map : NetMap width Value) : Prop :=
  ∃ tree, Represents trie tree ∧ ∀ key, tree.get key = map.lookup key

section

variable (refines : Refines trie map)

include refines

theorem Refines.get (key : CanonicalNet width) : trie.get key.val = some (map.lookup key) := by
  obtain ⟨tree, represents, same⟩ := refines
  rw [represents.get, same]

theorem Refines.len : trie.len = map.size := by
  obtain ⟨tree, represents, same⟩ := refines
  have keys : (tree.entries.map Prod.fst).Perm map.keys := by
    refine (List.perm_ext_iff_of_nodup (entries_nodup represents.under) map.nodupKeys).mpr fun key => ?_
    change _ ↔ key ∈ map.keys
    rw [← AList.mem_keys, ← AList.lookup_isSome, ← same, Option.isSome_iff_exists, List.mem_map]
    constructor
    · rintro ⟨⟨_, value⟩, member, rfl⟩
      exact ⟨value, (get_eq_some_iff represents.under).mpr member⟩
    · rintro ⟨value, stored⟩
      exact ⟨(key, value), (get_eq_some_iff represents.under).mp stored, rfl⟩
  rw [represents.len]
  simpa [AssocMap.size, AList.keys, List.keys] using keys.length_eq

theorem Refines.valueNode (key : CanonicalNet width) : trie.valueNode key.val = some none ∧ map.lookup key = none ∨
      ∃ idx node value, trie.valueNode key.val = some (some (idx, value)) ∧ map.lookup key = some value ∧ trie.nodes[idx]? = some node ∧
        ∀ later, Refines (trie.setNode idx { node with value := some later }) (map.insert key later) := by
  obtain ⟨tree, represents, same⟩ := refines
  rcases represents.valueNode key with ⟨walked, absent⟩ | ⟨idx, node, value, walked, present, read, written⟩
  · exact .inl ⟨walked, (same key).symm.trans absent⟩
  · refine .inr ⟨idx, node, value, walked, (same key).symm.trans present, read, fun later => ⟨_, written later, fun other => ?_⟩⟩
    rw [get_insert represents.under List.nil_prefix, AssocMap.lookup_insert_if, same]

theorem Refines.step (op : TrieOp width Value) : ∃ next, op.onTrie trie = some (map.lookup op.key, next) ∧ Refines next (op.onMap map) ∧
      next.nodes.length ≤ max trie.nodes.length (2 * (op.onMap map).size) := by
  obtain ⟨tree, represents, same⟩ := refines
  cases op with
  | insert key value =>
    obtain ⟨next, inserted, after, grown⟩ := represents.insert key value
    have refined : Refines next (map.insert key value) := by
      refine ⟨_, after, fun other => ?_⟩
      rw [get_insert represents.under List.nil_prefix, AssocMap.lookup_insert_if, same]
    rw [refined.len] at grown
    exact ⟨next, by rw [← same]; exact inserted, refined, grown⟩
  | remove key =>
    obtain ⟨next, removed, after, length⟩ := represents.remove key
    refine ⟨next, by rw [← same]; exact removed, ⟨_, after, fun other => ?_⟩, length ▸ Nat.le_max_left _ _⟩
    rw [get_remove represents.under, TrieOp.onMap, AssocMap.lookup_erase_if, same]
  | getMut key change =>
    obtain ⟨next, written, after, length⟩ := represents.getMut key change
    refine ⟨next, by rw [← same]; exact written, ⟨_, after, fun other => ?_⟩, length ▸ Nat.le_max_left _ _⟩
    rw [TrieOp.onMap, ← same key]
    cases tree.get key with
    | none => exact same other
    | some value =>
      rw [Option.elim_some, Option.elim_some, get_insert represents.under List.nil_prefix, AssocMap.lookup_insert_if, same]

theorem Refines.run (ops : List (TrieOp width Value)) :
    ∃ last, TrieOp.runTrie ops trie = some ((TrieOp.runMap ops map).1, last) ∧ Refines last (TrieOp.runMap ops map).2 ∧
      last.nodes.length ≤ max trie.nodes.length (2 * TrieOp.peak ops map) := by
  induction ops generalizing trie map with
  | nil => exact ⟨trie, rfl, refines, Nat.le_max_left _ _⟩
  | cons op ops ih =>
    obtain ⟨next, stepped, after, grown⟩ := refines.step op
    obtain ⟨last, ran, final, bound⟩ := ih after
    refine ⟨last, ?_, final, ?_⟩
    · simp only [TrieOp.runTrie, stepped, ran, Option.bind_eq_bind, Option.bind_some]
      rfl
    · have peaks : (op.onMap map).size ≤ TrieOp.peak ops (op.onMap map) := by
        cases ops with
        | nil => exact Nat.le_refl _
        | cons => exact Nat.le_max_left _ _
      rw [TrieOp.peak]
      omega

end

theorem refines_new : Refines (.new : PrefixTrie width Value) ∅ := ⟨.nil, represents_new, fun _ => rfl⟩

-- The bound keeps the index of every node exact in 32 bits up to half as many keys.
theorem trie_refines_map (ops : List (TrieOp width Value)) : ∃ trie, TrieOp.runTrie ops .new = some ((TrieOp.runMap ops ∅).1, trie) ∧
      (∀ key : CanonicalNet width, trie.get key.val = some ((TrieOp.runMap ops ∅).2.lookup key)) ∧
      trie.len = (TrieOp.runMap ops ∅).2.size ∧ trie.nodes.length ≤ 2 * TrieOp.peak ops ∅ := by
  obtain ⟨trie, ran, refines, bound⟩ := refines_new.run ops
  refine ⟨trie, ran, refines.get, refines.len, ?_⟩
  exact Nat.le_trans bound (Nat.max_le.mpr ⟨Nat.zero_le _, Nat.le_refl _⟩)

end PrefixTrie

end Bgpgg.Table
