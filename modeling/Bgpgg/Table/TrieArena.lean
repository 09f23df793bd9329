import Bgpgg.Table.Canonical
import Mathlib.Data.List.Perm.Basic

namespace Bgpgg.Table

open Net Lib List

variable {width : Nat} {Value : Type}

abbrev PrefixTree (width : Nat) (Value : Type) := PatriciaTree (CanonicalNet width) Value

namespace TrieNode

section

variable (node : TrieNode width Value) (side : Bool) (link : Option Nat)

@[simp] theorem child_setChild (side other : Bool) (link : Option Nat) :
    (node.setChild side link).child other = if other = side then link else node.child other := by
  cases side <;> cases other <;> rfl

@[simp] theorem pfx_setChild : (node.setChild side link).pfx = node.pfx := by
  cases side <;> rfl

@[simp] theorem value_setChild : (node.setChild side link).value = node.value := by
  cases side <;> rfl

theorem setChild_self : node.setChild side (node.child side) = node := by
  cases side <;> rfl

end

end TrieNode

-- The nodes at a link are a tree, and these are the indices it occupies.
inductive Holds (nodes : List (TrieNode width Value)) : Option Nat → PrefixTree width Value → List Nat → Prop where
  | nil : Holds nodes none .nil []
  | node (idx : Nat) (stored : TrieNode width Value) (key : CanonicalNet width)
      (children : Bool → PrefixTree width Value) (used : Bool → List Nat) (read : nodes[idx]? = some stored)
      (pfx : stored.pfx = key.val) (inside : ∀ side, Holds nodes (stored.child side) (children side) (used side)) :
      Holds nodes (some idx) (.node key stored.value children) (idx :: (used false ++ used true))

theorem Holds.transport {nodes next : List (TrieNode width Value)} {link : Option Nat} {tree : PrefixTree width Value}
    {used : List Nat} (holds : Holds nodes link tree used) (agree : ∀ idx ∈ used, next[idx]? = nodes[idx]?) :
    Holds next link tree used := by
  induction holds with
  | nil => exact .nil
  | node idx stored key children used read pfx inside ih =>
    have below : ∀ side, ∀ other ∈ used side, next[other]? = nodes[other]? := by
      intro side other member
      refine agree other (mem_cons_of_mem _ ?_)
      cases side with
      | false => exact mem_append_left _ member
      | true => exact mem_append_right _ member
    exact .node idx stored key children used ((agree idx mem_cons_self).trans read) pfx fun side => ih side (below side)

section

variable {nodes : List (TrieNode width Value)}

variable {tree : PrefixTree width Value} {used : List Nat} {idx : Nat}

theorem Holds.inv {owned : List Nat}
    (holds : Holds nodes (some idx) tree owned) : ∃ (stored : TrieNode width Value) (key : CanonicalNet width)
      (children : Bool → PrefixTree width Value) (used : Bool → List Nat), nodes[idx]? = some stored ∧
      stored.pfx = key.val ∧ tree = .node key stored.value children ∧ owned = idx :: (used false ++ used true) ∧
      ∀ side, Holds nodes (stored.child side) (children side) (used side) := by
  cases holds with
  | node _ stored key children used read pfx inside => exact ⟨stored, key, children, used, read, pfx, rfl, rfl, inside⟩

theorem Holds.root_used (holds : Holds nodes (some idx) tree used) : idx ∈ used := by
  cases holds
  exact mem_cons_self

theorem Holds.length_eq_size {link : Option Nat} (holds : Holds nodes link tree used) : used.length = tree.size := by
  induction holds with
  | nil => rfl
  | node idx stored key children used read pfx inside ih =>
    rw [length_cons, length_append, ih false, ih true]
    rfl

end

theorem count_update (used : Bool → List Nat) (side : Bool) (changed : List Nat) (idx : Nat) :
    (Function.update used side changed false ++ Function.update used side changed true).count idx =
      changed.count idx + (used (!side)).count idx := by
  cases side with
  | false => simp
  | true =>
    simp only [count_append, Bool.not_true, Function.update_self, ne_eq, Bool.false_eq_true, not_false_eq_true, Function.update_of_ne]
    omega

namespace PrefixTrie

def Packed (trie : PrefixTrie width Value) (owned : List Nat) : Prop := (owned ++ trie.freeList).Perm (List.range trie.nodes.length)

variable {trie next : PrefixTrie width Value} {owned rest : List Nat} {idx other : Nat}

variable {link : Option Nat} {tree : PrefixTree width Value} {parent : Option Nat} {node : TrieNode width Value}

section

variable (packed : Packed trie owned)

include packed

theorem packed_of_count {kept : List Nat} (nodes : next.nodes.length = trie.nodes.length)
    (same : ∀ idx, kept.count idx + next.freeList.count idx = owned.count idx + trie.freeList.count idx) :
    Packed next kept := by
  rw [Packed, nodes]
  refine List.Perm.trans ?_ packed
  rw [perm_iff_count]
  intro idx
  rw [count_append, count_append, same idx]

theorem Packed.count_le (idx : Nat) : owned.count idx + trie.freeList.count idx ≤ 1 := by
  rw [← count_append, packed.count_eq]
  exact nodup_iff_count_le_one.mp nodup_range idx

theorem Packed.lt (member : idx ∈ owned) : idx < trie.nodes.length := by
  have listed := packed.subset (mem_append_left _ member)
  exact mem_range.mp listed

theorem Packed.free_lt (member : idx ∈ trie.freeList) : idx < trie.nodes.length := by
  have listed := packed.subset (mem_append_right _ member)
  exact mem_range.mp listed

theorem Packed.length : owned.length + trie.freeList.length = trie.nodes.length := by
  rw [← length_append, packed.length_eq, length_range]

end

def setNode (trie : PrefixTrie width Value) (idx : Nat) (node : TrieNode width Value) : PrefixTrie width Value :=
  { trie with nodes := trie.nodes.set idx node }

theorem modifyNode_eq (read : trie.nodes[idx]? = some node) (change : TrieNode width Value → TrieNode width Value) :
    trie.modifyNode idx change = some (trie.setNode idx (change node)) := by
  simp [modifyNode, PrefixTrie.node, read, setNode]

theorem read_setNode_self (node : TrieNode width Value) (inside : idx < trie.nodes.length) :
    (trie.setNode idx node).nodes[idx]? = some node := by
  simp [setNode, inside]

theorem read_setNode_other (node : TrieNode width Value) (different : other ≠ idx) :
    (trie.setNode idx node).nodes[other]? = trie.nodes[other]? := by
  simp [setNode, Ne.symm different]

theorem setNode_self (read : trie.nodes[idx]? = some node) : trie.setNode idx node = trie := by
  obtain ⟨inside, same⟩ := List.getElem?_eq_some_iff.mp read
  rw [setNode, ← same, set_getElem_self]

theorem setNode_setNode (first second : TrieNode width Value) :
    (trie.setNode idx first).setNode idx second = trie.setNode idx second := by
  simp [setNode]

theorem packed_setNode (packed : Packed trie owned) (node : TrieNode width Value) : Packed (trie.setNode idx node) owned :=
  packed_of_count packed (by simp [setNode]) fun _ => rfl

structure Allocated (trie : PrefixTrie width Value) (owned : List Nat) (node : TrieNode width Value) (idx : Nat)
    (next : PrefixTrie width Value) : Prop where
  read : next.nodes[idx]? = some node
  kept : ∀ other ∈ owned, next.nodes[other]? = trie.nodes[other]?
  packed : Packed next (idx :: owned)
  root : next.root = trie.root
  len : next.len = trie.len
  free : next.freeList = trie.freeList.tail
  grown : next.nodes.length = trie.nodes.length ∨ next.freeList = []

theorem allocNode_spec (packed : Packed trie owned) (pfx : IpNet width) (value : Option Value) :
    ∃ idx next, trie.allocNode pfx value = some (idx, next) ∧ Allocated trie owned ⟨pfx, value, none, none⟩ idx next := by
  cases free : trie.freeList with
  | nil =>
    refine ⟨trie.nodes.length, { trie with nodes := trie.nodes ++ [⟨pfx, value, none, none⟩] }, ?_, ?_⟩
    · simp [allocNode, free]
    · refine ⟨by simp, fun other member => ?_, ?_, rfl, rfl, by simp [free], .inr free⟩
      · exact List.getElem?_append_left (packed.lt member)
      · rw [Packed] at packed ⊢
        simp only [length_append, length_singleton, range_succ] at packed ⊢
        exact (perm_append_singleton _ _).symm.trans (packed.append_right _)
  | cons head later =>
    have inside : head < trie.nodes.length := packed.free_lt (by simp [free])
    obtain ⟨node, read⟩ : ∃ node, trie.nodes[head]? = some node := ⟨_, List.getElem?_eq_getElem inside⟩
    refine ⟨head, { trie with freeList := later }.setNode head ⟨pfx, value, none, none⟩, ?_, ?_⟩
    · have written := @modifyNode_eq _ _ { trie with freeList := later } head node read fun _ => ⟨pfx, value, none, none⟩
      simp [allocNode, free, written]
    · refine ⟨read_setNode_self _ inside, fun other member => ?_, ?_, rfl, rfl, by simp [setNode, free], .inl ?_⟩
      · refine read_setNode_other _ ?_
        rintro rfl
        have once := packed.count_le other
        have twice := count_pos_iff.mpr member
        rw [free, count_cons_self] at once
        omega
      · refine packed_of_count packed (by simp [setNode]) fun idx => ?_
        simp only [setNode, free, count_cons]
        omega
      · simp [setNode]

def Linked (trie : PrefixTrie width Value) (parent : Option Nat) (idx : Nat) (rest : List Nat) : Prop := match parent with
  | none => trie.root = some idx
  | some up => up ∈ rest ∧ ∃ node, trie.nodes[up]? = some node ∧ (node.zeroChild = some idx ∨ node.oneChild = some idx)

theorem Linked.of_kept (linked : Linked trie parent idx rest)
    (kept : ∀ other ∈ rest, next.nodes[other]? = trie.nodes[other]?) (root : next.root = trie.root) :
    Linked next parent idx rest := by
  cases parent with
  | none => exact root.trans linked
  | some up =>
    obtain ⟨member, node, read, child⟩ := linked
    exact ⟨member, node, (kept up member).trans read, child⟩

theorem relink_self (linked : Linked trie parent idx rest) : trie.replaceChild parent idx (some idx) = some trie := by
  cases parent with
  | none =>
    have root : trie.root = some idx := linked
    rw [replaceChild, ← root]
  | some up =>
    obtain ⟨-, node, read, child⟩ := linked
    rw [replaceChild, modifyNode_eq read]
    by_cases zero : node.zeroChild = some idx
    · rw [if_pos zero, ← zero]
      exact congrArg some (setNode_self read)
    · rw [if_neg zero, ← child.resolve_left zero]
      exact congrArg some (setNode_self read)

theorem replaceChild_side {up old : Nat} {side : Bool} (read : trie.nodes[up]? = some node)
    (child : node.child side = some old) (apart : node.child (!side) ≠ some old) (link : Option Nat) :
    trie.replaceChild (some up) old link = some (trie.setNode up (node.setChild side link)) := by
  rw [replaceChild, modifyNode_eq read]
  cases side with
  | false =>
    have zero : node.zeroChild = some old := child
    rw [if_pos zero]
    rfl
  | true =>
    have notZero : node.zeroChild ≠ some old := apart
    rw [if_neg notZero]
    rfl

theorem replaceChild_freeNode (trie : PrefixTrie width Value) (freed : Nat) (parent : Option Nat) (old : Nat) (link : Option Nat) :
    (trie.freeNode freed).replaceChild parent old link = (trie.replaceChild parent old link).map fun done => done.freeNode freed := by
  cases parent with
  | none => rfl
  | some up =>
    simp only [replaceChild, modifyNode, Option.map_map]
    rfl

structure Grafted (trie : PrefixTrie width Value) (rest : List Nat) (link : Option Nat) (tree : PrefixTree width Value)
    (next : PrefixTrie width Value) : Prop where
  holds : ∃ used, Holds next.nodes link tree used ∧ Packed next (used ++ rest)
  kept : ∀ idx ∈ rest, next.nodes[idx]? = trie.nodes[idx]?
  root : next.root = trie.root
  grown : next.nodes.length = trie.nodes.length ∨ next.freeList = []

theorem Grafted.trans {mid : PrefixTrie width Value} {link later : Option Nat} {tree final : PrefixTree width Value}
    (first : Grafted trie rest link tree mid) (second : Grafted mid rest later final next)
    (grown : next.nodes.length = trie.nodes.length ∨ next.freeList = []) : Grafted trie rest later final next where
  holds := second.holds
  kept idx member := (second.kept idx member).trans (first.kept idx member)
  root := second.root.trans first.root
  grown := grown

theorem Grafted.withLen (grafted : Grafted trie rest link tree next) (len : Nat) : Grafted trie rest link tree { next with len := len } :=
  ⟨grafted.holds, grafted.kept, grafted.root, grafted.grown⟩

theorem Grafted.refl (holds : Holds trie.nodes link tree owned)
    (packed : Packed trie (owned ++ rest)) : Grafted trie rest link tree trie :=
  ⟨⟨owned, holds, packed⟩, fun _ _ => rfl, rfl, .inl rfl⟩

end PrefixTrie

end Bgpgg.Table
