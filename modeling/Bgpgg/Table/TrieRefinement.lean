import Bgpgg.Table.TrieArena

namespace Bgpgg.Table.PrefixTrie

open Lib List PatriciaTree

variable {width : Nat} {Value : Type} {trie next : PrefixTrie width Value} {rest : List Nat} {idx : Nat}
  {parent : Option Nat} {key own : CanonicalNet width} {value : Value} {stored : TrieNode width Value}
  {children : Bool → PrefixTree width Value} {used : Bool → List Nat}

variable {mid : PrefixTrie width Value} (fuel : Nat) {tree : PrefixTree width Value} {owned : List Nat}

variable {side : Bool} {child : Nat}

theorem length_bits (net : CanonicalNet width) : (bits net).length = net.val.prefixLength.toNat := length_netBits net.val

section

variable (pfx : stored.pfx = own.val)

include pfx

theorem diverges_iff : commonPrefixLen key.val stored.pfx < stored.pfx.prefixLength.toNat ↔ ¬ bits own <+: bits key := by
  have common : commonPrefixLen key.val own.val = commonLen (bits key) (bits own) :=
    commonPrefixLen_eq key.val own.val key.property.1
  have bound := (commonLen_le (bits key) (bits own)).2
  have length := (length_bits own).symm
  rw [pfx, ← commonLen_eq_right_iff]
  omega

theorem sameLength_iff : stored.pfx.prefixLength = key.val.prefixLength ↔ (bits own).length = (bits key).length := by
  rw [pfx, length_bits, length_bits, UInt8.toNat_inj]

theorem bitAt_next (starts : bits own <+: bits key) (longer : (bits own).length ≠ (bits key).length) :
    bitAt key.val stored.pfx.prefixLength.toNat = some (nextBit own key) := by
  have ownLength := length_bits own
  have keyLength := length_bits key
  have bound := starts.length_le
  rw [pfx, bitAt_inside key.val key.property.1 _ (by omega), nextBit, ownLength]
  rfl

end

theorem graft_node (kept : ∀ other ∈ rest, mid.nodes[other]? = trie.nodes[other]?)
    (root : mid.root = trie.root) (grown : mid.nodes.length = trie.nodes.length ∨ mid.freeList = [])
    (packed : Packed mid (idx :: (used false ++ used true) ++ rest)) (node : TrieNode width Value) (pfx : node.pfx = own.val)
    (inside : ∀ side, Holds mid.nodes (node.child side) (children side) (used side)) :
    Grafted trie rest (some idx) (.node own node.value children) (mid.setNode idx node) := by
  have apart : ∀ other ∈ used false ++ used true ++ rest, other ≠ idx := by
    intro other member same
    have once := packed.count_le other
    have twice := count_pos_iff.mpr member
    rw [same, cons_append, count_cons_self] at once
    rw [same] at twice
    omega
  refine ⟨⟨idx :: (used false ++ used true), ?_, packed_setNode packed node⟩, ?_, root, ?_⟩
  · refine .node idx node own children used (read_setNode_self node (packed.lt mem_cons_self)) pfx fun side => ?_
    refine (inside side).transport fun other member => read_setNode_other node (apart other ?_)
    cases side with
    | false => exact mem_append_left _ (mem_append_left _ member)
    | true => exact mem_append_left _ (mem_append_right _ member)
  · intro other member
    exact (read_setNode_other node (apart other (mem_append_right _ member))).trans (kept other member)
  · simpa [setNode] using grown

theorem graft_child (pfx : stored.pfx = own.val)
    (inside : ∀ side, Holds trie.nodes (stored.child side) (children side) (used side)) {link : Option Nat}
    (grafted : Grafted trie (idx :: (used (!side) ++ rest)) link tree next) :
    Grafted trie rest (some idx) (.node own stored.value (Function.update children side tree))
      (next.setNode idx (stored.setChild side link)) := by
  obtain ⟨changed, holds, nextPacked⟩ := grafted.holds
  have keptRest : ∀ other ∈ rest, next.nodes[other]? = trie.nodes[other]? := fun other member =>
    grafted.kept other (mem_cons_of_mem _ (mem_append_right _ member))
  have repacked : Packed next (idx :: (Function.update used side changed false ++ Function.update used side changed true) ++ rest) := by
    refine packed_of_count nextPacked rfl fun other => ?_
    rw [cons_append, count_cons, count_append, count_update]
    simp only [count_append, count_cons]
    omega
  have written : Grafted trie rest (some idx) (.node own (stored.setChild side link).value
      (Function.update children side tree)) (next.setNode idx (stored.setChild side link)) := by
    refine graft_node keptRest grafted.root grafted.grown repacked _ ((stored.pfx_setChild side link).trans pfx) fun at_ => ?_
    rw [stored.child_setChild]
    by_cases here : at_ = side
    · rw [if_pos here, here, Function.update_self, Function.update_self]
      exact holds
    · rw [if_neg here, Function.update_of_ne here, Function.update_of_ne here]
      refine (inside at_).transport fun other member => grafted.kept other (mem_cons_of_mem _ (mem_append_left _ ?_))
      exact Bool.eq_not_of_ne here ▸ member
  rwa [stored.value_setChild] at written

theorem graft_leaf (packed : Packed trie rest) (key : CanonicalNet width) (value : Value) :
    ∃ idx next, trie.allocNode key.val (some value) = some (idx, next) ∧ next.len = trie.len ∧ next.freeList = trie.freeList.tail ∧
      Grafted trie rest (some idx) (.node key (some value) fun _ => .nil) next := by
  obtain ⟨idx, next, allocated, spec⟩ := allocNode_spec packed key.val (some value)
  refine ⟨idx, next, allocated, spec.len, spec.free, ⟨⟨[idx], ?_, spec.packed⟩, spec.kept, spec.root, spec.grown⟩⟩
  have leaf := Holds.node idx ⟨key.val, some value, none, none⟩ key (fun _ => .nil) (fun _ => []) spec.read rfl
  refine leaf fun side => ?_
  cases side <;> exact .nil

theorem cut_val (own : CanonicalNet width) (len : Nat) (inside : len ≤ (bits own).length) : masked own.val len = (cut own len).val := by
  have length : (bits own).length = own.val.prefixLength.toNat := length_netBits own.val
  rw [length] at inside
  exact congrArg (masked own.val) (Nat.min_eq_left inside).symm

theorem graft_branch {branch : Nat} {pfx : CanonicalNet width}
    (holds : Holds trie.nodes (some idx) tree owned) (allocated : Allocated trie (owned ++ rest) ⟨pfx.val, none, none, none⟩ branch mid)
    (optional : Option Value) (side : Bool) :
    Grafted trie rest (some branch) (.node pfx optional (Function.update (fun _ => .nil) side tree))
      (mid.setNode branch (TrieNode.setChild ⟨pfx.val, optional, none, none⟩ side (some idx))) := by
  have repacked : Packed mid (branch :: (Function.update (fun _ => []) side owned false ++
      Function.update (fun _ => []) side owned true) ++ rest) := by
    refine packed_of_count allocated.packed rfl fun other => ?_
    rw [cons_append, count_cons, count_append, count_update]
    simp only [count_append, count_cons, count_nil]
    omega
  have written : Grafted trie rest (some branch)
      (.node pfx (TrieNode.setChild ⟨pfx.val, optional, none, none⟩ side (some idx)).value (Function.update (fun _ => .nil) side tree))
      (mid.setNode branch (TrieNode.setChild ⟨pfx.val, optional, none, none⟩ side (some idx))) := by
    refine graft_node (fun other member => allocated.kept other (mem_append_right _ member)) allocated.root
      allocated.grown repacked _ (by simp) fun at_ => ?_
    rw [TrieNode.child_setChild]
    by_cases here : at_ = side
    · rw [if_pos here, here, Function.update_self, Function.update_self]
      exact holds.transport fun other member => allocated.kept other (mem_append_left _ member)
    · rw [if_neg here, Function.update_of_ne here, Function.update_of_ne here]
      cases at_ <;> exact .nil
  rwa [TrieNode.value_setChild] at written

theorem packed_side (packed : Packed trie (idx :: (used false ++ used true) ++ rest)) (side : Bool) :
    Packed trie (used side ++ (idx :: (used (!side) ++ rest))) := by
  refine packed_of_count packed rfl fun other => ?_
  cases side <;> simp only [count_append, count_cons, Bool.not_false, Bool.not_true] <;> omega

theorem holds_none {nodes : List (TrieNode width Value)}
    (holds : Holds nodes none tree owned) : tree = .nil ∧ owned = [] := by
  cases holds
  exact ⟨rfl, rfl⟩

theorem graft_missing (packed : Packed trie (idx :: (used false ++ used true) ++ rest)) (pfx : stored.pfx = own.val)
    (inside : ∀ side, Holds trie.nodes (stored.child side) (children side) (used side)) (side : Bool)
    (missing : stored.child side = none) (key : CanonicalNet width) (value : Value) :
    ∃ leaf next, trie.allocNode key.val (some value) = some (leaf, next) ∧ next.len = trie.len ∧
      next.freeList = trie.freeList.tail ∧ next.nodes[idx]? = trie.nodes[idx]? ∧
      Grafted trie rest (some idx)
        (.node own stored.value (Function.update children side (.node key (some value) fun _ => .nil)))
        (next.setNode idx (stored.setChild side (some leaf))) := by
  have empty := (holds_none (missing ▸ inside side)).2
  have away := packed_side packed side
  rw [empty] at away
  obtain ⟨leaf, next, allocated, len, free, grafted⟩ := graft_leaf away key value
  exact ⟨leaf, next, allocated, len, free, grafted.kept idx mem_cons_self, graft_child pfx inside grafted⟩

theorem splitNode_spec (holds : Holds trie.nodes (some idx) (.node own stored.value children) owned)
    (read : trie.nodes[idx]? = some stored) (pfx : stored.pfx = own.val) (packed : Packed trie (owned ++ rest))
    (apart : ¬ bits own <+: bits key) (value : Value) (parent : Option Nat) :
    ∃ branch next, trie.splitNode idx parent key.val value (commonPrefixLen key.val stored.pfx) =
        next.replaceChild parent idx (some branch) ∧ next.len = trie.len ∧
      Grafted trie rest (some branch) (PatriciaTree.split key value own (.node own stored.value children)) next := by
  have common : commonPrefixLen key.val stored.pfx = commonLen (bits key) (bits own) := by
    rw [pfx]
    exact commonPrefixLen_eq key.val own.val key.property.1
  have bounds := commonLen_le (bits key) (bits own)
  have shorter : commonLen (bits key) (bits own) ≠ (bits own).length := fun whole =>
    apart (commonLen_eq_right_iff.mp whole)
  have ownLength := length_bits own
  have keyLength := length_bits key
  have side : bitAt stored.pfx (commonLen (bits key) (bits own)) = some ((bits own).getD (commonLen (bits key) (bits own)) false) := by
    rw [pfx]
    exact bitAt_inside own.val own.property.1 _ (by omega)
  have branchPfx : masked stored.pfx (commonLen (bits key) (bits own)) = (cut own (commonLen (bits key) (bits own))).val := by
    rw [pfx]
    exact cut_val own _ bounds.2
  rw [common]
  generalize sideEq : (bits own).getD (commonLen (bits key) (bits own)) false = existingSide at side
  obtain ⟨branch, mid, allocated, spec⟩ := allocNode_spec packed (masked stored.pfx (commonLen (bits key) (bits own))) none
  rw [branchPfx] at spec
  have midRead : ∀ node, (mid.setNode branch node).nodes[branch]? = some node := fun node =>
    read_setNode_self node (spec.packed.lt mem_cons_self)
  rw [splitNode]
  simp only [PrefixTrie.node, read, Option.bind_eq_bind, Option.bind_some, allocated, side, modifyNode_eq spec.read]
  by_cases ends : commonLen (bits key) (bits own) = (bits key).length
  · refine ⟨branch, mid.setNode branch (TrieNode.setChild
      ⟨(cut own (commonLen (bits key) (bits own))).val, some value, none, none⟩ existingSide (some idx)), ?_, spec.len, ?_⟩
    · rw [if_pos (ends.trans keyLength), modifyNode_eq (midRead _), setNode_setNode]
      cases existingSide <;> rfl
    · rw [PatriciaTree.split, if_pos ends, sideEq]
      exact graft_branch holds spec (some value) existingSide
  · have newSide : bitAt key.val (commonLen (bits key) (bits own)) = some (!existingSide) := by
      have differs := commonLen_differs (bits key) (bits own) (by omega) (by omega)
      rw [bitAt_inside key.val key.property.1 _ (by omega), ← sideEq, ← differs]
      rfl
    rw [if_neg fun same => ends (same.trans keyLength.symm)]
    simp only [newSide, Option.bind_some]
    have first := graft_branch holds spec none existingSide
    obtain ⟨ownedNow, nowHolds, nowPacked⟩ := first.holds
    obtain ⟨branchNode, branchKey, sides, usedNow, nowRead, nowPfx, shape, split, inside⟩ := nowHolds.inv
    obtain rfl := Option.some.inj ((midRead _).symm.trans nowRead)
    simp only [node.injEq] at shape
    obtain ⟨rfl, -, rfl⟩ := shape
    rw [split] at nowPacked
    obtain ⟨leaf, next, leafAllocated, leafLen, leafFree, leafRead, second⟩ := graft_missing nowPacked nowPfx inside
      (!existingSide) (by cases existingSide <;> rfl) key value
    have both : Function.update (Function.update (fun _ => PatriciaTree.nil) existingSide (.node own stored.value children))
        (!existingSide) (.node key (some value) fun _ => .nil) =
          Function.update (fun _ => .node key (some value) fun _ => .nil) existingSide (.node own stored.value children) := by
      funext at_
      cases existingSide <;> cases at_ <;> rfl
    have whole := first.trans second (by
      rcases second.grown with same | empty
      · refine first.grown.imp same.trans fun empty => ?_
        rw [setNode, leafFree, empty]
        rfl
      · exact .inr empty)
    refine ⟨branch, next.setNode branch (TrieNode.setChild (TrieNode.setChild
      ⟨(cut own (commonLen (bits key) (bits own))).val, none, none, none⟩ existingSide (some idx)) (!existingSide) (some leaf)),
      ?_, leafLen.trans spec.len, ?_⟩
    · rw [leafAllocated, Option.bind_some, modifyNode_eq (leafRead.trans nowRead), Option.bind_some]
    · rw [PatriciaTree.split, if_neg ends, sideEq, ← both]
      rwa [TrieNode.value_setChild] at whole

theorem sibling_apart (packed : Packed trie (idx :: (used false ++ used true) ++ rest))
    (inside : ∀ side, Holds trie.nodes (stored.child side) (children side) (used side))
    (here : stored.child side = some child) : stored.child (!side) ≠ some child := by
  intro there
  have first := count_pos_iff.mpr (here ▸ inside side).root_used
  have second := count_pos_iff.mpr (there ▸ inside (!side)).root_used
  have once := (packed_side packed side).count_le child
  simp only [count_append, count_cons] at once
  omega

theorem linked_child (read : trie.nodes[idx]? = some stored) (here : stored.child side = some child) :
    Linked trie (some idx) child (idx :: rest) := by
  refine ⟨mem_cons_self, stored, read, ?_⟩
  cases side with
  | false => exact .inl here
  | true => exact .inr here

theorem side_shorter {fuel : Nat} (side : Bool) (enough : (idx :: (used false ++ used true)).length < fuel + 1) :
    (used side).length < fuel := by
  rw [length_cons, length_append] at enough
  cases side <;> omega

def counted (old : Option Value) (done : PrefixTrie width Value) : Option Value × PrefixTrie width Value :=
  (old, { done with len := if old.isNone then done.len + 1 else done.len })

theorem insertAt_spec (holds : Holds trie.nodes (some idx) tree owned) (packed : Packed trie (owned ++ rest))
    (linked : Linked trie parent idx rest) (enough : owned.length < fuel) :
    ∃ top next, trie.insertAt fuel idx parent key.val value =
        (next.replaceChild parent idx (some top)).map (counted (tree.get key)) ∧ next.len = trie.len ∧
      Grafted trie rest (some top) (tree.insert key value) next := by
  induction fuel generalizing idx parent tree owned rest with
  | zero => omega
  | succ fuel ih =>
    obtain ⟨stored, own, children, used, read, pfx, rfl, rfl, inside⟩ := holds.inv
    rw [insertAt, PatriciaTree.get, PatriciaTree.insert]
    simp only [PrefixTrie.node, read, Option.bind_eq_bind, Option.bind_some, diverges_iff pfx, sameLength_iff pfx]
    by_cases starts : bits own <+: bits key
    · rw [if_neg (not_not.mpr starts), if_pos starts, if_pos starts]
      by_cases lengths : (bits own).length = (bits key).length
      · rw [if_pos lengths, if_pos lengths, if_pos lengths]
        have written := graft_node (fun _ _ => rfl) rfl (.inl rfl) packed { stored with value := some value } pfx inside
        refine ⟨idx, _, ?_, ?_, written⟩
        · rw [relink_self (linked.of_kept written.kept written.root), modifyNode_eq read]
          rfl
        · rfl
      · rw [if_neg lengths, if_neg lengths, if_neg lengths, bitAt_next pfx starts lengths, Option.bind_some]
        generalize nextBit own key = side
        cases child : stored.child side with
        | none =>
          obtain ⟨leaf, next, allocated, len, -, leafRead, grafted⟩ := graft_missing packed pfx inside side child key value
          have empty := (holds_none (child ▸ inside side)).1
          refine ⟨idx, next.setNode idx (stored.setChild side (some leaf)), ?_, len, ?_⟩
          · rw [relink_self (linked.of_kept grafted.kept grafted.root)]
            simp only [allocated, Option.bind_some, modifyNode_eq (leafRead.trans read), empty]
            rfl
          · rw [empty]
            exact grafted
        | some below =>
          obtain ⟨top, next, done, len, grafted⟩ := ih (child ▸ inside side) (packed_side packed side)
            (linked_child read child) (side_shorter side enough)
          have kept := (grafted.kept idx mem_cons_self).trans read
          have whole := graft_child pfx inside grafted
          refine ⟨idx, next.setNode idx (stored.setChild side (some top)), ?_, len, whole⟩
          rw [relink_self (linked.of_kept whole.kept whole.root)]
          simp [done, replaceChild_side kept child (sibling_apart packed inside child)]
    · rw [if_pos starts, if_neg starts, if_neg starts]
      obtain ⟨branch, next, done, len, grafted⟩ := splitNode_spec holds read pfx packed starts value parent
      refine ⟨branch, next, ?_, len, grafted⟩
      rw [done]
      cases next.replaceChild parent idx (some branch) <;> rfl

theorem child_none_iff (inside : ∀ side, Holds trie.nodes (stored.child side) (children side) (used side)) (side : Bool) :
    stored.child side = none ↔ children side = .nil := by
  have here := inside side
  cases child : stored.child side with
  | none =>
    rw [child] at here
    simp [(holds_none here).1]
  | some below =>
    rw [child] at here
    obtain ⟨_, _, _, _, -, -, shape, -⟩ := here.inv
    simp [shape]

theorem graft_only_child (packed : Packed trie (idx :: (used false ++ used true) ++ rest))
    (inside : ∀ side, Holds trie.nodes (stored.child side) (children side) (used side))
    (empty : stored.child (!side) = none) : Grafted trie rest (stored.child side) (children side) (trie.freeNode idx) := by
  refine ⟨⟨used side, inside side, ?_⟩, fun _ _ => rfl, rfl, .inl rfl⟩
  have away := packed_side packed side
  have nothing : used (!side) = [] := (holds_none (empty ▸ inside (!side))).2
  rw [nothing] at away
  refine packed_of_count away rfl fun other => ?_
  simp only [freeNode, count_append, count_cons, count_nil]
  omega

theorem tryCollapse_spec (read : trie.nodes[idx]? = some stored) (pfx : stored.pfx = own.val)
    (packed : Packed trie (idx :: (used false ++ used true) ++ rest))
    (inside : ∀ side, Holds trie.nodes (stored.child side) (children side) (used side)) (linked : Linked trie parent idx rest) :
    ∃ link next, trie.tryCollapse idx parent = next.replaceChild parent idx link ∧ next.len = trie.len ∧
      next.nodes.length = trie.nodes.length ∧
      Grafted trie rest link (collapse own stored.value children) next := by
  rw [tryCollapse]
  simp only [PrefixTrie.node, read, Option.bind_eq_bind, Option.bind_some]
  have missing := child_none_iff inside
  rcases collapse_cases own stored.value children with ⟨full, same⟩ | ⟨side, valueless, empty, same⟩
  · rw [same]
    refine ⟨some idx, trie, ?_, rfl, rfl, Grafted.refl (.node idx stored own children used read pfx inside) packed⟩
    rw [relink_self linked]
    cases held : stored.value with
    | some value => rfl
    | none =>
      obtain ⟨zeroIdx, zeroChild⟩ := Option.ne_none_iff_exists'.mp fun absent => full held false ((missing false).mp absent)
      obtain ⟨oneIdx, oneChild⟩ := Option.ne_none_iff_exists'.mp fun absent => full held true ((missing true).mp absent)
      have zeroLink : stored.zeroChild = some zeroIdx := zeroChild
      have oneLink : stored.oneChild = some oneIdx := oneChild
      simp [zeroLink, oneLink]
  · rw [same]
    have gone := (missing (!side)).mpr empty
    refine ⟨stored.child side, trie.freeNode idx, ?_, rfl, rfl, graft_only_child packed inside gone⟩
    rw [replaceChild_freeNode, Option.map_eq_bind, valueless]
    cases side with
    | false =>
      have oneLink : stored.oneChild = none := gone
      have zeroLink : stored.child false = stored.zeroChild := rfl
      rw [oneLink, zeroLink]
      cases stored.zeroChild <;> rfl
    | true =>
      have zeroLink : stored.zeroChild = none := gone
      have oneLink : stored.child true = stored.oneChild := rfl
      rw [zeroLink, oneLink]
      cases stored.oneChild <;> rfl

theorem collapse_grafted {optional : Option Value}
    (first : Grafted trie rest (some idx) (.node own optional children) mid) (linked : Linked trie parent idx rest)
    (same : mid.nodes.length = trie.nodes.length) :
    ∃ link next, mid.tryCollapse idx parent = next.replaceChild parent idx link ∧ next.len = mid.len ∧
      next.nodes.length = trie.nodes.length ∧ Grafted trie rest link (collapse own optional children) next := by
  obtain ⟨owned, holds, packed⟩ := first.holds
  obtain ⟨stored, key, sides, used, read, pfx, shape, rfl, inside⟩ := holds.inv
  obtain ⟨rfl, rfl, rfl⟩ := shape
  obtain ⟨link, next, done, len, length, second⟩ := tryCollapse_spec read pfx packed inside (linked.of_kept first.kept first.root)
  exact ⟨link, next, done, len, length.trans same, first.trans second (.inl (length.trans same))⟩

section

variable (holds : Holds trie.nodes (some idx) tree owned)

include holds

theorem removeAt_absent (enough : owned.length < fuel) (absent : tree.get key = none) :
    trie.removeAt fuel idx parent key.val = some (none, trie) := by
  induction fuel generalizing idx parent tree owned with
  | zero => omega
  | succ fuel ih =>
    obtain ⟨stored, own, children, used, read, pfx, rfl, rfl, inside⟩ := holds.inv
    rw [removeAt]
    rw [PatriciaTree.get] at absent
    simp only [PrefixTrie.node, read, Option.bind_eq_bind, Option.bind_some, diverges_iff pfx, sameLength_iff pfx]
    by_cases starts : bits own <+: bits key
    · rw [if_neg (not_not.mpr starts)]
      rw [if_pos starts] at absent
      by_cases lengths : (bits own).length = (bits key).length
      · rw [if_pos lengths] at absent ⊢
        rw [absent]
        rfl
      · rw [if_neg lengths] at absent ⊢
        rw [bitAt_next pfx starts lengths, Option.bind_some]
        generalize nextBit own key = side at absent
        cases child : stored.child side with
        | none => rfl
        | some below =>
          have answered := @ih below (some idx) _ _ (child ▸ inside side) (side_shorter side enough) absent
          simp only [answered]
          rfl
    · rw [if_pos starts]
      rfl

theorem removeAt_present (packed : Packed trie (owned ++ rest))
    (linked : Linked trie parent idx rest) (enough : owned.length < fuel) (present : tree.get key = some value) :
    ∃ link next, trie.removeAt fuel idx parent key.val =
        (next.replaceChild parent idx link).map (fun done => (some value, done)) ∧ next.len = trie.len - 1 ∧
      next.nodes.length = trie.nodes.length ∧ Grafted trie rest link (tree.remove key) next := by
  induction fuel generalizing idx parent tree owned rest with
  | zero => omega
  | succ fuel ih =>
    obtain ⟨stored, own, children, used, read, pfx, rfl, rfl, inside⟩ := holds.inv
    rw [removeAt, PatriciaTree.remove]
    rw [PatriciaTree.get] at present
    simp only [PrefixTrie.node, read, Option.bind_eq_bind, Option.bind_some, diverges_iff pfx, sameLength_iff pfx]
    by_cases starts : bits own <+: bits key
    · rw [if_neg (not_not.mpr starts), if_pos starts]
      rw [if_pos starts] at present
      by_cases lengths : (bits own).length = (bits key).length
      · rw [if_pos lengths] at present ⊢
        rw [if_pos lengths, present]
        have cleared := graft_node (fun _ _ => rfl) rfl (.inl rfl) packed { stored with value := none } pfx inside
        obtain ⟨link, next, done, len, length, grafted⟩ := collapse_grafted (cleared.withLen (trie.len - 1)) linked (by simp [setNode])
        refine ⟨link, next, ?_, len, length, grafted⟩
        simp only [modifyNode_eq read]
        rw [← done]
        exact Option.map_eq_bind.symm
      · rw [if_neg lengths] at present ⊢
        rw [if_neg lengths, bitAt_next pfx starts lengths, Option.bind_some]
        generalize nextBit own key = side at present
        cases child : stored.child side with
        | none =>
          rw [(child_none_iff inside side).mp child] at present
          cases present
        | some below =>
          obtain ⟨lower, mid, removed, midLen, midLength, grafted⟩ := ih (child ▸ inside side) (packed_side packed side)
            (linked_child read child) (side_shorter side enough) present
          have kept := (grafted.kept idx mem_cons_self).trans read
          have whole := graft_child pfx inside grafted
          obtain ⟨link, next, done, len, length, final⟩ := collapse_grafted whole linked (by simp [setNode, midLength])
          refine ⟨link, next, ?_, len.trans midLen, length, final⟩
          simp only [removed, replaceChild_side kept child (sibling_apart packed inside child), Option.map_some, Option.bind_some, done]
          exact Option.map_eq_bind.symm
    · rw [if_neg starts] at present
      cases present

theorem findExact_spec (packed : Packed trie (owned ++ rest)) (enough : owned.length < fuel) :
    trie.findExact fuel idx key.val = some none ∧ tree.get key = none ∨
      ∃ found node, trie.findExact fuel idx key.val = some (some found) ∧ trie.nodes[found]? = some node ∧
        node.value = tree.get key ∧ ∀ value, Grafted trie rest (some idx) (tree.insert key value)
          (trie.setNode found { node with value := some value }) := by
  induction fuel generalizing idx tree owned rest with
  | zero => omega
  | succ fuel ih =>
    obtain ⟨stored, own, children, used, read, pfx, rfl, rfl, inside⟩ := holds.inv
    rw [findExact]
    simp only [PatriciaTree.get, PatriciaTree.insert, PrefixTrie.node, read, Option.bind_eq_bind, Option.bind_some,
      diverges_iff pfx, sameLength_iff pfx]
    by_cases starts : bits own <+: bits key
    · simp only [if_neg (not_not.mpr starts), if_pos starts]
      by_cases lengths : (bits own).length = (bits key).length
      · simp only [if_pos lengths]
        exact .inr ⟨idx, stored, rfl, read, rfl, fun value =>
          graft_node (fun _ _ => rfl) rfl (.inl rfl) packed { stored with value := some value } pfx inside⟩
      · simp only [if_neg lengths, bitAt_next pfx starts lengths, Option.bind_some]
        generalize nextBit own key = side
        cases child : stored.child side with
        | none =>
          rw [(child_none_iff inside side).mp child]
          exact .inl ⟨rfl, rfl⟩
        | some below =>
          rcases ih (child ▸ inside side) (packed_side packed side) (side_shorter side enough) with
            absent | ⟨found, node, walked, here, value, written⟩
          · exact .inl absent
          · refine .inr ⟨found, node, walked, here, value, fun value => ?_⟩
            have kept := ((written value).kept idx mem_cons_self).trans read
            have whole := graft_child pfx inside (written value)
            rwa [← child, stored.setChild_self, setNode_self kept] at whole
    · simp only [if_pos starts, if_neg starts]
      exact .inl ⟨rfl, trivial⟩

end

end Bgpgg.Table.PrefixTrie
