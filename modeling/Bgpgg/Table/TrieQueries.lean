import Bgpgg.Table.TrieMap

namespace Bgpgg.Table.PrefixTrie

open Net Lib List PatriciaTree

variable {width : Nat} {Value : Type} {trie : PrefixTrie width Value} {idx : Nat} {tree : PrefixTree width Value}
  {owned : List Nat} {key : CanonicalNet width}

def plain (entry : CanonicalNet width × Value) : IpNet width × Value := (entry.1.val, entry.2)

section

variable (fuel : Nat) {stored : TrieNode width Value} {own : CanonicalNet width}

theorem plain_value (pfx : stored.pfx = own.val) : (stored.value.map fun value => (stored.pfx, value)).toList =
      ((stored.value.map fun value => (own, value)).toList).map plain := by
  rw [pfx]
  cases stored.value <;> rfl

theorem coveringFrom_spec (holds : Holds trie.nodes (some idx) tree owned) (enough : owned.length < fuel) :
    trie.coveringFrom fuel idx key.val = some ((tree.covering key).map plain) := by
  induction fuel generalizing idx tree owned with
  | zero => omega
  | succ fuel ih =>
    obtain ⟨stored, own, children, used, read, pfx, rfl, rfl, inside⟩ := holds.inv
    rw [coveringFrom, PatriciaTree.covering]
    simp only [PrefixTrie.node, read, Option.bind_eq_bind, Option.bind_some, diverges_iff pfx, sameLength_iff pfx, plain_value pfx]
    by_cases starts : bits own <+: bits key
    · rw [if_neg (not_not.mpr starts), if_pos starts, map_append]
      by_cases lengths : (bits own).length = (bits key).length
      · rw [if_pos lengths, if_pos lengths, map_nil, append_nil]
        rfl
      · rw [if_neg lengths, if_neg lengths, bitAt_next pfx starts lengths, Option.bind_some]
        generalize nextBit own key = side
        cases child : stored.child side with
        | none =>
          rw [(child_none_iff inside side).mp child, PatriciaTree.covering, map_nil, append_nil]
          rfl
        | some below =>
          simp only [ih (child ▸ inside side) (side_shorter side enough)]
          rfl
    · rw [if_pos starts, if_neg starts]
      rfl

theorem shorterLength_iff (pfx : stored.pfx = own.val) :
    key.val.prefixLength ≤ stored.pfx.prefixLength ↔ (bits key).length ≤ (bits own).length := by
  rw [pfx, length_bits, length_bits, UInt8.le_iff_toNat_le]

theorem inside_iff (pfx : stored.pfx = own.val) :
    key.val.prefixLength.toNat ≤ commonPrefixLen key.val stored.pfx ↔ bits key <+: bits own := by
  have common : commonPrefixLen key.val own.val = commonLen (bits key) (bits own) :=
    commonPrefixLen_eq key.val own.val key.property.1
  have bound := (commonLen_le (bits key) (bits own)).1
  have length := (length_bits key).symm
  rw [pfx, ← commonLen_eq_left_iff]
  omega

theorem subtreeStart_spec (holds : Holds trie.nodes (some idx) tree owned) (enough : owned.length < fuel) :
    ∃ link used, trie.subtreeStart fuel idx key.val = some link ∧ Holds trie.nodes link (tree.subtree key) used ∧
      used.length ≤ owned.length := by
  induction fuel generalizing idx tree owned with
  | zero => omega
  | succ fuel ih =>
    obtain ⟨stored, own, children, used, read, pfx, rfl, rfl, inside⟩ := holds.inv
    rw [subtreeStart, PatriciaTree.subtree]
    simp only [PrefixTrie.node, read, Option.bind_eq_bind, Option.bind_some, diverges_iff pfx, shorterLength_iff pfx, inside_iff pfx]
    by_cases starts : bits own <+: bits key
    · rw [if_neg (not_not.mpr starts)]
      by_cases above : bits key <+: bits own
      · rw [if_pos above, if_pos above.length_le]
        exact ⟨some idx, _, rfl, holds, Nat.le_refl _⟩
      · have longer : ¬ (bits key).length ≤ (bits own).length := fun shorter =>
          above (starts.eq_of_length_le shorter ▸ prefix_refl _)
        rw [if_neg above, if_pos starts, if_neg longer, bitAt_next pfx starts (by omega), Option.bind_some]
        generalize nextBit own key = side
        cases child : stored.child side with
        | none =>
          rw [(child_none_iff inside side).mp child]
          exact ⟨none, [], rfl, .nil, Nat.zero_le _⟩
        | some below =>
          obtain ⟨link, part, walked, here, shorter⟩ := ih (child ▸ inside side) (side_shorter side enough)
          refine ⟨link, part, walked, here, ?_⟩
          have outer : (used side).length ≤ (idx :: (used false ++ used true)).length :=
            Nat.le_of_lt (side_shorter side (Nat.lt_succ_self _))
          omega
    · rw [if_pos starts]
      by_cases above : bits key <+: bits own
      · rw [if_pos above, if_pos above]
        exact ⟨some idx, _, rfl, holds, Nat.le_refl _⟩
      · rw [if_neg above, if_neg above, if_neg starts]
        exact ⟨none, [], rfl, .nil, Nat.zero_le _⟩

def HoldsAll (nodes : List (TrieNode width Value)) : List Nat → List (PrefixTree width Value) → Prop :=
  List.Forall₂ fun idx tree => ∃ used, Holds nodes (some idx) tree used

theorem holdsAll_link {nodes : List (TrieNode width Value)} {link : Option Nat} (holds : Holds nodes link tree owned) :
    ∃ trees, HoldsAll nodes link.toList trees ∧ trees.flatMap entries = tree.entries ∧ (trees.map PatriciaTree.size).sum = tree.size := by
  cases link with
  | none =>
    rw [(holds_none holds).1]
    exact ⟨[], .nil, rfl, rfl⟩
  | some idx => exact ⟨[tree], .cons ⟨owned, holds⟩ .nil, by simp, by simp⟩

theorem collectAll_spec {stack : List Nat} {trees : List (PrefixTree width Value)}
    (holds : HoldsAll trie.nodes stack trees) (enough : (trees.map PatriciaTree.size).sum ≤ fuel) :
    trie.collectAll fuel stack = some ((trees.flatMap entries).map plain) := by
  induction fuel generalizing stack trees with
  | zero =>
    cases holds with
    | nil => rfl
    | cons head _ =>
      obtain ⟨used, here⟩ := head
      obtain ⟨_, _, _, _, -, -, rfl, -⟩ := here.inv
      simp [PatriciaTree.size] at enough
  | succ fuel ih =>
    cases holds with
    | nil => rfl
    | @cons idx tree stack trees head later =>
      obtain ⟨used, here⟩ := head
      obtain ⟨stored, own, children, sides, read, pfx, rfl, -, inside⟩ := here.inv
      obtain ⟨ones, oneHolds, oneEntries, oneSize⟩ := holdsAll_link (inside true)
      obtain ⟨zeros, zeroHolds, zeroEntries, zeroSize⟩ := holdsAll_link (inside false)
      have pushed : HoldsAll trie.nodes (stored.oneChild.toList ++ stored.zeroChild.toList ++ stack) (ones ++ zeros ++ trees) :=
        rel_append (rel_append oneHolds zeroHolds) later
      have collected := ih pushed (by
        simp only [map_append, sum_append, map_cons, sum_cons, PatriciaTree.size] at enough ⊢
        omega)
      simp only [collectAll, PrefixTrie.node, read, Option.bind_eq_bind, Option.bind_some, collected, plain_value pfx]
      simp only [flatMap_append, oneEntries, zeroEntries, flatMap_cons, entries, map_append, append_assoc]
      rfl

end

theorem collectAll_one {start : Nat} (holds : Holds trie.nodes (some start) tree owned) (enough : owned.length ≤ trie.nodes.length) :
    trie.collectAll (trie.nodes.length + 1) [start] = some (tree.entries.map plain) := by
  have waiting : HoldsAll trie.nodes [start] [tree] := .cons ⟨owned, holds⟩ .nil
  have collected := collectAll_spec (trie.nodes.length + 1) waiting (by
    rw [map_singleton, sum_singleton, ← holds.length_eq_size]
    omega)
  simpa using collected

section

variable (represents : Represents trie tree)

include represents

theorem Represents.covering (key : CanonicalNet width) : trie.covering key.val = some ((tree.covering key).map plain) := by
  obtain ⟨used, holds, packed⟩ := represents.holds
  rw [PrefixTrie.covering]
  cases root : trie.root with
  | none =>
    rw [root] at holds
    rw [(holds_none holds).1]
    rfl
  | some top =>
    rw [root] at holds
    exact coveringFrom_spec _ holds packed.enough

theorem Represents.iter : trie.iter = some (tree.entries.map plain) := by
  obtain ⟨used, holds, packed⟩ := represents.holds
  rw [PrefixTrie.iter]
  cases root : trie.root with
  | none =>
    rw [root] at holds
    rw [(holds_none holds).1]
    rfl
  | some top =>
    rw [root] at holds
    exact collectAll_one holds (Nat.le_of_lt_succ packed.enough)

theorem Represents.subtree (key : CanonicalNet width) : trie.subtree key.val = some ((tree.subtree key).entries.map plain) := by
  obtain ⟨used, holds, packed⟩ := represents.holds
  rw [PrefixTrie.subtree]
  cases root : trie.root with
  | none =>
    rw [root] at holds
    rw [(holds_none holds).1]
    rfl
  | some top =>
    rw [root] at holds
    obtain ⟨link, part, walked, here, shorter⟩ := @subtreeStart_spec _ _ _ _ _ _ key (trie.nodes.length + 1) holds packed.enough
    simp only [walked, Option.bind_eq_bind]
    cases link with
    | none =>
      rw [(holds_none here).1]
      rfl
    | some start =>
      exact collectAll_one here (Nat.le_trans shorter (Nat.le_of_lt_succ packed.enough))

end

theorem subtree_masked (trie : PrefixTrie width Value) {query : IpNet width} (bounded : query.prefixLength.toNat ≤ width) :
    trie.subtree (masked query query.prefixLength.toNat) = trie.subtree query := by
  have size := masked_prefixLength query _ (Nat.le_refl _)
  have length := UInt8.toNat_inj.mp size
  have inside := size.trans_le bounded
  have walked : ∀ fuel current, trie.subtreeStart fuel current (masked query query.prefixLength.toNat) =
      trie.subtreeStart fuel current query := by
    intro fuel
    induction fuel with
    | zero => exact fun _ => rfl
    | succ fuel ih =>
      intro current
      rw [subtreeStart, subtreeStart]
      cases trie.node current with
      | none => rfl
      | some node =>
        have common : commonPrefixLen (masked query query.prefixLength.toNat) node.pfx = commonPrefixLen query node.pfx := by
          rw [commonPrefixLen_eq _ _ inside, commonPrefixLen_eq _ _ bounded, netBits_masked_self bounded]
        simp only [Option.bind_eq_bind, Option.bind_some, common, length, ih]
        split
        · rfl
        · split
          · rfl
          · rename_i longer
            have below := Nat.not_le.mp (mt UInt8.le_iff_toNat_le.mpr longer)
            rw [bitAt_inside _ inside _ (below.trans_eq size.symm), bitAt_inside _ bounded _ below, netBits_masked_self bounded]
  simp only [PrefixTrie.subtree, walked]

variable {map : NetMap width Value}

theorem mem_map_plain {entries : List (CanonicalNet width × Value)} {net : IpNet width} {value : Value} :
    (net, value) ∈ entries.map plain ↔ ∃ stored : CanonicalNet width, stored.val = net ∧ (stored, value) ∈ entries := by
  rw [mem_map]
  constructor
  · rintro ⟨⟨stored, _⟩, member, same⟩
    cases same
    exact ⟨stored, rfl, member⟩
  · rintro ⟨stored, rfl, member⟩
    exact ⟨(stored, value), member, rfl⟩

section

variable (refines : Refines trie map)

include refines

theorem Refines.iter : ∃ entries, trie.iter = some entries ∧
    ∀ net value, (net, value) ∈ entries ↔ ∃ stored : CanonicalNet width, stored.val = net ∧ map.lookup stored = some value := by
  obtain ⟨tree, represents, same⟩ := refines
  refine ⟨_, represents.iter, fun net value => ?_⟩
  rw [mem_map_plain]
  refine exists_congr fun stored => and_congr_right fun _ => ?_
  rw [← get_eq_some_iff represents.under, same]

theorem Refines.subtree (key : CanonicalNet width) : ∃ below, trie.subtree key.val = some below ∧ (below.map Prod.fst).Nodup ∧
      ∀ net value, (net, value) ∈ below ↔ ∃ stored : CanonicalNet width, stored.val = net ∧ map.lookup stored = some value ∧
        addresses net ⊆ addresses key.val := by
  obtain ⟨tree, represents, same⟩ := refines
  refine ⟨_, represents.subtree key, ?_, fun net value => ?_⟩
  · have distinct := entries_nodup (@subtree_under _ _ _ _ _ key represents.under)
    have nets : ((tree.subtree key).entries.map plain).map Prod.fst =
        ((tree.subtree key).entries.map Prod.fst).map fun net : CanonicalNet width => net.val := by
      rw [map_map, map_map]
      rfl
    rw [nets]
    exact distinct.map fun _ _ => Subtype.ext
  · rw [mem_map_plain]
    refine exists_congr fun stored => and_congr_right fun plainly => ?_
    rw [mem_entries_subtree represents.under, ← get_eq_some_iff represents.under, same, ← plainly, addresses_subset_iff]

theorem Refines.covering (key : CanonicalNet width) : ∃ above, trie.covering key.val = some above ∧
      (above.Pairwise fun first second => first.1.prefixLength < second.1.prefixLength) ∧
      ∀ net value, (net, value) ∈ above ↔ ∃ stored : CanonicalNet width, stored.val = net ∧ map.lookup stored = some value ∧
        addresses key.val ⊆ addresses net := by
  obtain ⟨tree, represents, same⟩ := refines
  refine ⟨_, represents.covering key, ?_, fun net value => ?_⟩
  · rw [pairwise_map]
    refine (covering_lengths represents.under).imp fun {first second} shorter => ?_
    have firstLength : (bits first.1).length = first.1.val.prefixLength.toNat := length_netBits first.1.val
    have secondLength : (bits second.1).length = second.1.val.prefixLength.toNat := length_netBits second.1.val
    rw [firstLength, secondLength] at shorter
    exact UInt8.lt_iff_toNat_lt.mpr shorter
  · rw [mem_map_plain]
    refine exists_congr fun stored => and_congr_right fun plainly => ?_
    rw [mem_covering represents.under, ← get_eq_some_iff represents.under, same, ← plainly, addresses_subset_iff]

end

theorem queries_exact (ops : List (TrieOp width Value)) (key : CanonicalNet width) :
    ∃ olds trie below above, TrieOp.runTrie ops .new = some (olds, trie) ∧ trie.subtree key.val = some below ∧
      trie.covering key.val = some above ∧ (below.map Prod.fst).Nodup ∧
      (∀ net value, (net, value) ∈ below ↔ ∃ stored : CanonicalNet width, stored.val = net ∧
        (TrieOp.runMap ops ∅).2.lookup stored = some value ∧ addresses net ⊆ addresses key.val) ∧
      (above.Pairwise fun first second => first.1.prefixLength < second.1.prefixLength) ∧
      ∀ net value, (net, value) ∈ above ↔ ∃ stored : CanonicalNet width, stored.val = net ∧
        (TrieOp.runMap ops ∅).2.lookup stored = some value ∧ addresses key.val ⊆ addresses net := by
  obtain ⟨trie, ran, refines, -⟩ := refines_new.run ops
  obtain ⟨below, walkedDown, distinct, inside⟩ := refines.subtree key
  obtain ⟨above, walkedUp, growing, outside⟩ := refines.covering key
  exact ⟨_, trie, below, above, ran, walkedDown, walkedUp, distinct, inside, growing, outside⟩

end Bgpgg.Table.PrefixTrie
