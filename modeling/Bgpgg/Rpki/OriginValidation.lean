import Bgpgg.Rpki.VrpTable
import Bgpgg.Table.TrieQueries
import Mathlib.Data.Finset.Basic
import Mathlib.Data.Finset.Lattice.Lemmas

namespace Bgpgg.Rpki

open Net Lib Table List

def CanonicalNetwork : IpNetwork → Prop
  | .v4 net => Canonical net
  | .v6 net => Canonical net

instance (net : IpNetwork) : Decidable (CanonicalNetwork net) := match net with
  | .v4 net => inferInstanceAs (Decidable (Canonical net))
  | .v6 net => inferInstanceAs (Decidable (Canonical net))

def networkAddresses : IpNetwork → Set IpAddr
  | .v4 net => Set.image IpAddr.v4 (addresses net)
  | .v6 net => Set.image IpAddr.v6 (addresses net)

theorem v4_subset_iff (inner outer : Ipv4Net) :
    networkAddresses (.v4 inner) ⊆ networkAddresses (.v4 outer) ↔ addresses inner ⊆ addresses outer :=
  Set.image_subset_image_iff fun _ _ => IpAddr.v4.inj

theorem v6_subset_iff (inner outer : Ipv6Net) :
    networkAddresses (.v6 inner) ⊆ networkAddresses (.v6 outer) ↔ addresses inner ⊆ addresses outer :=
  Set.image_subset_image_iff fun _ _ => IpAddr.v6.inj

theorem v4_not_in_v6 (inner : Ipv4Net) (outer : Ipv6Net) : ¬ networkAddresses (.v4 inner) ⊆ networkAddresses (.v6 outer) := by
  intro subset
  obtain ⟨_, -, same⟩ := subset ⟨inner.address, fun _ _ => rfl, rfl⟩
  cases same

theorem v6_not_in_v4 (inner : Ipv6Net) (outer : Ipv4Net) : ¬ networkAddresses (.v6 inner) ⊆ networkAddresses (.v4 outer) := by
  intro subset
  obtain ⟨_, -, same⟩ := subset ⟨inner.address, fun _ _ => rfl, rfl⟩
  cases same

inductive VrpCall where
  | add (vrps : List Vrp)
  | remove (vrps : List Vrp)

namespace VrpCall

def vrps : VrpCall → List Vrp
  | add vrps | remove vrps => vrps

def onTable (table : VrpTable) : VrpCall → VrpTable
  | add vrps => table.add vrps
  | remove vrps => table.remove vrps

def onSet (stored : Finset Vrp) : VrpCall → Finset Vrp
  | add vrps => stored ∪ vrps.toFinset
  | remove vrps => stored \ vrps.toFinset

end VrpCall

section

variable {width : Nat} {embed : IpNet width → IpNetwork} {trie next : PrefixTrie width (List Vrp)}
  {map changed : NetMap width (List Vrp)} {stored later : Finset Vrp}

def Lists (embed : IpNet width → IpNetwork) (map : NetMap width (List Vrp)) (stored : Finset Vrp) : Prop :=
  ∀ key vrp, vrp ∈ (map.lookup key).getD [] ↔ vrp ∈ stored ∧ vrp.pfx = embed key.val

def Indexes (embed : IpNet width → IpNetwork) (trie : PrefixTrie width (List Vrp)) (stored : Finset Vrp) : Prop :=
  ∃ map, trie.Refines map ∧ Lists embed map stored

theorem Indexes.of_elsewhere (indexes : Indexes embed trie stored)
    (same : ∀ (key : CanonicalNet width) (vrp : Vrp), vrp.pfx = embed key.val → (vrp ∈ later ↔ vrp ∈ stored)) :
    Indexes embed trie later := by
  obtain ⟨map, refines, lists⟩ := indexes
  refine ⟨map, refines, fun key vrp => (lists key vrp).trans ?_⟩
  exact and_congr_left fun here => (same key vrp here).symm

theorem Lists.change (lists : Lists embed map stored) (injective : Function.Injective embed) (key : CanonicalNet width)
    (vrps : List Vrp) (lookup : ∀ other, (changed.lookup other).getD [] = if other = key then vrps else (map.lookup other).getD [])
    (here : ∀ vrp, vrp ∈ vrps ↔ vrp ∈ later ∧ vrp.pfx = embed key.val)
    (away : ∀ vrp, vrp.pfx ≠ embed key.val → (vrp ∈ later ↔ vrp ∈ stored)) : Lists embed changed later := by
  intro other vrp
  rw [lookup other]
  by_cases same : other = key
  · rw [if_pos same, same]
    exact here vrp
  · rw [if_neg same, lists other vrp]
    refine and_congr_left fun there => (away vrp fun both => same ?_).symm
    exact Subtype.ext (injective (there.symm.trans both))

theorem lookup_insert_getD (key other : CanonicalNet width) (vrps : List Vrp) :
    ((map.insert key vrps).lookup other).getD [] = if other = key then vrps else (map.lookup other).getD [] := by
  rw [AssocMap.lookup_insert_if]
  split <;> rfl

theorem lookup_erase_getD (key other : CanonicalNet width) :
    ((map.erase key).lookup other).getD [] = if other = key then [] else (map.lookup other).getD [] := by
  rw [AssocMap.lookup_erase_if]
  split <;> rfl

section

variable (indexes : Indexes embed trie stored)

include indexes

theorem addEntry_indexes (injective : Function.Injective embed) (key : CanonicalNet width) {vrp : Vrp} (pfx : vrp.pfx = embed key.val) :
    ∃ next, addEntry trie key.val vrp = some next ∧ Indexes embed next (insert vrp stored) := by
  obtain ⟨map, refines, lists⟩ := indexes
  have away : ∀ other : Vrp, other.pfx ≠ embed key.val → (other ∈ insert vrp stored ↔ other ∈ stored) := by
    intro other different
    rw [Finset.mem_insert]
    exact or_iff_right fun same => different (same ▸ pfx)
  have walk : entryNode trie key.val = trie.valueNode key.val := rfl
  rw [addEntry, walk]
  rcases refines.valueNode key with ⟨walked, absent⟩ | ⟨idx, node, vrps, walked, present, read, written⟩
  · obtain ⟨next, inserted, after, -⟩ := refines.step (.insert key [vrp])
    refine ⟨next, ?_, _, after, lists.change injective key [vrp] (lookup_insert_getD key · _) (fun other => ?_) away⟩
    · simp only [walked, Option.bind_eq_bind]
      exact congrArg (Option.bind · _) inserted
    · have none := lists key other
      rw [absent] at none
      rw [mem_singleton, Finset.mem_insert]
      constructor
      · intro same
        exact ⟨.inl same, same ▸ pfx⟩
      · intro listed
        exact listed.1.resolve_right fun old => not_mem_nil (none.mpr ⟨old, listed.2⟩)
  · have held : ∀ other, other ∈ vrps ↔ other ∈ stored ∧ other.pfx = embed key.val := by
      intro other
      have here := lists key other
      rwa [present] at here
    simp only [walked, Option.bind_eq_bind, Option.bind_some]
    by_cases known : vrp ∈ vrps
    · refine ⟨trie, by rw [if_pos (contains_iff_mem.mpr known)]; rfl, ?_⟩
      rw [Finset.insert_eq_of_mem ((held vrp).mp known).1]
      exact ⟨map, refines, lists⟩
    · refine ⟨_, ?_, _, written (vrps ++ [vrp]),
        lists.change injective key (vrps ++ [vrp]) (lookup_insert_getD key · _) (fun other => ?_) away⟩
      · rw [if_neg fun listed => known (contains_iff_mem.mp listed), PrefixTrie.modifyNode_eq read]
      · rw [mem_append, mem_singleton, held other, Finset.mem_insert]
        constructor
        · intro listed
          rcases listed with ⟨old, there⟩ | same
          · exact ⟨.inr old, there⟩
          · exact ⟨.inl same, same ▸ pfx⟩
        · rintro ⟨same | old, there⟩
          · exact .inr same
          · exact .inl ⟨old, there⟩

theorem removeEntry_indexes (injective : Function.Injective embed)
    (key : CanonicalNet width) {vrp : Vrp} (pfx : vrp.pfx = embed key.val) :
    ∃ next, removeEntry trie key.val vrp = some next ∧ Indexes embed next (stored.erase vrp) := by
  obtain ⟨map, refines, lists⟩ := indexes
  have away : ∀ other : Vrp, other.pfx ≠ embed key.val → (other ∈ stored.erase vrp ↔ other ∈ stored) := by
    intro other different
    rw [Finset.mem_erase]
    exact and_iff_right fun same => different (same ▸ pfx)
  have walk : entryNode trie key.val = trie.valueNode key.val := rfl
  rw [removeEntry, walk]
  rcases refines.valueNode key with ⟨walked, absent⟩ | ⟨idx, node, vrps, walked, present, read, written⟩
  · refine ⟨trie, by rw [walked]; rfl, ?_⟩
    have nothing := lists key vrp
    rw [absent] at nothing
    have missing : vrp ∉ stored := fun old => not_mem_nil (nothing.mpr ⟨old, pfx⟩)
    rw [Finset.erase_eq_of_notMem missing]
    exact ⟨map, refines, lists⟩
  · have kept : ∀ other, (other ∈ vrps.filter fun existing => existing != vrp) ↔
        other ∈ stored.erase vrp ∧ other.pfx = embed key.val := by
      intro other
      have here := lists key other
      rw [present] at here
      rw [mem_filter, Finset.mem_erase, bne_iff_ne]
      tauto
    have after := written (vrps.filter fun existing => existing != vrp)
    simp only [walked, Option.bind_eq_bind, Option.bind_some, PrefixTrie.modifyNode_eq read]
    by_cases last : (vrps.filter fun existing => existing != vrp).isEmpty = true
    · obtain ⟨next, removed, final, -⟩ := after.step (.remove key)
      refine ⟨next, ?_, _, final, ?_⟩
      · rw [if_pos last]
        exact congrArg (Option.bind · _) removed
      · refine lists.change injective key [] (fun other => ?_) (fun other => ?_) away
        · rw [TrieOp.onMap, lookup_erase_getD, lookup_insert_getD]
          split <;> rfl
        · rw [← kept other, isEmpty_iff.mp last]
    · refine ⟨_, by rw [if_neg last]; rfl, _, after, ?_⟩
      exact lists.change injective key _ (lookup_insert_getD key · _) kept away

theorem Indexes.covering (canonical : ∀ vrp ∈ stored, CanonicalNetwork vrp.pfx)
    (reach : ∀ net, CanonicalNetwork (embed net) → Canonical net) (key : CanonicalNet width) :
    ∃ above, trie.covering key.val = some above ∧ ∀ vrp, vrp ∈ above.flatMap Prod.snd ↔
      vrp ∈ stored ∧ ∃ net, vrp.pfx = embed net ∧ addresses key.val ⊆ addresses net := by
  obtain ⟨map, refines, lists⟩ := indexes
  obtain ⟨above, walked, -, listed⟩ := refines.covering key
  refine ⟨above, walked, fun vrp => ?_⟩
  rw [mem_flatMap]
  constructor
  · rintro ⟨⟨net, vrps⟩, member, inside⟩
    obtain ⟨own, rfl, present, contains⟩ := (listed net vrps).mp member
    have here := (lists own vrp).mp (by rw [present]; exact inside)
    exact ⟨here.1, own.val, here.2, contains⟩
  · rintro ⟨old, net, pfx, contains⟩
    obtain ⟨own, rfl⟩ : ∃ own : CanonicalNet width, own.val = net := ⟨⟨net, reach net (pfx ▸ canonical vrp old)⟩, rfl⟩
    have here := (lists own vrp).mpr ⟨old, pfx⟩
    cases present : map.lookup own with
    | none =>
      rw [present] at here
      cases here
    | some vrps =>
      rw [present] at here
      exact ⟨(own.val, vrps), (listed own.val vrps).mpr ⟨own, rfl, present, contains⟩, here⟩

end

end

namespace VrpTable

variable {table : VrpTable} {stored : Finset Vrp}

structure Stores (table : VrpTable) (stored : Finset Vrp) : Prop where
  ipv4 : ∃ trie, table.ipv4 = some trie ∧ Indexes IpNetwork.v4 trie stored
  ipv6 : ∃ trie, table.ipv6 = some trie ∧ Indexes IpNetwork.v6 trie stored
  canonical : ∀ vrp ∈ stored, CanonicalNetwork vrp.pfx

theorem stores_new : Stores .new ∅ := by
  have lists : ∀ {width : Nat} (embed : IpNet width → IpNetwork), Indexes embed .new ∅ := fun embed =>
    ⟨∅, PrefixTrie.refines_new, fun key vrp => by simp⟩
  exact ⟨⟨_, rfl, lists _⟩, ⟨_, rfl, lists _⟩, by simp⟩

section

variable (stores : Stores table stored)

include stores

theorem edit_stores {vrp : Vrp} {after : Finset Vrp} (canonical : CanonicalNetwork vrp.pfx)
    (proper : ∀ other ∈ after, CanonicalNetwork other.pfx) (elsewhere : ∀ other, other.pfx ≠ vrp.pfx → (other ∈ after ↔ other ∈ stored))
    (edit : ∀ {width : Nat}, PrefixTrie width (List Vrp) → IpNet width → Vrp → Option (PrefixTrie width (List Vrp)))
    (indexed : ∀ {width : Nat} {embed : IpNet width → IpNetwork} {trie : PrefixTrie width (List Vrp)}, Indexes embed trie stored →
      Function.Injective embed → ∀ key : CanonicalNet width, vrp.pfx = embed key.val →
        ∃ next, edit trie key.val vrp = some next ∧ Indexes embed next after) :
    Stores (match vrp.pfx with
      | .v4 net => { table with ipv4 := table.ipv4.bind fun trie => edit trie net vrp }
      | .v6 net => { table with ipv6 := table.ipv6.bind fun trie => edit trie net vrp }) after := by
  obtain ⟨⟨trie4, read4, index4⟩, ⟨trie6, read6, index6⟩, -⟩ := stores
  cases pfx : vrp.pfx with
  | v4 net =>
    rw [pfx] at canonical
    obtain ⟨next, edited, index⟩ := indexed index4 (fun _ _ => IpNetwork.v4.inj) ⟨net, canonical⟩ pfx
    refine ⟨⟨next, ?_, index⟩, ⟨trie6, read6, index6.of_elsewhere fun key other there => elsewhere other ?_⟩, proper⟩
    · simpa [read4] using edited
    · simp [there, pfx]
  | v6 net =>
    rw [pfx] at canonical
    obtain ⟨next, edited, index⟩ := indexed index6 (fun _ _ => IpNetwork.v6.inj) ⟨net, canonical⟩ pfx
    refine ⟨⟨trie4, read4, index4.of_elsewhere fun key other there => elsewhere other ?_⟩, ⟨next, ?_, index⟩, proper⟩
    · simp [there, pfx]
    · simpa [read6] using edited

theorem addOne_stores {vrp : Vrp} (canonical : CanonicalNetwork vrp.pfx) : Stores (table.addOne vrp) (insert vrp stored) := by
  refine edit_stores stores canonical (Finset.forall_mem_insert _ _ _ |>.mpr ⟨canonical, stores.canonical⟩) ?_ addEntry
    fun index injective key => addEntry_indexes index injective key
  intro other different
  rw [Finset.mem_insert]
  exact or_iff_right fun same => different (same ▸ rfl)

theorem removeOne_stores {vrp : Vrp} (canonical : CanonicalNetwork vrp.pfx) : Stores (table.removeOne vrp) (stored.erase vrp) := by
  refine edit_stores stores canonical (fun other member => stores.canonical other (Finset.mem_of_mem_erase member)) ?_
    removeEntry fun index injective key => removeEntry_indexes index injective key
  intro other different
  rw [Finset.mem_erase]
  exact and_iff_right fun same => different (same ▸ rfl)

theorem onTable_stores {call : VrpCall} (canonical : ∀ vrp ∈ call.vrps, CanonicalNetwork vrp.pfx) :
    Stores (call.onTable table) (call.onSet stored) := by
  cases call with
  | add vrps =>
    induction vrps generalizing table stored with
    | nil => simpa [VrpCall.onTable, VrpCall.onSet, add] using stores
    | cons vrp vrps ih =>
      have first := addOne_stores stores (canonical vrp mem_cons_self)
      have rest := ih first fun other member => canonical other (mem_cons_of_mem _ member)
      have sets : insert vrp stored ∪ vrps.toFinset = stored ∪ (vrp :: vrps).toFinset := by
        rw [toFinset_cons, Finset.insert_union, Finset.union_insert]
      simp only [VrpCall.onSet, sets] at rest
      exact rest
  | remove vrps =>
    induction vrps generalizing table stored with
    | nil => simpa [VrpCall.onTable, VrpCall.onSet, remove] using stores
    | cons vrp vrps ih =>
      have first := removeOne_stores stores (canonical vrp mem_cons_self)
      have rest := ih first fun other member => canonical other (mem_cons_of_mem _ member)
      have sets : stored.erase vrp \ vrps.toFinset = stored \ (vrp :: vrps).toFinset := by
        rw [toFinset_cons, Finset.sdiff_insert, Finset.erase_sdiff_comm]
      simp only [VrpCall.onSet, sets] at rest
      exact rest

theorem calls_store {calls : List VrpCall} (canonical : ∀ call ∈ calls, ∀ vrp ∈ call.vrps, CanonicalNetwork vrp.pfx) :
    Stores (calls.foldl VrpCall.onTable table) (calls.foldl VrpCall.onSet stored) := by
  induction calls generalizing table stored with
  | nil => exact stores
  | cons call calls ih =>
    exact ih (onTable_stores stores (canonical call mem_cons_self)) fun other member =>
      canonical other (mem_cons_of_mem _ member)

theorem mem_coveringVrps {net : IpNetwork} (canonical : CanonicalNetwork net) (vrp : Vrp) :
    vrp ∈ table.coveringVrps net ↔ vrp ∈ stored ∧ networkAddresses net ⊆ networkAddresses vrp.pfx := by
  cases net with
  | v4 net =>
    obtain ⟨trie, read, index⟩ := stores.ipv4
    obtain ⟨above, walked, listed⟩ := index.covering stores.canonical (fun _ proper => proper) ⟨net, canonical⟩
    rw [coveringVrps, read, Option.bind_some, walked, Option.getD_some, listed]
    cases vrp.pfx with
    | v4 outer => simp [v4_subset_iff]
    | v6 outer => simp [v4_not_in_v6]
  | v6 net =>
    obtain ⟨trie, read, index⟩ := stores.ipv6
    obtain ⟨above, walked, listed⟩ := index.covering stores.canonical (fun _ proper => proper) ⟨net, canonical⟩
    rw [coveringVrps, read, Option.bind_some, walked, Option.getD_some, listed]
    cases vrp.pfx with
    | v4 outer => simp [v6_not_in_v4]
    | v6 outer => simp [v6_subset_iff]

end

-- RFC 6811: a payload covers a prefix that lies in its own, and matches it by length and origin.
def Covering (stored : Finset Vrp) (net : IpNetwork) : Prop := ∃ vrp ∈ stored, networkAddresses net ⊆ networkAddresses vrp.pfx

def Matching (stored : Finset Vrp) (net : IpNetwork) (originAs : UInt32) : Prop :=
  ∃ vrp ∈ stored, networkAddresses net ⊆ networkAddresses vrp.pfx ∧ net.prefixLen ≤ vrp.maxLength ∧ vrp.originAs ≠ 0 ∧
    vrp.originAs = originAs

theorem validate_outcome (stores : Stores table stored) {net : IpNetwork} (canonical : CanonicalNetwork net)
    {originAs : UInt32} (nonzero : originAs ≠ 0) : (Matching stored net originAs ∧ table.validate net originAs = .valid) ∨
      (Covering stored net ∧ ¬ Matching stored net originAs ∧ table.validate net originAs = .invalid) ∨
      (¬ Covering stored net ∧ table.validate net originAs = .notFound) := by
  have listed := mem_coveringVrps stores canonical
  have covered : (table.coveringVrps net).isEmpty = false ↔ Covering stored net := by
    rw [isEmpty_eq_false_iff_exists_mem]
    exact exists_congr listed
  have matched : ((table.coveringVrps net).any fun vrp => vrp.covers net.prefixLen originAs) = true ↔ Matching stored net originAs := by
    rw [any_eq_true]
    refine exists_congr fun vrp => ?_
    rw [listed, and_assoc, Vrp.covers, Bool.and_eq_true, Bool.and_eq_true, decide_eq_true_iff, bne_iff_ne, beq_iff_eq, and_assoc,
      @eq_comm _ originAs]
  rw [validate, if_neg nonzero]
  cases empty : (table.coveringVrps net).isEmpty with
  | true =>
    refine .inr (.inr ⟨fun covering => ?_, if_pos empty⟩)
    rw [covered.mpr covering] at empty
    cases empty
  | false =>
    have filled : ¬ (table.coveringVrps net).isEmpty = true := Bool.eq_false_iff.mp empty
    by_cases found : Matching stored net originAs
    · exact .inl ⟨found, (if_neg filled).trans (if_pos (matched.mpr found))⟩
    · exact .inr (.inl ⟨covered.mp empty, found, (if_neg filled).trans (if_neg (mt matched.mp found))⟩)

theorem origin_validation (calls : List VrpCall) (canonical : ∀ call ∈ calls, ∀ vrp ∈ call.vrps, CanonicalNetwork vrp.pfx)
    (net : IpNetwork) (netCanonical : CanonicalNetwork net) (originAs : UInt32) (nonzero : originAs ≠ 0) :
    let stored := calls.foldl VrpCall.onSet ∅
    let answer := (calls.foldl VrpCall.onTable .new).validate net originAs
    (answer = .valid ↔ Matching stored net originAs) ∧ (answer = .invalid ↔ Covering stored net ∧ ¬ Matching stored net originAs) ∧
      (answer = .notFound ↔ ¬ Covering stored net) := by
  intro stored answer
  have outcome : (Matching stored net originAs ∧ answer = .valid) ∨
      (Covering stored net ∧ ¬ Matching stored net originAs ∧ answer = .invalid) ∨
      (¬ Covering stored net ∧ answer = .notFound) :=
    validate_outcome (calls_store stores_new canonical) netCanonical nonzero
  have covers : Matching stored net originAs → Covering stored net := fun found =>
    found.imp fun _ held => ⟨held.1, held.2.1⟩
  rcases outcome with ⟨found, valid⟩ | ⟨covering, missed, invalid⟩ | ⟨none, notFound⟩
  · simp [valid, found, covers found]
  · simp [invalid, covering, missed]
  · have missed : ¬ Matching stored net originAs := fun found => none (covers found)
    simp [notFound, none, missed]

theorem origin_validation_one_left : Matching ([VrpCall.add [⟨.v4 ⟨0x0A000000#32, 8⟩, 24, 65001⟩, ⟨.v4 ⟨0x0A010000#32, 16⟩, 16, 65002⟩],
        .remove [⟨.v4 ⟨0x0A010000#32, 16⟩, 16, 65002⟩, ⟨.v6 ⟨0#128, 0⟩, 0, 65002⟩]].foldl VrpCall.onSet ∅)
      (.v4 ⟨0x0A010200#32, 24⟩) 65001 := by
  refine (origin_validation _ ?_ (.v4 ⟨0x0A010200#32, 24⟩) (by decide) 65001 (by decide)).1.mp (by decide)
  decide

end VrpTable

end Bgpgg.Rpki
