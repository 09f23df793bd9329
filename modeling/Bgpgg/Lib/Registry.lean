import Mathlib.Data.List.Nodup
import Mathlib.Data.List.Perm.Basic

namespace Bgpgg.Lib

open List

-- Entries filed under keys. An entry fills a slot, which no other entry under its key
-- may fill, and carries an identifier handed out by an allocator, which no other entry
-- anywhere may carry. held is the allocator's own account of the identifiers in use.
structure Registry (Key Slot : Type) where
  entries : Key → List (Slot × Option Nat)
  held : Nat → Prop

namespace Registry

variable {Key Slot : Type}

variable {before after : Registry Key Slot}

structure Consistent (registry : Registry Key Slot) : Prop where
  slots : ∀ key, ((registry.entries key).map Prod.fst).Nodup
  identified : ∀ key, ∀ entry ∈ registry.entries key, ∃ id, entry.2 = some id ∧ 1 ≤ id
  unique : ∀ key, ((registry.entries key).map Prod.snd).Nodup
  apart : ∀ key other, key ≠ other → ∀ entry ∈ registry.entries key, ∀ rival ∈ registry.entries other, entry.2 ≠ rival.2
  exact : ∀ id, registry.held id ↔ ∃ key, ∃ entry ∈ registry.entries key, entry.2 = some id

theorem Consistent.empty (registry : Registry Key Slot) (noEntries : ∀ key, registry.entries key = [])
    (noneHeld : ∀ id, ¬ registry.held id) : registry.Consistent where
  slots key := by simp [noEntries]
  identified key entry member := by simp [noEntries] at member
  unique key := by simp [noEntries]
  apart key other different entry member := by simp [noEntries] at member
  exact id := by simp [noEntries, noneHeld]

theorem Consistent.perm (valid : before.Consistent) (reordered : ∀ key, (after.entries key).Perm (before.entries key))
    (sameHeld : ∀ id, after.held id ↔ before.held id) : after.Consistent where
  slots key := ((reordered key).map Prod.fst).nodup_iff.mpr (valid.slots key)
  identified key entry member := valid.identified key entry ((reordered key).mem_iff.mp member)
  unique key := ((reordered key).map Prod.snd).nodup_iff.mpr (valid.unique key)
  apart key other different entry member rival rivalMember :=
    valid.apart key other different entry ((reordered key).mem_iff.mp member) rival ((reordered other).mem_iff.mp rivalMember)
  exact id := by
    rw [sameHeld, valid.exact]
    simp [(reordered _).mem_iff]

theorem Consistent.drop (valid : before.Consistent) (dropped : Key → List (Slot × Option Nat))
    (split : ∀ key, (before.entries key).Perm (after.entries key ++ dropped key))
    (released : ∀ id, after.held id ↔ before.held id ∧ ¬ ∃ key, ∃ entry ∈ dropped key, entry.2 = some id) :
    after.Consistent where
  slots key := by
    have all := ((split key).map Prod.fst).nodup_iff.mp (valid.slots key)
    rw [map_append] at all
    exact (nodup_append.mp all).1
  identified key entry member := valid.identified key entry ((split key).mem_iff.mpr (mem_append_left _ member))
  unique key := by
    have all := ((split key).map Prod.snd).nodup_iff.mp (valid.unique key)
    rw [map_append] at all
    exact (nodup_append.mp all).1
  apart key other different entry member rival rivalMember :=
    valid.apart key other different entry ((split key).mem_iff.mpr (mem_append_left _ member)) rival
      ((split other).mem_iff.mpr (mem_append_left _ rivalMember))
  exact id := by
    rw [released, valid.exact]
    constructor
    · rintro ⟨⟨key, entry, member, carries⟩, notDropped⟩
      rcases mem_append.mp ((split key).mem_iff.mp member) with kept | gone
      · exact ⟨key, entry, kept, carries⟩
      · exact absurd ⟨key, entry, gone, carries⟩ notDropped
    · rintro ⟨key, entry, kept, carries⟩
      have member := (split key).mem_iff.mpr (mem_append_left _ kept)
      refine ⟨⟨key, entry, member, carries⟩, ?_⟩
      rintro ⟨other, rival, gone, sameId⟩
      have rivalMember := (split other).mem_iff.mpr (mem_append_right _ gone)
      by_cases same : key = other
      · subst same
        have all := ((split key).map Prod.snd).nodup_iff.mp (valid.unique key)
        rw [map_append] at all
        exact (nodup_append.mp all).2.2 entry.2 (mem_map_of_mem kept) rival.2 (mem_map_of_mem gone) (carries.trans sameId.symm)
      · exact valid.apart key other same entry member rival rivalMember (carries.trans sameId.symm)

theorem Consistent.push [DecidableEq Key] (valid : before.Consistent) (key : Key)
    (slot : Slot) (id : Nat) (grown : (after.entries key).Perm (before.entries key ++ [(slot, some id)]))
    (others : ∀ other, other ≠ key → after.entries other = before.entries other)
    (freeSlot : ∀ entry ∈ before.entries key, entry.1 ≠ slot) (freeId : ¬ before.held id) (positive : 1 ≤ id)
    (taken : ∀ other, after.held other ↔ before.held other ∨ other = id) : after.Consistent := by
  have unused : ∀ other, ∀ entry ∈ before.entries other, entry.2 ≠ some id := fun other entry member carries =>
    freeId ((valid.exact id).mpr ⟨other, entry, member, carries⟩)
  have cases : ∀ other, ∀ entry ∈ after.entries other, entry ∈ before.entries other ∨ other = key ∧ entry = (slot, some id) := by
    intro other entry member
    by_cases same : other = key
    · subst same
      rcases mem_append.mp (grown.mem_iff.mp member) with old | new
      · exact .inl old
      · exact .inr ⟨rfl, mem_singleton.mp new⟩
    · rw [others other same] at member
      exact .inl member
  have distinct : ∀ {Part : Type} (part : Slot × Option Nat → Part), (∀ other, ((before.entries other).map part).Nodup) →
      (∀ entry ∈ before.entries key, part entry ≠ part (slot, some id)) → ∀ other, ((after.entries other).map part).Nodup := by
    intro Part part old new other
    by_cases same : other = key
    · subst same
      rw [(grown.map part).nodup_iff, map_append, nodup_append]
      refine ⟨old other, by simp, ?_⟩
      intro kept member added addedMember
      obtain ⟨entry, entryMember, rfl⟩ := mem_map.mp member
      rw [map_singleton, mem_singleton] at addedMember
      exact addedMember ▸ new entry entryMember
    · rw [others other same]
      exact old other
  refine ⟨?_, ?_, ?_, ?_, ?_⟩
  · exact distinct Prod.fst valid.slots freeSlot
  · intro other entry member
    rcases cases other entry member with old | ⟨-, rfl⟩
    · exact valid.identified other entry old
    · exact ⟨id, rfl, positive⟩
  · exact distinct Prod.snd valid.unique (unused key)
  · intro first second different entry member rival rivalMember
    rcases cases first entry member with old | ⟨atKey, rfl⟩
    · rcases cases second rival rivalMember with rivalOld | ⟨-, rfl⟩
      · exact valid.apart first second different entry old rival rivalOld
      · exact unused first entry old
    · rcases cases second rival rivalMember with rivalOld | ⟨rivalAtKey, -⟩
      · exact (unused second rival rivalOld).symm
      · exact absurd (atKey.trans rivalAtKey.symm) different
  · intro other
    rw [taken, valid.exact]
    constructor
    · rintro (⟨place, entry, member, carries⟩ | rfl)
      · by_cases same : place = key
        · subst same
          exact ⟨place, entry, grown.mem_iff.mpr (mem_append_left _ member), carries⟩
        · exact ⟨place, entry, (others place same).symm ▸ member, carries⟩
      · exact ⟨key, (slot, some other), grown.mem_iff.mpr (by simp), rfl⟩
    · rintro ⟨place, entry, member, carries⟩
      rcases cases place entry member with old | ⟨-, rfl⟩
      · exact .inl ⟨place, entry, old, carries⟩
      · exact .inr (Option.some.inj carries).symm

end Registry

end Bgpgg.Lib
