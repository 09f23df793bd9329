import Mathlib.Data.List.Induction
import Bgpgg.Peer.Export

namespace Bgpgg.Rib.AdjRibOut

open Net Lib

def Keyed (table : AdjRibOut) : Prop := ∀ key id path, pathAt table key id = some path → path.localPathId = some id

@[simp] theorem pathAt_new (key : RouteKey) (id : UInt32) : pathAt .new key id = none := by
  cases key with
  | pfx net => cases net <;> rfl
  | linkState nlri => rfl

section

variable (table : AdjRibOut) (key other : RouteKey) (stored : AssocMap UInt32 Path)

theorem pathAt_write (id : UInt32) :
    pathAt (table.write key stored) other id = if other = key then stored.lookup id else pathAt table other id := by
  rw [pathAt, FamilyTables.get_write]
  by_cases here : other = key
  · rw [if_pos here, if_pos here]
    rfl
  · rw [if_neg here, if_neg here]
    rfl

theorem pathAt_insert (path : Path) (id : UInt32) : pathAt (insert table key path) other id =
      if other = key ∧ path.localPathId = some id then some path else pathAt table other id := by
  cases ident : path.localPathId with
  | none => simp [insert, ident]
  | some own =>
    simp only [insert, ident, pathAt_write, Option.some.injEq]
    by_cases here : other = key
    · subst here
      rw [if_pos rfl, AssocMap.lookup_insert_if]
      by_cases same : id = own
      · simp [same]
      · rw [if_neg same, if_neg fun both => same both.2.symm, pathAt]
        cases FamilyTables.get table other <;> simp
    · simp [here]

theorem keyed_new : Keyed .new := by
  intro key id path recorded
  rw [pathAt_new] at recorded
  cases recorded

theorem keyed_insert {table : AdjRibOut} (keyed : Keyed table) (key : RouteKey) (path : Path) : Keyed (insert table key path) := by
  intro other id stored recorded
  rw [pathAt_insert] at recorded
  split at recorded
  · rename_i here
    cases recorded
    exact here.2
  · exact keyed other id stored recorded

theorem size_erase_zero (empty : AssocMap.size stored = 0) (id : UInt32) : stored.lookup id = none := by
  rw [AssocMap.size, List.length_eq_zero_iff] at empty
  rw [AList.lookup_eq_none, AList.mem_keys, AList.keys, empty]
  exact List.not_mem_nil

theorem pathAt_removePath (removed id : UInt32) : pathAt (removePath table key removed) other id =
      if other = key ∧ id = removed then none else pathAt table other id := by
  cases found : FamilyTables.get table key with
  | none =>
    simp only [removePath, found]
    by_cases here : other = key ∧ id = removed
    · rw [if_pos here, pathAt, here.1, found]
      rfl
    · rw [if_neg here]
  | some stored =>
    have erased : (stored.erase removed).lookup id = if id = removed then none else stored.lookup id :=
      AssocMap.lookup_erase_if stored removed id
    have before : pathAt table key id = stored.lookup id := by rw [pathAt, found, Option.bind_some]
    simp only [removePath, found]
    by_cases empty : AssocMap.size (stored.erase removed) = 0
    · rw [if_pos empty, pathAt, FamilyTables.get_remove]
      by_cases here : other = key
      · subst here
        rw [if_pos rfl, Option.bind_none]
        rw [size_erase_zero _ empty id] at erased
        by_cases same : id = removed
        · simp [same]
        · rw [if_neg same] at erased
          rw [if_neg fun both => same both.2, before, ← erased]
      · simp [here, pathAt]
    · rw [if_neg empty, pathAt_write]
      by_cases here : other = key
      · subst here
        rw [erased, before]
        simp
      · simp [here]

theorem mem_stalePaths (key : RouteKey) (active : List RoutePath) (path : Path) :
    path ∈ stalePaths table key active ↔ ∃ id, pathAt table key id = some path ∧
      ∀ routePath ∈ active, routePath.path.localPathId ≠ some id := by
  cases found : FamilyTables.get table key with
  | none => simp [stalePaths, pathAt, found]
  | some stored =>
    simp only [stalePaths, pathAt, found, List.mem_map, List.mem_filter, Bool.not_eq_true',
      List.contains_eq_mem, decide_eq_false_iff_not, List.mem_filterMap, not_exists, not_and]
    refine ⟨fun ⟨entry, ⟨member, inactive⟩, same⟩ => ?_, fun ⟨id, recorded, inactive⟩ => ?_⟩
    · exact ⟨entry.1, same ▸ AList.mem_lookup_iff.mpr member, inactive⟩
    · exact ⟨⟨id, path⟩, ⟨AList.mem_lookup_iff.mp recorded, inactive⟩, rfl⟩

end

end Bgpgg.Rib.AdjRibOut

namespace Bgpgg.Peer

open Net Lib Rib

theorem pathAt_removeStale (key other : RouteKey) (paths : List Path) (table : AdjRibOut) (id : UInt32) :
    AdjRibOut.pathAt (paths.foldl (removeStale key) table) other id =
      if other = key ∧ ∃ path ∈ paths, path.localPathId = some id then none else AdjRibOut.pathAt table other id := by
  induction paths generalizing table with
  | nil => simp
  | cons path rest ih =>
    have one : AdjRibOut.pathAt (removeStale key table path) other id =
        if other = key ∧ path.localPathId = some id then none else AdjRibOut.pathAt table other id := by
      cases ident : path.localPathId with
      | none => simp [removeStale, ident]
      | some own =>
        simp only [removeStale, ident, AdjRibOut.pathAt_removePath]
        simp [eq_comm]
    rw [List.foldl_cons, ih, one]
    by_cases here : other = key
    · by_cases mine : path.localPathId = some id
      · simp [here, mine]
      · simp [mine]
    · simp [here]

theorem pathAt_recorded (announcements : List RoutePath) (table : AdjRibOut) (key : RouteKey) (id : UInt32) :
    (∃ routePath ∈ announcements, routePath.key = key ∧ routePath.path.localPathId = some id ∧
      AdjRibOut.pathAt (announcements.foldl (fun table routePath =>
        AdjRibOut.insert table routePath.key routePath.path) table) key id = some routePath.path) ∨
    (∀ routePath ∈ announcements, routePath.key = key → routePath.path.localPathId ≠ some id) ∧
      AdjRibOut.pathAt (announcements.foldl (fun table routePath =>
        AdjRibOut.insert table routePath.key routePath.path) table) key id = AdjRibOut.pathAt table key id := by
  induction announcements generalizing table with
  | nil => exact .inr ⟨by simp, rfl⟩
  | cons first rest ih =>
    cases ih (AdjRibOut.insert table first.key first.path) with
    | inl later =>
      obtain ⟨routePath, member, here, ident, recorded⟩ := later
      exact .inl ⟨routePath, List.mem_cons_of_mem _ member, here, ident, recorded⟩
    | inr untouched =>
      obtain ⟨others, unchanged⟩ := untouched
      rw [AdjRibOut.pathAt_insert] at unchanged
      by_cases mine : key = first.key ∧ first.path.localPathId = some id
      · rw [if_pos mine] at unchanged
        exact .inl ⟨first, List.mem_cons_self, mine.1.symm, mine.2, unchanged⟩
      · rw [if_neg mine] at unchanged
        refine .inr ⟨?_, unchanged⟩
        intro routePath member here ident
        cases List.mem_cons.mp member with
        | inl same => exact mine ⟨same ▸ here.symm, same ▸ ident⟩
        | inr later => exact others routePath later here ident

section

variable {Alloc : Type}

variable (ctx : PeerExportContext) (delta : RouteDelta) (locRib : LocRib Alloc) (table : AdjRibOut) (afiSafi : AfiSafi)

variable {keys : List RouteKey} {state : FamilyExport}

def selection (ctx : PeerExportContext) (locRib : LocRib Alloc) (key : RouteKey) : List RoutePath :=
  selectPathsForExport key (ctx.sendFormat.addPath.contains key.afiSafi) locRib ctx

def Advertised (ctx : PeerExportContext) (locRib : LocRib Alloc) (table : AdjRibOut) (key : RouteKey) : Prop :=
  ∀ id path, AdjRibOut.pathAt table key id = some path ↔
    path.localPathId = some id ∧ ∃ routePath ∈ selection ctx locRib key, routePath.path = path

structure Identified (ctx : PeerExportContext) (locRib : LocRib Alloc) (key : RouteKey) : Prop where
  named : ∀ routePath ∈ selection ctx locRib key, routePath.path.localPathId.isSome = true
  unique : ∀ first ∈ selection ctx locRib key, ∀ second ∈ selection ctx locRib key,
    first.path.localPathId = second.path.localPathId → first.path = second.path

theorem selection_key {key : RouteKey} {routePath : RoutePath} (member : routePath ∈ selection ctx locRib key) :
    routePath.key = key ∧ ∃ path ∈ locRib.getAllPaths key, computeExportPath key path.value ctx = some routePath.path := by
  have exported : ∀ path : Arc Path, exportRoutePath key ctx path = some routePath →
      routePath.key = key ∧ computeExportPath key path.value ctx = some routePath.path := by
    intro path computed
    obtain ⟨result, accepted, rfl⟩ := Option.map_eq_some_iff.mp computed
    exact ⟨rfl, accepted⟩
  have found : ∃ path ∈ locRib.getAllPaths key, exportRoutePath key ctx path = some routePath := by
    rw [selection, selectPathsForExport] at member
    split at member
    · exact List.mem_filterMap.mp member
    · split at member
      · rw [Option.mem_toList] at member
        exact List.exists_of_findSome?_eq_some member
      · rw [Option.mem_toList, Option.bind_eq_some_iff] at member
        obtain ⟨path, best, computed⟩ := member
        refine ⟨path, ?_, computed⟩
        rw [LocRib.getBestPath, Option.bind_eq_some_iff] at best
        obtain ⟨route, stored, head⟩ := best
        rw [LocRib.getAllPaths, stored]
        exact List.mem_of_mem_head? head
  obtain ⟨path, member, computed⟩ := found
  exact ⟨(exported path computed).1, path, member, (exported path computed).2⟩

-- What exporting a list of keys of one family leaves: the inactive paths of those keys are
-- gone, and all their selected paths are announced.
structure Gathered (ctx : PeerExportContext) (locRib : LocRib Alloc) (afiSafi : AfiSafi) (keys : List RouteKey)
    (table : AdjRibOut) (state : FamilyExport) : Prop where
  announced : ∀ routePath, routePath ∈ state.announcements ↔ ∃ key ∈ keys, key.afiSafi = afiSafi ∧ routePath ∈ selection ctx locRib key
  recorded : ∀ key id, AdjRibOut.pathAt state.adjRibOut key id =
    if key ∈ keys ∧ key.afiSafi = afiSafi ∧ ∀ routePath ∈ selection ctx locRib key, routePath.path.localPathId ≠ some id
    then none else AdjRibOut.pathAt table key id

theorem Gathered.keyed {ctx : PeerExportContext} {locRib : LocRib Alloc} {afiSafi : AfiSafi}
    {table : AdjRibOut} (gathered : Gathered ctx locRib afiSafi keys table state)
    (keyed : AdjRibOut.Keyed table) : AdjRibOut.Keyed state.adjRibOut := by
  intro key id path recorded
  rw [gathered.recorded] at recorded
  split at recorded
  · cases recorded
  · exact keyed key id path recorded

theorem exportKey_gathered {ctx : PeerExportContext} {locRib : LocRib Alloc} {afiSafi : AfiSafi}
    {table : AdjRibOut} (gathered : Gathered ctx locRib afiSafi keys table state) (keyed : AdjRibOut.Keyed table) (key : RouteKey) :
    Gathered ctx locRib afiSafi (keys ++ [key]) table (exportKey ctx locRib afiSafi state key) := by
  by_cases other : key.afiSafi ≠ afiSafi
  · -- a key of another family is passed over
    have skipped : ∀ candidate : RouteKey, candidate.afiSafi = afiSafi → (candidate ∈ keys ++ [key] ↔ candidate ∈ keys) := by
      intro candidate mine
      rw [List.mem_append, List.mem_singleton]
      refine ⟨fun member => member.resolve_right fun same => other (same ▸ mine), .inl⟩
    rw [exportKey, if_pos other]
    refine ⟨fun routePath => ?_, fun candidate id => ?_⟩
    · rw [gathered.announced]
      refine ⟨fun ⟨candidate, member, mine, selected⟩ => ⟨candidate, (skipped candidate mine).mpr member, mine, selected⟩,
        fun ⟨candidate, member, mine, selected⟩ => ⟨candidate, (skipped candidate mine).mp member, mine, selected⟩⟩
    · rw [gathered.recorded]
      by_cases mine : candidate.afiSafi = afiSafi
      · simp [skipped candidate mine]
      · simp [mine]
  · rw [not_not] at other
    subst other
    rw [exportKey, if_neg (not_not.mpr rfl)]
    refine ⟨fun routePath => ?_, fun candidate id => ?_⟩
    · simp only [List.mem_append, gathered.announced, List.mem_singleton]
      refine ⟨fun member => ?_, fun ⟨candidate, listed, mine, selected⟩ => ?_⟩
      · cases member with
        | inl earlier =>
          obtain ⟨candidate, listed, mine, selected⟩ := earlier
          exact ⟨candidate, .inl listed, mine, selected⟩
        | inr new => exact ⟨key, .inr rfl, rfl, new⟩
      · cases listed with
        | inl earlier => exact .inl ⟨candidate, earlier, mine, selected⟩
        | inr same =>
          subst same
          exact .inr selected
    · simp only [pathAt_removeStale]
      by_cases here : candidate = key
      · subst here
        simp only [true_and, List.mem_append, List.mem_singleton, or_true]
        by_cases inactive : ∀ routePath ∈ selection ctx locRib candidate, routePath.path.localPathId ≠ some id
        · split
          · rfl
          · rename_i notStale
            cases recorded : AdjRibOut.pathAt state.adjRibOut candidate id with
            | none => rfl
            | some path =>
              have stale := (AdjRibOut.mem_stalePaths _ _ _ path).mpr ⟨id, recorded, inactive⟩
              exact absurd ⟨path, stale, gathered.keyed keyed _ _ _ recorded⟩ notStale
        · rw [if_neg inactive, if_neg, gathered.recorded, if_neg fun both => inactive both.2.2]
          rintro ⟨path, stale, ident⟩
          obtain ⟨recordedId, recorded, unselected⟩ := (AdjRibOut.mem_stalePaths _ _ _ path).mp stale
          have same : recordedId = id := Option.some.inj ((gathered.keyed keyed _ _ _ recorded).symm.trans ident)
          exact inactive (same ▸ unselected)
      · simp [here, gathered.recorded]

theorem exportKeys_gathered (keys : List RouteKey) (table : AdjRibOut) (keyed : AdjRibOut.Keyed table) :
    Gathered ctx locRib afiSafi keys table (keys.foldl (exportKey ctx locRib afiSafi) ⟨[], [], table⟩) := by
  induction keys using List.reverseRecOn with
  | nil => exact ⟨by simp, by simp⟩
  | append_singleton front last ih =>
    rw [List.foldl_append]
    exact exportKey_gathered ih keyed last

structure Propagated (ctx : PeerExportContext) (locRib : LocRib Alloc) (exported : RouteKey → Prop)
    (before after : AdjRibOut) : Prop where
  advertised : ∀ key, exported key → Advertised ctx locRib after key
  others : ∀ key, ¬ exported key → ∀ id, AdjRibOut.pathAt after key id = AdjRibOut.pathAt before key id
  keyed : AdjRibOut.Keyed after

theorem exportFamily_propagated (keyed : AdjRibOut.Keyed table) (identified : ∀ key, Identified ctx locRib key) :
    Propagated ctx locRib (fun key => key ∈ routeKeysFor ctx delta afiSafi ∧ key.afiSafi = afiSafi) table
      (exportFamily ctx delta locRib table afiSafi).adjRibOut := by
  have gathered := exportKeys_gathered ctx locRib afiSafi (routeKeysFor ctx delta afiSafi) table keyed
  have gatheredKeyed := gathered.keyed keyed
  simp only [exportFamily]
  generalize (routeKeysFor ctx delta afiSafi).foldl (exportKey ctx locRib afiSafi) ⟨[], [], table⟩ = state at gathered gatheredKeyed ⊢
  refine ⟨fun key exported id path => ?_, fun key skipped id => ?_, fun key id path recorded => ?_⟩
  · have announced : ∀ routePath, routePath ∈ selection ctx locRib key → routePath ∈ state.announcements :=
      fun routePath selected => (gathered.announced routePath).mpr ⟨key, exported.1, exported.2, selected⟩
    have selected : ∀ routePath, routePath ∈ state.announcements → routePath.key = key → routePath ∈ selection ctx locRib key := by
      intro routePath member here
      obtain ⟨origin, -, -, from_origin⟩ := (gathered.announced routePath).mp member
      rw [← here, (selection_key ctx locRib from_origin).1]
      exact from_origin
    cases pathAt_recorded state.announcements state.adjRibOut key id with
    | inl new =>
      obtain ⟨routePath, member, here, ident, recorded⟩ := new
      rw [recorded]
      refine ⟨fun same => ?_, fun ⟨pathIdent, other, otherSelected, otherPath⟩ => ?_⟩
      · cases same
        exact ⟨ident, routePath, selected routePath member here, rfl⟩
      · rw [← otherPath]
        refine congrArg some ((identified key).unique _ (selected routePath member here) _ otherSelected ?_)
        rw [ident, otherPath, pathIdent]
    | inr old =>
      have inactive : ∀ routePath ∈ selection ctx locRib key, routePath.path.localPathId ≠ some id := by
        intro routePath isSelected
        exact old.1 routePath (announced routePath isSelected) (selection_key ctx locRib isSelected).1
      rw [old.2, gathered.recorded, if_pos ⟨exported.1, exported.2, inactive⟩]
      refine ⟨fun nothing => ?_, fun ⟨pathIdent, other, otherSelected, otherPath⟩ => ?_⟩
      · cases nothing
      · exact absurd (otherPath ▸ pathIdent) (inactive other otherSelected)
  · cases pathAt_recorded state.announcements state.adjRibOut key id with
    | inl new =>
      obtain ⟨routePath, member, here, -, -⟩ := new
      obtain ⟨origin, listed, mine, from_origin⟩ := (gathered.announced routePath).mp member
      rw [(selection_key ctx locRib from_origin).1] at here
      exact absurd ⟨here ▸ listed, here ▸ mine⟩ skipped
    | inr old => rw [old.2, gathered.recorded, if_neg fun all => skipped ⟨all.1, all.2.1⟩]
  · cases pathAt_recorded state.announcements state.adjRibOut key id with
    | inl new =>
      obtain ⟨routePath, -, -, ident, same⟩ := new
      rw [same] at recorded
      cases recorded
      exact ident
    | inr old =>
      rw [old.2] at recorded
      exact gatheredKeyed key id path recorded

theorem Advertised.congr {ctx : PeerExportContext} {locRib : LocRib Alloc} {before after : AdjRibOut} {key : RouteKey}
    (advertised : Advertised ctx locRib before key)
    (same : ∀ id, AdjRibOut.pathAt after key id = AdjRibOut.pathAt before key id) : Advertised ctx locRib after key := by
  intro id path
  rw [same]
  exact advertised id path

theorem propagateRoutesToPeer_propagated (keyed : AdjRibOut.Keyed table) (identified : ∀ key, Identified ctx locRib key) :
    Propagated ctx locRib
      (fun key => key.afiSafi ∈ ctx.afiSafis ∧ key ∈ routeKeysFor ctx delta key.afiSafi) table
      (propagateRoutesToPeer ctx delta locRib table).1 := by
  have families : ∀ (families : List AfiSafi) (sent : List FamilyExport),
      Propagated ctx locRib (fun key => key.afiSafi ∈ families ∧ key ∈ routeKeysFor ctx delta key.afiSafi) table
        (families.foldl (fun state afiSafi =>
          let exported := exportFamily ctx delta locRib state.1 afiSafi
          (exported.adjRibOut, state.2 ++ [exported])) (table, sent)).1 := by
    intro families sent
    induction families using List.reverseRecOn with
    | nil => exact ⟨by simp, by simp, keyed⟩
    | append_singleton front last ih =>
      rw [List.foldl_append]
      simp only [List.foldl_cons, List.foldl_nil]
      generalize (front.foldl (fun state afiSafi =>
        let exported := exportFamily ctx delta locRib state.1 afiSafi
        (exported.adjRibOut, state.2 ++ [exported])) (table, sent)).1 = middle at ih ⊢
      have step := exportFamily_propagated ctx delta locRib middle last ih.keyed identified
      refine ⟨fun key exported => ?_, fun key skipped id => ?_, step.keyed⟩
      · by_cases now : key ∈ routeKeysFor ctx delta last ∧ key.afiSafi = last
        · exact step.advertised key now
        · refine (ih.advertised key ⟨?_, exported.2⟩).congr (step.others key now)
          cases List.mem_append.mp exported.1 with
          | inl earlier => exact earlier
          | inr same =>
            have family := List.mem_singleton.mp same
            exact absurd ⟨family ▸ exported.2, family⟩ now
      · rw [step.others key, ih.others key]
        · exact fun earlier => skipped ⟨List.mem_append_left _ earlier.1, earlier.2⟩
        · exact fun now => skipped ⟨List.mem_append_right _ (List.mem_singleton.mpr now.2), now.2 ▸ now.1⟩
  exact families ctx.afiSafis []

end

end Bgpgg.Peer
