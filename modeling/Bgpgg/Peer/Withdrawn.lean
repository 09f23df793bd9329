import Mathlib.Data.List.Dedup
import Bgpgg.Peer.Advertise

namespace Bgpgg.Peer

open Net Rib List AdjRibOut

section

variable {Alloc : Type}

section

variable (table : AdjRibOut) {afiSafi : AfiSafi} {keys : List RouteKey} {key : RouteKey}

theorem get_removePath_other {key other : RouteKey} (different : other ≠ key) (id : UInt32) :
    FamilyTables.get (removePath table key id) other = FamilyTables.get table other := by
  rw [removePath]
  cases FamilyTables.get table key with
  | none => rfl
  | some stored =>
    simp only
    split
    · rw [FamilyTables.get_remove, if_neg different]
    · rw [FamilyTables.get_write, if_neg different]

theorem get_removeStale_other {key other : RouteKey} (different : other ≠ key) (paths : List Path) (table : AdjRibOut) :
    FamilyTables.get (paths.foldl (removeStale key) table) other = FamilyTables.get table other := by
  induction paths generalizing table with
  | nil => rfl
  | cons path rest ih =>
    rw [foldl_cons, ih, removeStale]
    split
    · rfl
    · exact get_removePath_other table different _

theorem get_insert_other {key other : RouteKey} (different : other ≠ key) (path : Path) :
    FamilyTables.get (AdjRibOut.insert table key path) other = FamilyTables.get table other := by
  rw [AdjRibOut.insert]
  split
  · rfl
  · rw [FamilyTables.get_write, if_neg different]

theorem get_record_other {announcements : List RoutePath} (table : AdjRibOut) {other : RouteKey}
    (different : ∀ routePath ∈ announcements, other ≠ routePath.key) :
    FamilyTables.get (announcements.foldl (fun table routePath =>
      AdjRibOut.insert table routePath.key routePath.path) table) other = FamilyTables.get table other := by
  induction announcements generalizing table with
  | nil => rfl
  | cons routePath rest ih =>
    rw [foldl_cons, ih _ fun later member => different later (mem_cons_of_mem _ member),
      get_insert_other table (different routePath mem_cons_self)]

theorem stalePaths_congr {before after : AdjRibOut}
    (same : FamilyTables.get after key = FamilyTables.get before key) (active : List RoutePath) :
    stalePaths after key active = stalePaths before key active := by
  rw [stalePaths, stalePaths, same]

def withdrawalsFor (ctx : PeerExportContext) (locRib : LocRib Alloc) (table : AdjRibOut) (key : RouteKey) : List Withdrawal :=
  buildWithdrawalsForRoute key (AdjRibOut.stalePaths table key (selection ctx locRib key)) (selection ctx locRib key)
    (ctx.sendFormat.addPath.contains key.afiSafi)

def familyKeys (afiSafi : AfiSafi) (keys : List RouteKey) : List RouteKey := (keys.filter fun key => key.afiSafi = afiSafi).dedup

theorem mem_familyKeys : key ∈ familyKeys afiSafi keys ↔ key ∈ keys ∧ key.afiSafi = afiSafi := by
  rw [familyKeys, mem_dedup, mem_filter, decide_eq_true_iff]

theorem nodup_familyKeys (afiSafi : AfiSafi) (keys : List RouteKey) : (familyKeys afiSafi keys).Nodup := nodup_dedup _

theorem familyKeys_append (mine : key.afiSafi = afiSafi) (fresh : key ∉ keys) :
    (familyKeys afiSafi (keys ++ [key])).Perm (familyKeys afiSafi keys ++ [key]) := by
  have absent : key ∉ familyKeys afiSafi keys := fun member => fresh (mem_familyKeys.mp member).1
  have distinct : (familyKeys afiSafi keys ++ [key]).Nodup := by
    rw [← concat_eq_append, nodup_concat]
    exact ⟨absent, nodup_familyKeys afiSafi keys⟩
  refine (perm_ext_iff_of_nodup (nodup_familyKeys _ _) distinct).mpr ?_
  intro other
  rw [mem_familyKeys, mem_append, mem_append, mem_familyKeys, mem_singleton]
  constructor
  · intro member
    rcases member.1 with earlier | same
    · exact .inl ⟨earlier, member.2⟩
    · exact .inr same
  · intro member
    rcases member with earlier | same
    · exact ⟨.inl earlier.1, earlier.2⟩
    · exact ⟨.inr same, same ▸ mine⟩

theorem familyKeys_skip (skipped : key.afiSafi ≠ afiSafi ∨ key ∈ keys) :
    (familyKeys afiSafi (keys ++ [key])).Perm (familyKeys afiSafi keys) := by
  refine (perm_ext_iff_of_nodup (nodup_familyKeys _ _) (nodup_familyKeys _ _)).mpr ?_
  intro other
  rw [mem_familyKeys, mem_familyKeys, mem_append, mem_singleton]
  constructor
  · rintro ⟨earlier | same, mine⟩
    · exact ⟨earlier, mine⟩
    · subst same
      exact ⟨skipped.resolve_left (not_not_intro mine), mine⟩
  · intro member
    exact ⟨.inl member.1, member.2⟩

end

end

section

variable {Alloc : Type} {ctx : PeerExportContext} {locRib : LocRib Alloc} {afiSafi : AfiSafi} {keys : List RouteKey}
  {table : AdjRibOut} {state : FamilyExport}

variable {key : RouteKey}

-- Every key is withdrawn once, from what the table held at the start: a second visit finds
-- nothing that is not selected.
structure Diffed (ctx : PeerExportContext) (locRib : LocRib Alloc) (afiSafi : AfiSafi) (keys : List RouteKey)
    (table : AdjRibOut) (state : FamilyExport) : Prop where
  gathered : Gathered ctx locRib afiSafi keys table state
  untouched : ∀ key, ¬ (key ∈ keys ∧ key.afiSafi = afiSafi) → FamilyTables.get state.adjRibOut key = FamilyTables.get table key
  withdrawn : state.withdrawals.Perm ((familyKeys afiSafi keys).flatMap (withdrawalsFor ctx locRib table))

theorem Gathered.no_stale (gathered : Gathered ctx locRib afiSafi keys table state) (listed : key ∈ keys)
    (mine : key.afiSafi = afiSafi) : stalePaths state.adjRibOut key (selection ctx locRib key) = [] := by
  refine eq_nil_iff_forall_not_mem.mpr ?_
  intro path member
  obtain ⟨id, recorded, inactive⟩ := (mem_stalePaths _ _ _ path).mp member
  rw [gathered.recorded, if_pos ⟨listed, mine, inactive⟩] at recorded
  cases recorded

theorem buildWithdrawalsForRoute_nil (key : RouteKey) (exportPaths : List RoutePath) (sendAddPath : Bool) :
    buildWithdrawalsForRoute key [] exportPaths sendAddPath = [] := by
  rw [buildWithdrawalsForRoute]
  split
  · rfl
  · simp

theorem exportKey_diffed (diffed : Diffed ctx locRib afiSafi keys table state) (keyed : AdjRibOut.Keyed table) (key : RouteKey) :
    Diffed ctx locRib afiSafi (keys ++ [key]) table (exportKey ctx locRib afiSafi state key) := by
  refine ⟨exportKey_gathered diffed.gathered keyed key, ?_, ?_⟩
  · intro other outside
    have before : ¬ (other ∈ keys ∧ other.afiSafi = afiSafi) := fun inside =>
      outside ⟨mem_append_left _ inside.1, inside.2⟩
    rw [exportKey]
    split
    · exact diffed.untouched other before
    · rename_i mine
      have different : other ≠ key := by
        intro same
        subst same
        exact outside ⟨mem_append_right _ (mem_singleton.mpr rfl), not_not.mp mine⟩
      rw [get_removeStale_other different]
      exact diffed.untouched other before
  · rw [exportKey]
    split
    · rename_i other
      exact diffed.withdrawn.trans ((familyKeys_skip (.inl other)).flatMap_right _).symm
    · rename_i mine
      rw [not_not] at mine
      subst mine
      by_cases again : key ∈ keys
      · have stale := diffed.gathered.no_stale again rfl
        simp only [selection] at stale
        simp only [stale, buildWithdrawalsForRoute_nil, append_nil]
        exact diffed.withdrawn.trans ((familyKeys_skip (.inr again)).flatMap_right _).symm
      · have first := stalePaths_congr (diffed.untouched key fun listed => again listed.1) (selection ctx locRib key)
        simp only [selection] at first
        simp only [first]
        refine (diffed.withdrawn.append_right _).trans ?_
        refine List.Perm.trans ?_ ((familyKeys_append rfl again).flatMap_right _).symm
        rw [flatMap_append, flatMap_singleton]
        exact .refl _

theorem exportKeys_diffed (ctx : PeerExportContext) (locRib : LocRib Alloc) (afiSafi : AfiSafi) (keys : List RouteKey)
    (keyed : AdjRibOut.Keyed table) :
    Diffed ctx locRib afiSafi keys table (keys.foldl (exportKey ctx locRib afiSafi) ⟨[], [], table⟩) := by
  induction keys using reverseRecOn with
  | nil => exact ⟨⟨by simp, by simp⟩, fun _ _ => rfl, .refl _⟩
  | append_singleton front last ih =>
    rw [foldl_append]
    exact exportKey_diffed ih keyed last

theorem get_exportFamily_other (ctx : PeerExportContext) (delta : RouteDelta) (locRib : LocRib Alloc)
    (keyed : AdjRibOut.Keyed table) (other : key.afiSafi ≠ afiSafi) :
    FamilyTables.get (exportFamily ctx delta locRib table afiSafi).adjRibOut key = FamilyTables.get table key := by
  have diffed := exportKeys_diffed ctx locRib afiSafi (routeKeysFor ctx delta afiSafi) keyed
  rw [exportFamily]
  rw [get_record_other, diffed.untouched key fun listed => other listed.2]
  intro routePath announced same
  obtain ⟨origin, -, mine, selected⟩ := (diffed.gathered.announced routePath).mp announced
  rw [same, (selection_key ctx locRib selected).1] at other
  exact other mine

theorem exportFamily_keyed (ctx : PeerExportContext) (delta : RouteDelta) (locRib : LocRib Alloc)
    (keyed : AdjRibOut.Keyed table) (afiSafi : AfiSafi) :
    AdjRibOut.Keyed (exportFamily ctx delta locRib table afiSafi).adjRibOut := by
  have gathered := (exportKeys_diffed ctx locRib afiSafi (routeKeysFor ctx delta afiSafi) keyed).gathered
  intro key id path recorded
  rw [exportFamily] at recorded
  cases pathAt_recorded _ _ key id with
  | inl new =>
    obtain ⟨routePath, -, -, ident, same⟩ := new
    rw [same] at recorded
    cases recorded
    exact ident
  | inr old =>
    rw [old.2] at recorded
    exact gathered.keyed keyed key id path recorded

def exportsFrom (ctx : PeerExportContext) (delta : RouteDelta) (locRib : LocRib Alloc) : AdjRibOut → List AfiSafi → List FamilyExport
  | _, [] => []
  | table, afiSafi :: rest =>
    let exported := exportFamily ctx delta locRib table afiSafi
    exported :: exportsFrom ctx delta locRib exported.adjRibOut rest

theorem propagateRoutesToPeer_exports (ctx : PeerExportContext) (delta : RouteDelta) (locRib : LocRib Alloc) (table : AdjRibOut) :
    (propagateRoutesToPeer ctx delta locRib table).2 = exportsFrom ctx delta locRib table ctx.afiSafis := by
  have folded : ∀ (families : List AfiSafi) (table : AdjRibOut) (done : List FamilyExport), (families.foldl (fun state afiSafi =>
        let exported := exportFamily ctx delta locRib state.1 afiSafi
        (exported.adjRibOut, state.2 ++ [exported])) (table, done)).2 = done ++ exportsFrom ctx delta locRib table families := by
    intro families
    induction families with
    | nil =>
      intro table done
      rw [exportsFrom, append_nil]
      rfl
    | cons afiSafi rest ih =>
      intro table done
      rw [foldl_cons, ih, append_assoc]
      rfl
  exact folded ctx.afiSafis table []

structure FamilyDiff (ctx : PeerExportContext) (delta : RouteDelta) (locRib : LocRib Alloc) (table : AdjRibOut)
    (afiSafi : AfiSafi) (exported : FamilyExport) : Prop where
  announced : ∀ routePath, routePath ∈ exported.announcements ↔
    ∃ key ∈ routeKeysFor ctx delta afiSafi, key.afiSafi = afiSafi ∧ routePath ∈ selection ctx locRib key
  withdrawn : exported.withdrawals.Perm ((familyKeys afiSafi (routeKeysFor ctx delta afiSafi)).flatMap (withdrawalsFor ctx locRib table))

theorem exportFamily_diff (ctx : PeerExportContext) (delta : RouteDelta) (locRib : LocRib Alloc)
    (keyed : AdjRibOut.Keyed table) (afiSafi : AfiSafi) :
    FamilyDiff ctx delta locRib table afiSafi (exportFamily ctx delta locRib table afiSafi) := by
  have diffed := exportKeys_diffed ctx locRib afiSafi (routeKeysFor ctx delta afiSafi) keyed
  exact ⟨diffed.gathered.announced, diffed.withdrawn⟩

theorem withdrawalsFor_congr (ctx : PeerExportContext) (locRib : LocRib Alloc) {before after : AdjRibOut}
    (same : FamilyTables.get after key = FamilyTables.get before key) :
    withdrawalsFor ctx locRib after key = withdrawalsFor ctx locRib before key := by
  rw [withdrawalsFor, withdrawalsFor, stalePaths_congr same]

theorem exportsFrom_diff (ctx : PeerExportContext) (delta : RouteDelta) (locRib : LocRib Alloc) (table : AdjRibOut)
    (families : List AfiSafi) (distinct : families.Nodup) (current : AdjRibOut) (keyed : AdjRibOut.Keyed current)
    (same : ∀ key, key.afiSafi ∈ families → FamilyTables.get current key = FamilyTables.get table key) :
    List.Forall₂ (FamilyDiff ctx delta locRib table) families (exportsFrom ctx delta locRib current families) := by
  induction families generalizing current with
  | nil => exact .nil
  | cons afiSafi rest ih =>
    obtain ⟨fresh, distinctRest⟩ := nodup_cons.mp distinct
    refine .cons ?_ (ih distinctRest _ (exportFamily_keyed ctx delta locRib keyed afiSafi) ?_)
    · obtain ⟨announced, withdrawn⟩ := exportFamily_diff ctx delta locRib keyed afiSafi
      refine ⟨announced, ?_⟩
      have keys : (familyKeys afiSafi (routeKeysFor ctx delta afiSafi)).flatMap (withdrawalsFor ctx locRib current) =
          (familyKeys afiSafi (routeKeysFor ctx delta afiSafi)).flatMap (withdrawalsFor ctx locRib table) := by
        refine flatMap_congr ?_
        intro key member
        have mine := (mem_familyKeys.mp member).2
        exact withdrawalsFor_congr ctx locRib (same key (mine ▸ mem_cons_self))
      rw [← keys]
      exact withdrawn
    · intro key later
      have other : key.afiSafi ≠ afiSafi := fun here => fresh (here ▸ later)
      rw [get_exportFamily_other ctx delta locRib keyed other]
      exact same key (mem_cons_of_mem _ later)

theorem propagateRoutesToPeer_diff (delta : RouteDelta) (locRib : LocRib Alloc)
    (keyed : AdjRibOut.Keyed table) (distinct : ctx.afiSafis.Nodup) :
    List.Forall₂ (FamilyDiff ctx delta locRib table) ctx.afiSafis (propagateRoutesToPeer ctx delta locRib table).2 := by
  rw [propagateRoutesToPeer_exports]
  exact exportsFrom_diff ctx delta locRib table ctx.afiSafis distinct table keyed fun _ _ => rfl

end

end Bgpgg.Peer
