import Mathlib.Data.List.Infix
import Mathlib.Data.List.Nodup

namespace Bgpgg.Lib

open List

-- Keys that are bit strings: each is known by its bits and can be cut to its first bits.
class BitKey (Key : Type) where
  bits : Key → List Bool
  cut : Key → Nat → Key
  injective : Function.Injective bits
  bits_cut : ∀ key len, len ≤ (bits key).length → bits (cut key len) = (bits key).take len

export BitKey (bits cut)

section

variable {stem first second : List Bool} {side : Bool}

def commonLen : List Bool → List Bool → Nat
  | first :: firsts, second :: seconds => if first = second then commonLen firsts seconds + 1 else 0
  | _, _ => 0

theorem commonLen_le (first second : List Bool) : commonLen first second ≤ first.length ∧ commonLen first second ≤ second.length := by
  induction first generalizing second with
  | nil => cases second <;> simp [commonLen]
  | cons head rest ih =>
    cases second with
    | nil => simp [commonLen]
    | cons other others =>
      have below := ih others
      rw [commonLen]
      split <;> simp only [length_cons] <;> omega

theorem take_commonLen (first second : List Bool) : first.take (commonLen first second) = second.take (commonLen first second) := by
  induction first generalizing second with
  | nil => cases second <;> simp [commonLen]
  | cons head rest ih =>
    cases second with
    | nil => simp [commonLen]
    | cons other others =>
      rw [commonLen]
      split
      · rename_i same
        rw [take_succ_cons, take_succ_cons, ih others, same]
      · rfl

theorem commonLen_differs (first second : List Bool) (inFirst : commonLen first second < first.length)
    (inSecond : commonLen first second < second.length) :
    first.getD (commonLen first second) false = !second.getD (commonLen first second) false := by
  induction first generalizing second with
  | nil => simp at inFirst
  | cons head rest ih =>
    cases second with
    | nil => simp at inSecond
    | cons other others =>
      rw [commonLen] at inFirst inSecond ⊢
      by_cases same : head = other
      · rw [if_pos same] at inFirst inSecond ⊢
        simp only [length_cons, Nat.add_lt_add_iff_right] at inFirst inSecond
        simpa using ih others inFirst inSecond
      · cases head <;> cases other <;> simp_all

theorem commonLen_of_stem (inFirst : stem <+: first) (inSecond : stem <+: second) : stem.length ≤ commonLen first second := by
  induction stem generalizing first second with
  | nil => exact Nat.zero_le _
  | cons head rest ih =>
    obtain ⟨firstTail, rfl⟩ := inFirst
    obtain ⟨secondTail, rfl⟩ := inSecond
    have longer := ih (prefix_append rest firstTail) (prefix_append rest secondTail)
    simpa [commonLen] using longer

theorem commonLen_eq_right_iff : commonLen first second = second.length ↔ second <+: first := by
  constructor
  · intro whole
    have agree := take_commonLen first second
    rw [whole, take_length] at agree
    exact agree ▸ take_prefix _ first
  · intro starts
    have longer := commonLen_of_stem starts (prefix_refl second)
    have bound := (commonLen_le first second).2
    omega

theorem commonLen_eq_left_iff : commonLen first second = first.length ↔ first <+: second := by
  constructor
  · intro whole
    have agree := take_commonLen first second
    rw [whole, take_length] at agree
    exact agree ▸ take_prefix _ second
  · intro starts
    have longer := commonLen_of_stem (prefix_refl first) starts
    have bound := (commonLen_le first second).1
    omega

theorem commonLen_unique {len : Nat} (inside : len ≤ first.length) (inSecond : len ≤ second.length)
    (agree : first.take len = second.take len)
    (differs : len < first.length → len < second.length → first.getD len false ≠ second.getD len false) :
    commonLen first second = len := by
  have reached : len ≤ commonLen first second := by
    have inFirst := take_prefix len first
    have longer := commonLen_of_stem inFirst (agree ▸ take_prefix len second)
    rwa [length_take, Nat.min_eq_left inside] at longer
  have bounds := commonLen_le first second
  by_contra further
  have past : len < commonLen first second := by omega
  refine differs (by omega) (by omega) ?_
  have same := congrArg (fun list => list.getD len false) (take_commonLen first second)
  simpa [past] using same

theorem snoc_starts_iff : stem ++ [side] <+: first ↔ stem <+: first ∧ stem.length < first.length ∧
    first.getD stem.length false = side := by
  constructor
  · rintro ⟨rest, rfl⟩
    refine ⟨⟨[side] ++ rest, by simp⟩, by simp, by simp⟩
  · rintro ⟨⟨rest, rfl⟩, longer, bit⟩
    cases rest with
    | nil => simp at longer
    | cons head tail =>
      have same : head = side := by simpa using bit
      exact ⟨tail, by simp [same]⟩

theorem snoc_apart (left : stem ++ [false] <+: first) (right : stem ++ [true] <+: first) : False := by
  have zero := (snoc_starts_iff.mp left).2.2
  have one := (snoc_starts_iff.mp right).2.2
  exact Bool.false_ne_true (zero.symm.trans one)

theorem snoc_longer (longer : stem ++ [side] <+: first) : first ≠ stem := by
  intro same
  have lengths := (snoc_starts_iff.mp longer).2.1
  rw [same] at lengths
  exact Nat.lt_irrefl _ lengths

end

-- A path-compressed binary tree: a node stands for all keys that start with its own.
inductive PatriciaTree (Key Value : Type) where
  | nil
  | node (key : Key) (value : Option Value) (children : Bool → PatriciaTree Key Value)

namespace PatriciaTree

variable {Key Value : Type}

def entries : PatriciaTree Key Value → List (Key × Value)
  | nil => []
  | node key value children =>
    (value.map fun stored => (key, stored)).toList ++ ((children true).entries ++ (children false).entries)

theorem mem_own {own key : Key} {value : Value} {optional : Option Value} :
    (key, value) ∈ (optional.map fun stored => (own, stored)).toList ↔ key = own ∧ optional = some value := by
  rw [Option.mem_toList, Option.map_eq_some_iff]
  constructor
  · rintro ⟨stored, found, same⟩
    cases same
    exact ⟨rfl, found⟩
  · rintro ⟨rfl, found⟩
    exact ⟨value, found, rfl⟩

theorem mem_entries_node (own key : Key) (value : Value) (optional : Option Value) (children : Bool → PatriciaTree Key Value) :
    (key, value) ∈ (node own optional children).entries ↔
      key = own ∧ optional = some value ∨ ∃ side, (key, value) ∈ (children side).entries := by
  rw [entries, mem_append, mem_append, mem_own, Bool.exists_bool]
  exact or_congr_right or_comm

section

variable (own : Key) (optional : Option Value) (children : Bool → PatriciaTree Key Value)

theorem exists_side_update (side : Bool) (changed : PatriciaTree Key Value)
    (entry : Key × Value) : (∃ at_, entry ∈ (Function.update children side changed at_).entries) ↔
      entry ∈ changed.entries ∨ entry ∈ (children (!side)).entries := by
  cases side <;> simp [or_comm]

theorem length_entries_node (side : Bool) : (node own optional children).entries.length =
      optional.toList.length + ((children side).entries.length + (children (!side)).entries.length) := by
  cases optional <;> cases side <;> simp [entries] <;> omega

-- A node without a value and without two children gives way to what is below it.
def collapse (key : Key) (value : Option Value) (children : Bool → PatriciaTree Key Value) : PatriciaTree Key Value :=
  match value, children false, children true with
  | none, nil, only => only
  | none, only, nil => only
  | _, _, _ => node key value children

theorem collapse_cases : ((optional = none → ∀ side, children side ≠ nil) ∧ collapse own optional children = node own optional children) ∨
      ∃ side, optional = none ∧ children (!side) = nil ∧ collapse own optional children = children side := by
  unfold collapse
  split
  · rename_i zero
    exact .inr ⟨true, rfl, zero, rfl⟩
  · rename_i one _
    exact .inr ⟨false, rfl, one, rfl⟩
  · rename_i notZero notOne
    refine .inl ⟨?_, rfl⟩
    rintro rfl (_ | _) missing
    · exact notZero rfl missing
    · exact notOne rfl missing

theorem length_entries_collapse : (collapse own optional children).entries.length = (node own optional children).entries.length := by
  rcases collapse_cases own optional children with ⟨-, same⟩ | ⟨side, missing, empty, same⟩
  · rw [same]
  · rw [same, length_entries_node own optional children side, missing, empty]
    simp [entries]

end

theorem collapse_full {own : Key} {optional : Option Value} {children : Bool → PatriciaTree Key Value}
    (full : optional = none → ∀ side, children side ≠ nil) : collapse own optional children = node own optional children := by
  rcases collapse_cases own optional children with ⟨-, same⟩ | ⟨side, missing, empty, -⟩
  · exact same
  · exact absurd empty (full missing (!side))

variable [BitKey Key]

def nextBit (own key : Key) : Bool := (bits key).getD (bits own).length false

def get (key : Key) : PatriciaTree Key Value → Option Value
  | nil => none
  | node own value children =>
    if bits own <+: bits key then
      if (bits own).length = (bits key).length then value else (children (nextBit own key)).get key
    else none

def split (key : Key) (value : Value) (own : Key) (existing : PatriciaTree Key Value) : PatriciaTree Key Value :=
  let common := commonLen (bits key) (bits own)
  let side := (bits own).getD common false
  if common = (bits key).length then
    node (cut own common) (some value) (Function.update (fun _ => nil) side existing)
  else
    node (cut own common) none (Function.update (fun _ => node key (some value) fun _ => nil) side existing)

def insert (key : Key) (value : Value) : PatriciaTree Key Value → PatriciaTree Key Value
  | nil => node key (some value) fun _ => nil
  | node own stored children =>
    if bits own <+: bits key then
      if (bits own).length = (bits key).length then node own (some value) children
      else node own stored (Function.update children (nextBit own key) ((children (nextBit own key)).insert key value))
    else split key value own (node own stored children)

def remove (key : Key) : PatriciaTree Key Value → PatriciaTree Key Value
  | nil => nil
  | node own value children =>
    if bits own <+: bits key then
      if (bits own).length = (bits key).length then collapse own none children
      else collapse own value (Function.update children (nextBit own key) ((children (nextBit own key)).remove key))
    else node own value children

def subtree (key : Key) : PatriciaTree Key Value → PatriciaTree Key Value
  | nil => nil
  | node own value children =>
    if bits key <+: bits own then node own value children
    else if bits own <+: bits key then (children (nextBit own key)).subtree key
    else nil

def covering (key : Key) : PatriciaTree Key Value → List (Key × Value)
  | nil => []
  | node own value children =>
    if bits own <+: bits key then
      (value.map fun stored => (own, stored)).toList ++
        if (bits own).length = (bits key).length then [] else (children (nextBit own key)).covering key
    else []

-- Keys lie below the bits that lead to them, and a node without a value branches.
def Under (stem : List Bool) : PatriciaTree Key Value → Prop
  | nil => True
  | node key value children =>
    stem <+: bits key ∧ (value = none → ∀ side, children side ≠ nil) ∧ ∀ side, (children side).Under (bits key ++ [side])

section

variable {stem : List Bool} {tree : PatriciaTree Key Value} {key other : Key} {value stored : Value}

theorem Under.shorter {shorter : List Bool} (starts : shorter <+: stem) (under : tree.Under stem) : tree.Under shorter := by
  cases tree with
  | nil => trivial
  | node own stored children => exact ⟨starts.trans under.1, under.2⟩

theorem Under.starts (under : tree.Under stem) (member : (key, value) ∈ tree.entries) : stem <+: bits key := by
  induction tree generalizing stem with
  | nil => cases member
  | node own optional children ih =>
    rcases (mem_entries_node own key value optional children).mp member with ⟨rfl, -⟩ | ⟨side, inside⟩
    · exact under.1
    · exact (under.1.trans (prefix_append _ [side])).trans (ih side (under.2.2 side) inside)

theorem Under.above {own : Key} {optional : Option Value} {children : Bool → PatriciaTree Key Value}
    (under : (node own optional children).Under stem) (member : (key, value) ∈ (node own optional children).entries) :
    bits own <+: bits key :=
  have whole : (node own optional children).Under (bits own) := ⟨prefix_refl _, under.2⟩
  whole.starts member

theorem under_update {children : Bool → PatriciaTree Key Value} {side : Bool} {changed : PatriciaTree Key Value}
    (inside : ∀ side, (children side).Under (stem ++ [side])) (at_ : changed.Under (stem ++ [side])) :
    ∀ side_, (Function.update children side changed side_).Under (stem ++ [side_]) :=
  (Function.forall_update_iff _ fun side child => Under (stem ++ [side]) child).mpr ⟨at_, fun side _ => inside side⟩

theorem bits_eq (starts : bits other <+: bits key) (lengths : (bits other).length = (bits key).length) : other = key :=
  BitKey.injective (starts.eq_of_length lengths)

theorem nextBit_starts (starts : bits other <+: bits key) (longer : (bits other).length ≠ (bits key).length) :
    bits other ++ [nextBit other key] <+: bits key :=
  snoc_starts_iff.mpr ⟨starts, lt_of_le_of_ne starts.length_le longer, rfl⟩

theorem side_eq_nextBit {side : Bool} (inside : bits other ++ [side] <+: bits key) : side = nextBit other key :=
  (snoc_starts_iff.mp inside).2.2.symm

theorem Under.child {own : Key} {optional : Option Value} {children : Bool → PatriciaTree Key Value}
    (under : (node own optional children).Under stem) {side : Bool} (member : (key, value) ∈ (children side).entries) :
    bits own ++ [side] <+: bits key := (under.2.2 side).starts member

theorem get_eq_some_iff (under : tree.Under stem) : tree.get key = some value ↔ (key, value) ∈ tree.entries := by
  induction tree generalizing stem with
  | nil => simp [get, entries]
  | node own optional children ih =>
    rw [get]
    by_cases starts : bits own <+: bits key
    · rw [if_pos starts, mem_entries_node]
      by_cases lengths : (bits own).length = (bits key).length
      · rw [if_pos lengths]
        have same := bits_eq starts lengths
        constructor
        · exact fun found => .inl ⟨same.symm, found⟩
        · rintro (⟨-, found⟩ | ⟨side, inside⟩)
          · exact found
          · exact absurd (congrArg bits same.symm) (snoc_longer (under.child inside))
      · rw [if_neg lengths, ih _ (under.2.2 _)]
        constructor
        · exact fun inside => .inr ⟨_, inside⟩
        · rintro (⟨rfl, -⟩ | ⟨side, inside⟩)
          · exact absurd rfl lengths
          · exact side_eq_nextBit (under.child inside) ▸ inside
    · rw [if_neg starts]
      exact ⟨nofun, fun member => absurd (under.above member) starts⟩

theorem get_eq_none_iff (under : tree.Under stem) : tree.get key = none ↔ ∀ value, (key, value) ∉ tree.entries := by
  rw [Option.eq_none_iff_forall_ne_some]
  exact forall_congr' fun value => not_congr (get_eq_some_iff under)

theorem entries_nodup (under : tree.Under stem) : (tree.entries.map Prod.fst).Nodup := by
  induction tree generalizing stem with
  | nil => exact nodup_nil
  | node own optional children ih =>
    have below : ∀ side key, key ∈ (children side).entries.map Prod.fst → bits own ++ [side] <+: bits key := by
      intro side key member
      obtain ⟨entry, inside, rfl⟩ := mem_map.mp member
      exact under.child inside
    have sides : (((children true).entries ++ (children false).entries).map Prod.fst).Nodup := by
      rw [map_append, nodup_append]
      refine ⟨ih true (under.2.2 true), ih false (under.2.2 false), ?_⟩
      rintro key one other zero rfl
      exact snoc_apart (below false key zero) (below true key one)
    rw [entries, map_append, nodup_append]
    refine ⟨?_, sides, ?_⟩
    · cases optional <;> simp
    · rintro key here other deeper rfl
      have same : key = own := by
        cases optional with
        | none => simp at here
        | some stored => simpa using here
      rw [map_append, mem_append] at deeper
      rcases deeper with one | zero
      · exact snoc_longer (below true key one) (congrArg bits same)
      · exact snoc_longer (below false key zero) (congrArg bits same)

end

section

variable {stem : List Bool} {tree : PatriciaTree Key Value} {key other : Key} {value stored : Value}

theorem split_cut (own : Key) : bits (cut own (commonLen (bits key) (bits own))) = (bits own).take (commonLen (bits key) (bits own)) :=
  BitKey.bits_cut own _ (commonLen_le (bits key) (bits own)).2

section

variable {own : Key}

theorem stem_starts_split (inKey : stem <+: bits key) (inOwn : stem <+: bits own) :
    stem <+: bits (cut own (commonLen (bits key) (bits own))) := by
  rw [split_cut]
  have cutOff := take_prefix (commonLen (bits key) (bits own)) (bits own)
  refine prefix_of_prefix_length_le inOwn cutOff ?_
  rw [length_take]
  have common := commonLen_of_stem inKey inOwn
  have bound := (commonLen_le (bits key) (bits own)).2
  omega

theorem split_side_starts (apart : ¬ bits own <+: bits key) :
    bits (cut own (commonLen (bits key) (bits own))) ++ [(bits own).getD (commonLen (bits key) (bits own)) false] <+: bits own := by
  have bound := (commonLen_le (bits key) (bits own)).2
  have shorter : commonLen (bits key) (bits own) ≠ (bits own).length := fun whole =>
    apart (commonLen_eq_right_iff.mp whole)
  rw [split_cut, snoc_starts_iff, length_take, Nat.min_eq_left bound]
  refine ⟨?_, by omega, rfl⟩
  exact take_prefix _ _

theorem split_other_starts (apart : ¬ bits own <+: bits key) (longer : commonLen (bits key) (bits own) ≠ (bits key).length) :
    bits (cut own (commonLen (bits key) (bits own))) ++ [!(bits own).getD (commonLen (bits key) (bits own)) false] <+: bits key := by
  have bounds := commonLen_le (bits key) (bits own)
  have shorter : commonLen (bits key) (bits own) ≠ (bits own).length := fun whole =>
    apart (commonLen_eq_right_iff.mp whole)
  have differs := commonLen_differs (bits key) (bits own) (by omega) (by omega)
  rw [split_cut, ← take_commonLen, snoc_starts_iff, length_take, Nat.min_eq_left bounds.1]
  refine ⟨?_, by omega, differs⟩
  exact take_prefix _ _

theorem split_key (ends : commonLen (bits key) (bits own) = (bits key).length) : cut own (commonLen (bits key) (bits own)) = key := by
  refine BitKey.injective ?_
  rw [split_cut, ← take_commonLen, ends, take_length]

theorem split_under {optional : Option Value} {children : Bool → PatriciaTree Key Value}
    (under : (node own optional children).Under stem) (inKey : stem <+: bits key) (apart : ¬ bits own <+: bits key) :
    (split key value own (node own optional children)).Under stem := by
  have moved : (node own optional children).Under (bits (cut own (commonLen (bits key) (bits own))) ++
      [(bits own).getD (commonLen (bits key) (bits own)) false]) := ⟨split_side_starts apart, under.2⟩
  rw [split]
  by_cases ends : commonLen (bits key) (bits own) = (bits key).length
  · rw [if_pos ends]
    exact ⟨stem_starts_split inKey under.1, nofun, under_update (fun _ => trivial) moved⟩
  · rw [if_neg ends]
    refine ⟨stem_starts_split inKey under.1, fun _ => ?_, ?_⟩
    · refine (Function.forall_update_iff _ fun _ child => child ≠ nil).mpr ⟨nofun, ?_⟩
      exact fun _ _ => nofun
    · refine (Function.forall_update_iff _ fun side child => Under (_ ++ [side]) child).mpr ⟨moved, ?_⟩
      intro side different
      rw [Bool.eq_not_of_ne different]
      exact ⟨split_other_starts apart ends, nofun, fun _ => trivial⟩

theorem mem_entries_split {existing : PatriciaTree Key Value} : (other, stored) ∈ (split key value own existing).entries ↔
      other = key ∧ stored = value ∨ (other, stored) ∈ existing.entries := by
  rw [split]
  by_cases ends : commonLen (bits key) (bits own) = (bits key).length
  · rw [if_pos ends, mem_entries_node, exists_side_update, split_key ends]
    simp [entries, eq_comm]
  · rw [if_neg ends, mem_entries_node, exists_side_update]
    simp [entries, or_comm]

end

theorem insert_ne_nil (tree : PatriciaTree Key Value) : tree.insert key value ≠ nil := by
  cases tree with
  | nil => nofun
  | node own optional children =>
    rw [insert, split]
    split <;> split <;> nofun

theorem insert_under (under : tree.Under stem) (inKey : stem <+: bits key) : (tree.insert key value).Under stem := by
  induction tree generalizing stem with
  | nil => exact ⟨inKey, nofun, fun _ => trivial⟩
  | node own optional children ih =>
    rw [insert]
    by_cases starts : bits own <+: bits key
    · rw [if_pos starts]
      by_cases lengths : (bits own).length = (bits key).length
      · rw [if_pos lengths]
        exact ⟨under.1, nofun, under.2.2⟩
      · rw [if_neg lengths]
        have deeper := ih (nextBit own key) (under.2.2 _) (nextBit_starts starts lengths)
        refine ⟨under.1, fun missing => ?_, ?_⟩
        · refine (Function.forall_update_iff _ fun _ child => child ≠ nil).mpr ⟨insert_ne_nil _, ?_⟩
          exact fun side _ => under.2.1 missing side
        · exact under_update under.2.2 deeper
    · rw [if_neg starts]
      exact split_under under inKey starts

theorem length_entries_insert (key : Key) (value : Value) (tree : PatriciaTree Key Value) :
    (tree.insert key value).entries.length = tree.entries.length + if (tree.get key).isNone then 1 else 0 := by
  induction tree with
  | nil => rfl
  | node own optional children ih =>
    rw [insert, get]
    by_cases starts : bits own <+: bits key
    · rw [if_pos starts, if_pos starts]
      by_cases lengths : (bits own).length = (bits key).length
      · rw [if_pos lengths, if_pos lengths, length_entries_node _ _ _ false, length_entries_node _ _ _ false]
        cases optional <;> simp
        omega
      · rw [if_neg lengths, if_neg lengths, length_entries_node _ _ _ (nextBit own key),
          length_entries_node own optional children (nextBit own key), Function.update_self, Function.update_of_ne (by simp),
          ih (nextBit own key)]
        omega
    · rw [if_neg starts, split]
      split <;> rw [length_entries_node _ _ _ ((bits own).getD (commonLen (bits key) (bits own)) false),
        Function.update_self] <;> simp [entries]
      omega

variable [DecidableEq Key]

variable {children : Bool → PatriciaTree Key Value} {own : Key}

theorem get_update (optional : Option Value)
    {changed : PatriciaTree Key Value} (starts : bits own <+: bits key) (longer : (bits own).length ≠ (bits key).length)
    {given : Option Value} (at_ : changed.get other = if other = key then given else (children (nextBit own key)).get other) :
    (node own optional (Function.update children (nextBit own key) changed)).get other =
      if other = key then given else (node own optional children).get other := by
  by_cases same : other = key
  · subst same
    rw [get, if_pos starts, if_neg longer, Function.update_self, at_, if_pos rfl, if_pos rfl]
  · rw [if_neg same, get, get]
    by_cases here : nextBit own other = nextBit own key
    · rw [here, Function.update_self, at_, if_neg same]
    · rw [Function.update_of_ne here]

theorem get_value (given optional : Option Value) :
    (node own given children).get other = if other = own then given else (node own optional children).get other := by
  rw [get, get]
  by_cases same : other = own
  · simp [same]
  · split
    · rename_i deeper
      rw [if_neg fun equal => same (bits_eq deeper equal).symm, if_neg fun equal => same (bits_eq deeper equal).symm]
    · rfl

theorem get_split {optional : Option Value}
    (under : (node own optional children).Under stem) (inKey : stem <+: bits key) (apart : ¬ bits own <+: bits key) :
    (split key value own (node own optional children)).get other =
      if other = key then some value else (node own optional children).get other := by
  have absent : (node own optional children).get key = none := by rw [get, if_neg apart]
  apply Option.ext
  intro stored
  rw [get_eq_some_iff (split_under under inKey apart), mem_entries_split, ← get_eq_some_iff under]
  by_cases same : other = key
  · rw [same, absent]
    simp [eq_comm]
  · simp [same]

theorem get_insert (under : tree.Under stem) (inKey : stem <+: bits key) :
    (tree.insert key value).get other = if other = key then some value else tree.get other := by
  induction tree generalizing stem with
  | nil =>
    rw [insert, get_value _ none]
    simp [get]
  | node own optional children ih =>
    rw [insert]
    by_cases starts : bits own <+: bits key
    · rw [if_pos starts]
      by_cases lengths : (bits own).length = (bits key).length
      · obtain rfl := bits_eq starts lengths
        rw [if_pos lengths]
        exact get_value _ optional
      · rw [if_neg lengths]
        exact get_update optional starts lengths (ih _ (under.2.2 _) (nextBit_starts starts lengths))
    · rw [if_neg starts]
      exact get_split under inKey starts

end

section

variable {stem : List Bool} {tree : PatriciaTree Key Value} {key other : Key} {value : Value}

variable {own : Key} {optional : Option Value} {children : Bool → PatriciaTree Key Value}

theorem collapse_under (starts : stem <+: bits own) (inside : ∀ side, (children side).Under (bits own ++ [side])) :
    (collapse own optional children).Under stem := by
  rcases collapse_cases own optional children with ⟨full, same⟩ | ⟨side, -, -, same⟩
  · rw [same]
    exact ⟨starts, full, inside⟩
  · rw [same]
    exact (inside side).shorter (starts.trans (prefix_append _ [side]))

theorem get_outside (under : tree.Under stem) (outside : ¬ stem <+: bits key) : tree.get key = none :=
  (get_eq_none_iff under).mpr fun _ member => outside (under.starts member)

theorem get_collapse (inside : ∀ side, (children side).Under (bits own ++ [side])) :
    (collapse own optional children).get key = (node own optional children).get key := by
  rcases collapse_cases own optional children with ⟨-, same⟩ | ⟨side, rfl, empty, same⟩
  · rw [same]
  · rw [same, get]
    by_cases starts : bits own ++ [side] <+: bits key
    · obtain ⟨shorter, longer, bit⟩ := snoc_starts_iff.mp starts
      rw [if_pos shorter, if_neg (Nat.ne_of_lt longer), nextBit, bit]
    · rw [get_outside (inside side) starts]
      split
      · rename_i shorter
        split
        · rfl
        · rename_i longer
          have other : nextBit own key = !side := by
            refine Bool.eq_not_of_ne fun bit => starts ?_
            exact bit ▸ nextBit_starts shorter longer
          rw [other, empty]
          rfl
      · rfl

theorem remove_under (under : tree.Under stem) : (tree.remove key).Under stem := by
  induction tree generalizing stem with
  | nil => trivial
  | node own optional children ih =>
    rw [remove]
    split
    · split
      · exact collapse_under under.1 under.2.2
      · exact collapse_under under.1 (under_update under.2.2 (ih _ (under.2.2 _)))
    · exact under

theorem remove_absent (under : tree.Under stem) (absent : tree.get key = none) : tree.remove key = tree := by
  induction tree generalizing stem with
  | nil => rfl
  | node own optional children ih =>
    rw [remove]
    rw [get] at absent
    by_cases starts : bits own <+: bits key
    · rw [if_pos starts] at absent ⊢
      by_cases lengths : (bits own).length = (bits key).length
      · rw [if_pos lengths] at absent ⊢
        subst absent
        exact collapse_full under.2.1
      · rw [if_neg lengths] at absent ⊢
        rw [ih _ (under.2.2 _) absent, Function.update_eq_self]
        exact collapse_full under.2.1
    · rw [if_neg starts]

theorem length_entries_remove (key : Key) (tree : PatriciaTree Key Value) :
    (tree.remove key).entries.length + (tree.get key).toList.length = tree.entries.length := by
  induction tree with
  | nil => rfl
  | node own optional children ih =>
    rw [remove, get]
    by_cases starts : bits own <+: bits key
    · rw [if_pos starts, if_pos starts]
      by_cases lengths : (bits own).length = (bits key).length
      · rw [if_pos lengths, if_pos lengths, length_entries_collapse, length_entries_node _ _ _ false, length_entries_node _ _ _ false]
        simp only [Option.toList_none, length_nil]
        omega
      · rw [if_neg lengths, if_neg lengths, length_entries_collapse, length_entries_node _ _ _ (nextBit own key),
          length_entries_node own optional children (nextBit own key), Function.update_self, Function.update_of_ne (by simp),
          ← ih (nextBit own key)]
        omega
    · rw [if_neg starts, if_neg starts]
      rfl

theorem get_remove [DecidableEq Key] (under : tree.Under stem) :
    (tree.remove key).get other = if other = key then none else tree.get other := by
  induction tree generalizing stem with
  | nil => simp [remove, get]
  | node own optional children ih =>
    rw [remove]
    by_cases starts : bits own <+: bits key
    · rw [if_pos starts]
      by_cases lengths : (bits own).length = (bits key).length
      · obtain rfl := bits_eq starts lengths
        rw [if_pos lengths, get_collapse under.2.2]
        exact get_value _ optional
      · rw [if_neg lengths, get_collapse]
        · exact get_update optional starts lengths (ih _ (under.2.2 _))
        · exact under_update under.2.2 (remove_under (under.2.2 _))
    · rw [if_neg starts]
      by_cases same : other = key
      · rw [if_pos same, same, get, if_neg starts]
      · rw [if_neg same]

end

section

variable {stem : List Bool} {tree : PatriciaTree Key Value} {key other : Key} {value : Value}

section

variable (under : tree.Under stem)

include under

theorem subtree_under : (tree.subtree key).Under stem := by
  induction tree generalizing stem with
  | nil => trivial
  | node own optional children ih =>
    rw [subtree]
    split
    · exact under
    · split
      · exact (ih _ (under.2.2 _)).shorter (under.1.trans (prefix_append _ _))
      · trivial

theorem mem_entries_subtree : (other, value) ∈ (tree.subtree key).entries ↔ (other, value) ∈ tree.entries ∧ bits key <+: bits other := by
  induction tree generalizing stem with
  | nil => simp [subtree, entries]
  | node own optional children ih =>
    rw [subtree]
    by_cases above : bits key <+: bits own
    · rw [if_pos above]
      exact ⟨fun member => ⟨member, above.trans (under.above member)⟩, And.left⟩
    · rw [if_neg above]
      by_cases inside : bits own <+: bits key
      · have longer : (bits own).length ≠ (bits key).length := fun lengths =>
          above (bits_eq inside lengths ▸ prefix_refl _)
        rw [if_pos inside, ih _ (under.2.2 _), mem_entries_node]
        constructor
        · exact fun found => ⟨.inr ⟨_, found.1⟩, found.2⟩
        · rintro ⟨⟨rfl, -⟩ | ⟨side, found⟩, reached⟩
          · exact absurd reached above
          · have next := (nextBit_starts inside longer).trans reached
            have same : side = nextBit own key := (side_eq_nextBit (under.child found)).trans (side_eq_nextBit next).symm
            exact ⟨same ▸ found, reached⟩
      · rw [if_neg inside]
        refine ⟨nofun, fun found => ?_⟩
        cases prefix_or_prefix_of_prefix (under.above found.1) found.2 with
        | inl deeper => exact absurd deeper inside
        | inr upper => exact absurd upper above

theorem mem_covering : (other, value) ∈ tree.covering key ↔ (other, value) ∈ tree.entries ∧ bits other <+: bits key := by
  induction tree generalizing stem with
  | nil => simp [covering, entries]
  | node own optional children ih =>
    rw [covering]
    by_cases starts : bits own <+: bits key
    · rw [if_pos starts, mem_append, mem_own, mem_entries_node]
      by_cases lengths : (bits own).length = (bits key).length
      · rw [if_pos lengths]
        constructor
        · rintro (⟨rfl, found⟩ | nothing)
          · exact ⟨.inl ⟨rfl, found⟩, starts⟩
          · cases nothing
        · rintro ⟨found | ⟨side, inside⟩, covers⟩
          · exact .inl found
          · have longer := (snoc_starts_iff.mp (under.child inside)).2.1
            have bound := covers.length_le
            omega
      · rw [if_neg lengths, ih _ (under.2.2 _)]
        constructor
        · rintro (⟨rfl, found⟩ | ⟨inside, covers⟩)
          · exact ⟨.inl ⟨rfl, found⟩, starts⟩
          · exact ⟨.inr ⟨_, inside⟩, covers⟩
        · rintro ⟨found | ⟨side, inside⟩, covers⟩
          · exact .inl found
          · have same := side_eq_nextBit ((under.child inside).trans covers)
            exact .inr ⟨same ▸ inside, covers⟩
    · rw [if_neg starts]
      exact ⟨nofun, fun found => absurd ((under.above found.1).trans found.2) starts⟩

theorem covering_lengths : (tree.covering key).Pairwise fun first second => (bits first.1).length < (bits second.1).length := by
  induction tree generalizing stem with
  | nil => exact .nil
  | node own optional children ih =>
    rw [covering]
    split
    · rw [pairwise_append]
      refine ⟨?_, ?_, ?_⟩
      · cases optional <;> simp
      · split
        · exact .nil
        · exact ih _ (under.2.2 _)
      · rintro ⟨first, firstValue⟩ here ⟨second, secondValue⟩ later
        obtain ⟨rfl, -⟩ := mem_own.mp here
        split at later
        · cases later
        · have inside := ((mem_covering (under.2.2 _)).mp later).1
          exact (snoc_starts_iff.mp (under.child inside)).2.1
    · exact .nil

end

end

def size : PatriciaTree Key Value → Nat
  | nil => 0
  | node _ _ children => (children false).size + (children true).size + 1

theorem size_le {stem : List Bool} {tree : PatriciaTree Key Value} (under : tree.Under stem) :
    tree.size ≤ 2 * tree.entries.length ∧ (tree ≠ nil → tree.size + 1 ≤ 2 * tree.entries.length) := by
  induction tree generalizing stem with
  | nil => simp [size]
  | node own optional children ih =>
    have zero := ih false (under.2.2 false)
    have one := ih true (under.2.2 true)
    have whole : (node own optional children).size + 1 ≤ 2 * (node own optional children).entries.length := by
      simp only [size, entries, length_append]
      cases optional with
      | none =>
        have full := under.2.1 rfl
        have left := zero.2 (full false)
        have right := one.2 (full true)
        omega
      | some stored =>
        simp only [Option.map_some, Option.toList_some, length_singleton]
        omega
    exact ⟨by omega, fun _ => whole⟩

end PatriciaTree

end Bgpgg.Lib
