import Bgpgg.Lib.AssocMap
import Bgpgg.Table.Trie

namespace Bgpgg.Table

open Net Lib

-- The map answers every lookup; the trie only answers subtree and covering queries.
-- A trie operation that panics leaves none behind, and the map goes on without it.
structure PrefixMap (width : Nat) (Value : Type) where
  map : AssocMap (IpNet width) Value
  trie : Option (PrefixTrie width Unit)

namespace PrefixMap

variable {width : Nat} {Value : Type}

variable (table : PrefixMap width Value) (keep : Value → Bool) (key other : IpNet width) (value : Value)

def new : PrefixMap width Value := ⟨∅, some .new⟩

def len (table : PrefixMap width Value) : Nat := AssocMap.size table.map

def get (table : PrefixMap width Value) (key : IpNet width) : Option Value := table.map.lookup key

def values (table : PrefixMap width Value) : List Value := AssocMap.values table.map

def trieInsert (trie : Option (PrefixTrie width Unit)) (key : IpNet width) : Option (PrefixTrie width Unit) :=
  trie.bind fun trie => (trie.insert key ()).map Prod.snd

def trieRemove (trie : Option (PrefixTrie width Unit)) (key : IpNet width) : Option (PrefixTrie width Unit) :=
  trie.bind fun trie => (trie.remove key).map Prod.snd

def write (table : PrefixMap width Value) (key : IpNet width) (value : Value) : PrefixMap width Value :=
  { table with map := table.map.insert key value }

def insert (table : PrefixMap width Value) (key : IpNet width) (value : Value) : PrefixMap width Value :=
  ⟨table.map.insert key value, trieInsert table.trie key⟩

def getOrInsert (table : PrefixMap width Value) (key : IpNet width) (value : Value) : PrefixMap width Value :=
  match table.map.lookup key with
  | some _ => table
  | none => ⟨table.map.insert key value, trieInsert table.trie key⟩

def remove (table : PrefixMap width Value) (key : IpNet width) : PrefixMap width Value := match table.map.lookup key with
  | none => table
  | some _ => ⟨table.map.erase key, trieRemove table.trie key⟩

def mapValues (table : PrefixMap width Value) (change : Value → Value) : PrefixMap width Value :=
  { table with map := AssocMap.filterMapValues (fun _ value => some (change value)) table.map }

def retain (table : PrefixMap width Value) (keep : Value → Bool) : PrefixMap width Value :=
  { map := AssocMap.filterMapValues (fun _ value => if keep value then some value else none) table.map
    trie := (table.map.entries.filter fun entry => !keep entry.2).foldl (fun trie entry => trieRemove trie entry.1) table.trie }

-- retain with a closure that looks at the key and may change the value it keeps.
def retainEach (table : PrefixMap width Value) (visit : IpNet width → Value → Option Value) : PrefixMap width Value :=
  { map := AssocMap.filterMapValues visit table.map
    trie := (table.map.entries.filter fun entry => (visit entry.1 entry.2).isNone).foldl
      (fun trie entry => trieRemove trie entry.1) table.trie }

theorem retain_eq : table.retain keep = table.retainEach fun _ value => if keep value then some value else none := by
  have dropped : (fun entry : Sigma fun _ : IpNet width => Value => !keep entry.2) =
      fun entry => (if keep entry.2 then some entry.2 else none).isNone := by
    funext entry
    cases keep entry.2 <;> rfl
  rw [retain, retainEach, dropped]

def subtree (table : PrefixMap width Value) (key : IpNet width) : List (IpNet width) :=
  ((table.trie.bind fun trie => trie.subtree key).getD []).map Prod.fst

@[simp] theorem get_new (key : IpNet width) : (new : PrefixMap width Value).get key = none := rfl

@[simp] theorem get_write : (table.write key value).get other = if other = key then some value else table.get other :=
  AssocMap.lookup_insert_if table.map key other value

@[simp] theorem get_insert : (table.insert key value).get other = if other = key then some value else table.get other :=
  AssocMap.lookup_insert_if table.map key other value

@[simp] theorem get_getOrInsert : (table.getOrInsert key value).get other =
      if other = key then some ((table.get key).getD value) else table.get other := by
  cases found : table.map.lookup key with
  | none =>
    simp only [getOrInsert, get, found]
    exact AssocMap.lookup_insert_if table.map key other value
  | some stored =>
    simp only [getOrInsert, get, found, Option.getD_some]
    by_cases same : other = key
    · rw [if_pos same, same, found]
    · rw [if_neg same]

@[simp] theorem get_remove : (table.remove key).get other = if other = key then none else table.get other := by
  cases found : table.map.lookup key with
  | none =>
    simp only [remove, get, found]
    by_cases same : other = key
    · rw [if_pos same, same, found]
    · rw [if_neg same]
  | some stored =>
    simp only [remove, found]
    exact AssocMap.lookup_erase_if table.map key other

@[simp] theorem get_mapValues (change : Value → Value) (key : IpNet width) :
    (table.mapValues change).get key = (table.get key).map change := by
  simp only [get, mapValues, AssocMap.lookup_filterMapValues]
  cases table.map.lookup key <;> rfl

@[simp] theorem get_retainEach (visit : IpNet width → Value → Option Value) (key : IpNet width) :
    (table.retainEach visit).get key = (table.get key).bind (visit key) :=
  AssocMap.lookup_filterMapValues visit table.map key

@[simp] theorem get_retain (key : IpNet width) : (table.retain keep).get key = (table.get key).filter keep := by
  rw [retain_eq, get_retainEach]
  cases table.get key <;> rfl

theorem mem_values_iff : value ∈ table.values ↔ ∃ key, table.get key = some value := AssocMap.mem_values_iff table.map value

end PrefixMap

end Bgpgg.Table
