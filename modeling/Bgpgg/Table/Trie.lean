import Bgpgg.Net.Network

namespace Bgpgg.Table

open Net

variable {width : Nat} {Value : Type}

def leadingZeros (bits : BitVec width) : Nat := (List.range width).findIdx fun pos => bits.getMsbD pos

-- The subtraction width - 1 - pos underflows past the address width, which is none.
def bitAt (net : IpNet width) (pos : Nat) : Option Bool := if pos < width then some (net.address.getMsbD pos) else none

def commonPrefixLen (net other : IpNet width) : Nat :=
  min (min (leadingZeros (net.address ^^^ other.address)) net.prefixLength.toNat) other.prefixLength.toNat

def masked (net : IpNet width) (len : Nat) : IpNet width :=
  if len = 0 then ⟨0, 0⟩ else ⟨net.address &&& (BitVec.allOnes width <<< (width - len)), UInt8.ofNat len⟩

structure TrieNode (width : Nat) (Value : Type) where
  pfx : IpNet width
  value : Option Value
  zeroChild : Option Nat
  oneChild : Option Nat
deriving Repr

-- Nodes live in an arena and are named by their index. The head of freeList is the
-- end of the source's vector. None is an index out of bounds, an underflowing bit
-- position, or a walk longer than the arena: the walk of a cyclic structure.
structure PrefixTrie (width : Nat) (Value : Type) where
  nodes : List (TrieNode width Value)
  freeList : List Nat
  root : Option Nat
  len : Nat
deriving Repr

def TrieNode.child (node : TrieNode width Value) (side : Bool) : Option Nat := if side then node.oneChild else node.zeroChild

def TrieNode.setChild (node : TrieNode width Value) (side : Bool) (child : Option Nat) : TrieNode width Value :=
  if side then { node with oneChild := child } else { node with zeroChild := child }

namespace PrefixTrie

def new : PrefixTrie width Value := ⟨[], [], none, 0⟩

variable (trie : PrefixTrie width Value) (nodeIdx : Nat) (parent : Option Nat) (key : IpNet width)

def node (idx : Nat) : Option (TrieNode width Value) := trie.nodes[idx]?

def modifyNode (idx : Nat) (change : TrieNode width Value → TrieNode width Value) : Option (PrefixTrie width Value) :=
  (trie.node idx).map fun node => { trie with nodes := trie.nodes.set idx (change node) }

def allocNode (pfx : IpNet width) (value : Option Value) : Option (Nat × PrefixTrie width Value) := match trie.freeList with
  | idx :: rest =>
    ({ trie with freeList := rest }.modifyNode idx fun _ => ⟨pfx, value, none, none⟩).map fun trie => (idx, trie)
  | [] => some (trie.nodes.length, { trie with nodes := trie.nodes ++ [⟨pfx, value, none, none⟩] })

def freeNode (idx : Nat) : PrefixTrie width Value := { trie with freeList := idx :: trie.freeList }

def replaceChild (oldChild : Nat) (newChild : Option Nat) : Option (PrefixTrie width Value) := match parent with
  | some parentIdx =>
    trie.modifyNode parentIdx fun parentNode =>
      if parentNode.zeroChild = some oldChild then { parentNode with zeroChild := newChild }
      else { parentNode with oneChild := newChild }
  | none => some { trie with root := newChild }

def splitNode (value : Value) (common : Nat) : Option (PrefixTrie width Value) := do
  let existing ← trie.node nodeIdx
  let (branchIdx, trie) ← trie.allocNode (masked existing.pfx common) none
  let existingSide ← bitAt existing.pfx common
  let trie ← trie.modifyNode branchIdx fun branch => branch.setChild existingSide (some nodeIdx)
  if common = key.prefixLength.toNat then
    let trie ← trie.modifyNode branchIdx fun branch => { branch with value := some value }
    trie.replaceChild parent nodeIdx (some branchIdx)
  else
    let newSide ← bitAt key common
    let (newIdx, trie) ← trie.allocNode key (some value)
    let trie ← trie.modifyNode branchIdx fun branch => branch.setChild newSide (some newIdx)
    trie.replaceChild parent nodeIdx (some branchIdx)

def tryCollapse : Option (PrefixTrie width Value) := do
  let node ← trie.node nodeIdx
  if node.value.isSome then some trie
  else
    match node.zeroChild, node.oneChild with
    | some _, some _ => some trie
    | zero, one => return (← trie.replaceChild parent nodeIdx (zero.or one)).freeNode nodeIdx

def insertAt (fuel : Nat) (trie : PrefixTrie width Value) (nodeIdx : Nat) (parent : Option Nat)
    (key : IpNet width) (value : Value) : Option (Option Value × PrefixTrie width Value) :=
  match fuel with
  | 0 => none
  | fuel + 1 => do
    let node ← trie.node nodeIdx
    let common := commonPrefixLen key node.pfx
    if common < node.pfx.prefixLength.toNat then
      let trie ← trie.splitNode nodeIdx parent key value common
      return (none, { trie with len := trie.len + 1 })
    else if node.pfx.prefixLength = key.prefixLength then
      let trie ← trie.modifyNode nodeIdx fun node => { node with value := some value }
      return (node.value, { trie with len := if node.value.isNone then trie.len + 1 else trie.len })
    else
      let next ← bitAt key node.pfx.prefixLength.toNat
      match node.child next with
      | some child => insertAt fuel trie child (some nodeIdx) key value
      | none =>
        let (newIdx, trie) ← trie.allocNode key (some value)
        let trie ← trie.modifyNode nodeIdx fun node => node.setChild next (some newIdx)
        return (none, { trie with len := trie.len + 1 })

def insert (value : Value) : Option (Option Value × PrefixTrie width Value) := match trie.root with
  | some root => trie.insertAt (trie.nodes.length + 1) root none key value
  | none => do
    let (idx, trie) ← trie.allocNode key (some value)
    return (none, { trie with root := some idx, len := trie.len + 1 })

def removeAt (fuel : Nat) (trie : PrefixTrie width Value) (nodeIdx : Nat) (parent : Option Nat)
    (key : IpNet width) : Option (Option Value × PrefixTrie width Value) :=
  match fuel with
  | 0 => none
  | fuel + 1 => do
    let node ← trie.node nodeIdx
    let common := commonPrefixLen key node.pfx
    if common < node.pfx.prefixLength.toNat then return (none, trie)
    else if node.pfx.prefixLength = key.prefixLength then
      match node.value with
      | none => return (none, trie)
      | some value =>
        let trie ← trie.modifyNode nodeIdx fun node => { node with value := none }
        let trie ← { trie with len := trie.len - 1 }.tryCollapse nodeIdx parent
        return (some value, trie)
    else
      let next ← bitAt key node.pfx.prefixLength.toNat
      match node.child next with
      | none => return (none, trie)
      | some child =>
        match ← removeAt fuel trie child (some nodeIdx) key with
        | (none, trie) => return (none, trie)
        | (some value, trie) => return (some value, ← trie.tryCollapse nodeIdx parent)

def remove : Option (Option Value × PrefixTrie width Value) := match trie.root with
  | some root => trie.removeAt (trie.nodes.length + 1) root none key
  | none => some (none, trie)

def collectAll (fuel : Nat) (trie : PrefixTrie width Value) (stack : List Nat) : Option (List (IpNet width × Value)) :=
  match fuel, stack with
  | _, [] => some []
  | 0, _ => none
  | fuel + 1, idx :: stack => do
    let node ← trie.node idx
    let rest ← collectAll fuel trie (node.oneChild.toList ++ node.zeroChild.toList ++ stack)
    return (node.value.map fun value => (node.pfx, value)).toList ++ rest

def iter : Option (List (IpNet width × Value)) := match trie.root with
  | some root => trie.collectAll (trie.nodes.length + 1) [root]
  | none => some []

def subtreeStart (fuel : Nat) (trie : PrefixTrie width Value) (current : Nat) (key : IpNet width) : Option (Option Nat) := match fuel with
  | 0 => none
  | fuel + 1 => do
    let node ← trie.node current
    let common := commonPrefixLen key node.pfx
    if common < node.pfx.prefixLength.toNat then
      return if key.prefixLength.toNat ≤ common then some current else none
    else if key.prefixLength ≤ node.pfx.prefixLength then return some current
    else
      let next ← bitAt key node.pfx.prefixLength.toNat
      match node.child next with
      | some child => subtreeStart fuel trie child key
      | none => return none

def subtree : Option (List (IpNet width × Value)) := match trie.root with
  | none => some []
  | some root => do
    match ← trie.subtreeStart (trie.nodes.length + 1) root key with
    | some start => trie.collectAll (trie.nodes.length + 1) [start]
    | none => return []

def coveringFrom (fuel : Nat) (trie : PrefixTrie width Value) (current : Nat) (key : IpNet width) :
    Option (List (IpNet width × Value)) :=
  match fuel with
  | 0 => none
  | fuel + 1 => do
    let node ← trie.node current
    if commonPrefixLen key node.pfx < node.pfx.prefixLength.toNat then return []
    else
      let found := (node.value.map fun value => (node.pfx, value)).toList
      if node.pfx.prefixLength = key.prefixLength then return found
      else
        let next ← bitAt key node.pfx.prefixLength.toNat
        match node.child next with
        | some child => return found ++ (← coveringFrom fuel trie child key)
        | none => return found

def covering : Option (List (IpNet width × Value)) := match trie.root with
  | none => some []
  | some root => trie.coveringFrom (trie.nodes.length + 1) root key

def findExact (fuel : Nat) (trie : PrefixTrie width Value) (current : Nat) (key : IpNet width) : Option (Option Nat) := match fuel with
  | 0 => none
  | fuel + 1 => do
    let node ← trie.node current
    if commonPrefixLen key node.pfx < node.pfx.prefixLength.toNat then return none
    else if node.pfx.prefixLength = key.prefixLength then return some current
    else
      let next ← bitAt key node.pfx.prefixLength.toNat
      match node.child next with
      | some child => findExact fuel trie child key
      | none => return none

def valueNode : Option (Option (Nat × Value)) := do
  match trie.root with
  | none => return none
  | some root =>
    match ← trie.findExact (trie.nodes.length + 1) root key with
    | none => return none
    | some idx => return (← trie.node idx).value.map fun value => (idx, value)

def get : Option (Option Value) := (trie.valueNode key).map fun found => found.map Prod.snd

def getMut (change : Value → Value) : Option (Option Value × PrefixTrie width Value) := do
  match ← trie.valueNode key with
  | none => return (none, trie)
  | some (idx, value) => return (some value, ← trie.modifyNode idx fun node => { node with value := some (change value) })

end PrefixTrie

end Bgpgg.Table
