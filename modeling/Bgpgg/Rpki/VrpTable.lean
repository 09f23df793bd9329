import Bgpgg.Rib.Path
import Bgpgg.Table.Trie

namespace Bgpgg.Rpki

open Net Rib Table

structure Vrp where
  pfx : IpNetwork
  maxLength : UInt8
  originAs : UInt32
deriving DecidableEq, Repr

def Vrp.covers (vrp : Vrp) (routePrefixLen : UInt8) (originAs : UInt32) : Bool :=
  routePrefixLen ≤ vrp.maxLength && vrp.originAs != 0 && originAs == vrp.originAs

structure VrpTable where
  ipv4 : Option (PrefixTrie 32 (List Vrp))
  ipv6 : Option (PrefixTrie 128 (List Vrp))

def VrpTable.new : VrpTable := ⟨some .new, some .new⟩

variable {width : Nat}

variable (trie : PrefixTrie width (List Vrp)) (key : IpNet width) (table : VrpTable) (vrp : Vrp)

def entryNode : Option (Option (Nat × List Vrp)) := do
  match trie.root with
  | none => return none
  | some root =>
    match ← trie.findExact (trie.nodes.length + 1) root key with
    | none => return none
    | some idx => return (← trie.node idx).value.map fun vrps => (idx, vrps)

def addEntry : Option (PrefixTrie width (List Vrp)) := do
  match ← entryNode trie key with
  | some (idx, vrps) =>
    if vrps.contains vrp then return trie
    else trie.modifyNode idx fun node => { node with value := some (vrps ++ [vrp]) }
  | none => return (← trie.insert key [vrp]).2

def removeEntry : Option (PrefixTrie width (List Vrp)) := do
  match ← entryNode trie key with
  | none => return trie
  | some (idx, vrps) =>
    let kept := vrps.filter fun existing => existing != vrp
    let trie ← trie.modifyNode idx fun node => { node with value := some kept }
    if kept.isEmpty then return (← trie.remove key).2 else return trie

def VrpTable.addOne : VrpTable := match vrp.pfx with
  | .v4 net => { table with ipv4 := table.ipv4.bind fun trie => addEntry trie net vrp }
  | .v6 net => { table with ipv6 := table.ipv6.bind fun trie => addEntry trie net vrp }

def VrpTable.removeOne : VrpTable := match vrp.pfx with
  | .v4 net => { table with ipv4 := table.ipv4.bind fun trie => removeEntry trie net vrp }
  | .v6 net => { table with ipv6 := table.ipv6.bind fun trie => removeEntry trie net vrp }

def VrpTable.add (vrps : List Vrp) : VrpTable := vrps.foldl VrpTable.addOne table

def VrpTable.remove (vrps : List Vrp) : VrpTable := vrps.foldl VrpTable.removeOne table

def VrpTable.coveringVrps (net : IpNetwork) : List Vrp := match net with
  | .v4 net => ((table.ipv4.bind fun trie => trie.covering net).getD []).flatMap Prod.snd
  | .v6 net => ((table.ipv6.bind fun trie => trie.covering net).getD []).flatMap Prod.snd

def VrpTable.validate (net : IpNetwork) (originAs : UInt32) : RpkiValidation := if originAs = 0 then .notFound
  else
    let covering := table.coveringVrps net
    if covering.isEmpty then .notFound
    else if covering.any fun vrp => vrp.covers net.prefixLen originAs then .valid
    else .invalid

end Bgpgg.Rpki
