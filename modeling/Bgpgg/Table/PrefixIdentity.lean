import Bgpgg.Table.PrefixMap
import Bgpgg.Table.TrieQueries
import Bgpgg.Wire.NlriCodec

namespace Bgpgg.Table

open Net Lib Wire List

section

variable {family : PrefixFamily} {addPath : Bool} {id first second : List UInt8} {prefixLength : UInt8}

def byteBit (bytes : List UInt8) (pos : Nat) : Bool := (bytes.getD (pos / 8) 0).toNat.testBit (7 - pos % 8)

theorem bytes_ext (lengths : first.length = second.length) (agree : ∀ pos, byteBit first pos = byteBit second pos) : first = second := by
  refine ext_getElem lengths fun idx inFirst inSecond => UInt8.toNat_inj.mp (Nat.eq_of_testBit_eq fun bit => ?_)
  by_cases small : bit < 8
  · have same := agree (8 * idx + (7 - bit))
    have here : (8 * idx + (7 - bit)) / 8 = idx := by omega
    have there : 7 - (8 * idx + (7 - bit)) % 8 = bit := by omega
    rw [byteBit, byteBit, here, there] at same
    simpa [inFirst, inSecond] using same
  · have high : ∀ byte : UInt8, byte.toNat.testBit bit = false := fun byte =>
      Nat.testBit_lt_two_pow (Nat.lt_of_lt_of_le byte.toNat_lt (Nat.pow_le_pow_right (by omega) (by omega)))
    rw [high, high]

def decodedNet (family : PrefixFamily) (prefixLength : UInt8) (body : List UInt8) : IpNetwork :=
  family.build (body ++ List.replicate (family.addressLen - body.length) 0) prefixLength

theorem parseNlris_one (identified : id.length = pathIdLen addPath) (bounded : prefixLength ≤ family.maxPrefixLen)
    {body : List UInt8} (whole : body.length = prefixByteLen prefixLength) :
    parseNlris family (id ++ prefixLength :: body) addPath = .ok (if family.ignored (decodedNet family prefixLength body) then []
        else [⟨decodedNet family prefixLength body, decodedPathId addPath id⟩]) := by
  have parsed := @parseNlri_entry family addPath id body [] prefixLength [] identified bounded whole
  rw [append_nil] at parsed
  rw [parseNlris, scan_step (parseNlri_advances (id ++ prefixLength :: body).length) [] _ (by simp) (Nat.le_refl _), parsed]
  rfl

theorem decodedNet_inj (known : family = ipv4Family ∨ family = ipv6Family) (bounded : prefixLength ≤ family.maxPrefixLen)
    (firstWhole : first.length = prefixByteLen prefixLength) (secondWhole : second.length = prefixByteLen prefixLength)
    (same : decodedNet family prefixLength first = decodedNet family prefixLength second) : first = second := by
  have room := Nat.le_trans (prefixByteLen_mono bounded) family.room
  have buffers : first ++ replicate (family.addressLen - first.length) 0 = second ++ replicate (family.addressLen - second.length) 0 := by
    have firstLength : (first ++ replicate (family.addressLen - first.length) 0).length = family.addressLen := by
      rw [length_append, length_replicate]
      omega
    have secondLength : (second ++ replicate (family.addressLen - second.length) 0).length = family.addressLen := by
      rw [length_append, length_replicate]
      omega
    rcases known with rfl | rfl
    · have addresses := congrArg addrOctets (congrArg IpNet.address (IpNetwork.v4.inj same))
      rwa [Ipv4Addr.fromOctets, Ipv4Addr.fromOctets, addrOctets_addrFromOctets rfl firstLength,
        addrOctets_addrFromOctets rfl secondLength] at addresses
    · have addresses := congrArg addrOctets (congrArg IpNet.address (IpNetwork.v6.inj same))
      rwa [Ipv6Addr.fromOctets, Ipv6Addr.fromOctets, addrOctets_addrFromOctets rfl firstLength,
        addrOctets_addrFromOctets rfl secondLength] at addresses
  exact (append_inj buffers (firstWhole.trans secondWhole.symm)).1

-- Both encodings are of multicast prefixes, which the parser skips.
def BothIgnored (family : PrefixFamily) (prefixLength : UInt8) (first second : List UInt8) : Prop :=
  family.ignored (decodedNet family prefixLength first) = true ∧ family.ignored (decodedNet family prefixLength second) = true

-- The parsers keep the bits past the prefix, so encodings that differ there are different prefixes.
theorem parse_agrees_iff (known : family = ipv4Family ∨ family = ipv6Family) (identified : id.length = pathIdLen addPath)
    (bounded : prefixLength ≤ family.maxPrefixLen) (firstWhole : first.length = prefixByteLen prefixLength)
    (secondWhole : second.length = prefixByteLen prefixLength)
    (relevant : ∀ pos < prefixLength.toNat, byteBit first pos = byteBit second pos) :
    parseNlris family (id ++ prefixLength :: first) addPath = parseNlris family (id ++ prefixLength :: second) addPath ↔
      (∀ pos, prefixLength.toNat ≤ pos → byteBit first pos = byteBit second pos) ∨ BothIgnored family prefixLength first second := by
  rw [parseNlris_one identified bounded firstWhole, parseNlris_one identified bounded secondWhole]
  constructor
  · intro same
    cases firstIgnored : family.ignored (decodedNet family prefixLength first) with
    | true =>
      cases secondIgnored : family.ignored (decodedNet family prefixLength second) with
      | true => exact .inr ⟨firstIgnored, secondIgnored⟩
      | false => simp [firstIgnored, secondIgnored] at same
    | false =>
      cases secondIgnored : family.ignored (decodedNet family prefixLength second) with
      | true => simp [firstIgnored, secondIgnored] at same
      | false =>
        have nets : decodedNet family prefixLength first = decodedNet family prefixLength second := by
          simpa [firstIgnored, secondIgnored] using same
        rw [decodedNet_inj known bounded firstWhole secondWhole nets]
        exact .inl fun _ _ => rfl
  · intro agree
    rcases agree with trailing | ⟨firstIgnored, secondIgnored⟩
    · have bodies : first = second := bytes_ext (firstWhole.trans secondWhole.symm) fun pos =>
        (Nat.lt_or_ge pos prefixLength.toNat).elim (relevant pos) (trailing pos)
      rw [bodies]
    · rw [if_pos firstIgnored, if_pos secondIgnored]

end

inductive FromInput (std : StdParse) : IpNetwork → Prop where
  | nlri (family : PrefixFamily) (known : family = ipv4Family ∨ family = ipv6Family) (bytes : List UInt8) (addPath : Bool)
      (nlriList : List Nlri) (parsed : parseNlris family bytes addPath = .ok nlriList) (nlri : Nlri) (member : nlri ∈ nlriList) :
      FromInput std nlri.pfx
  | text (text : String) (net : IpNetwork) (parsed : IpNetwork.fromStr std text = .ok net) : FromInput std net

def addressWidth : IpNetwork → Nat
  | .v4 _ => 32
  | .v6 _ => 128

theorem fromStr_bounded {std : StdParse} {text : String} {net : IpNetwork} (parsed : IpNetwork.fromStr std text = .ok net) :
    net.prefixLen.toNat ≤ addressWidth net := by
  unfold IpNetwork.fromStr at parsed
  split at parsed
  · split at parsed
    · cases parsed
    · split at parsed
      · split at parsed
        · cases parsed
        · rename_i small
          cases parsed
          exact UInt8.le_iff_toNat_le.mp (UInt8.not_lt.mp small)
      · split at parsed
        · cases parsed
        · rename_i small
          cases parsed
          exact UInt8.le_iff_toNat_le.mp (UInt8.not_lt.mp small)
      · cases parsed
  · cases parsed

theorem FromInput.bounded {std : StdParse} {net : IpNetwork} (input : FromInput std net) : net.prefixLen.toNat ≤ addressWidth net := by
  cases input with
  | nlri family known bytes addPath nlriList parsed nlri member =>
    rcases known with rfl | rfl
    · cases parseNlris_rewritable_v4 addPath bytes nlriList parsed nlri member with
      | v4 net pathId fills unicast => exact fills.1
    · cases parseNlris_rewritable_v6 addPath bytes nlriList parsed nlri member with
      | v6 net pathId fills => exact fills.1
  | text text net parsed => exact fromStr_bounded parsed

def HostBitsZero {width : Nat} (net : IpNet width) : Prop := ∀ pos < width, net.prefixLength.toNat ≤ pos → net.address.getMsbD pos = false

namespace PrefixMap

variable {width : Nat} {Value : Type} {table : PrefixMap width Value}

variable {trie : Option (PrefixTrie width Unit)} {stored : IpNet width → Prop}

inductive Call (width : Nat) (Value : Type) where
  | insert (key : IpNet width) (value : Value)
  | remove (key : IpNet width)
  | getOrInsert (key : IpNet width) (value : Value)
  | retain (visit : IpNet width → Value → Option Value)

def Call.key : Call width Value → Option (IpNet width)
  | insert key _ | remove key | getOrInsert key _ => some key
  | retain _ => none

def Call.onTable (table : PrefixMap width Value) : Call width Value → PrefixMap width Value
  | insert key value => table.insert key value
  | remove key => table.remove key
  | getOrInsert key value => table.getOrInsert key value
  | retain visit => table.retainEach visit

-- The trie has the keys of the hash table, and a subtree query finds those inside it.
structure InSync (table : PrefixMap width Value) : Prop where
  keys : ∃ trie entries, table.trie = some trie ∧ trie.iter = some entries ∧
    ∀ key, key ∈ entries.map Prod.fst ↔ (table.get key).isSome = true
  subtree : ∀ query, query.prefixLength.toNat ≤ width → ∀ key, key ∈ table.subtree query ↔ (table.get key).isSome = true ∧ addresses key ⊆ addresses query

structure Mirrored (trie : Option (PrefixTrie width Unit)) (stored : IpNet width → Prop) : Prop where
  refines : ∃ mirror map, trie = some mirror ∧ mirror.Refines map ∧ ∀ key : CanonicalNet width,
    (map.lookup key).isSome = true ↔ stored key.val
  canonical : ∀ net, stored net → Canonical net

theorem Mirrored.insert (mirrored : Mirrored trie stored)
    (key : CanonicalNet width) : Mirrored (trieInsert trie key.val) fun net => net = key.val ∨ stored net := by
  obtain ⟨mirror, map, rfl, refines, same⟩ := mirrored.refines
  obtain ⟨next, inserted, after, -⟩ := refines.step (.insert key ())
  have done : mirror.insert key.val () = some (map.lookup key, next) := inserted
  refine ⟨⟨next, _, by simp [trieInsert, done], after, fun other => ?_⟩, fun net member => ?_⟩
  · have sameNet : other.val = key.val ↔ other = key := ⟨Subtype.ext, congrArg Subtype.val⟩
    rw [TrieOp.onMap, AssocMap.lookup_insert_if, ← same other, sameNet]
    by_cases here : other = key <;> simp [here]
  · rcases member with rfl | old
    · exact key.property
    · exact mirrored.canonical net old

theorem Mirrored.remove (mirrored : Mirrored trie stored)
    (key : CanonicalNet width) : Mirrored (trieRemove trie key.val) fun net => net ≠ key.val ∧ stored net := by
  obtain ⟨mirror, map, rfl, refines, same⟩ := mirrored.refines
  obtain ⟨next, removed, after, -⟩ := refines.step (.remove key)
  have done : mirror.remove key.val = some (map.lookup key, next) := removed
  refine ⟨⟨next, _, by simp [trieRemove, done], after, fun other => ?_⟩, fun net member => mirrored.canonical net member.2⟩
  have sameNet : other.val = key.val ↔ other = key := ⟨Subtype.ext, congrArg Subtype.val⟩
  rw [TrieOp.onMap, AssocMap.lookup_erase_if, ← same other, ne_eq, sameNet]
  by_cases here : other = key <;> simp [here]

theorem Mirrored.congr {stored later : IpNet width → Prop}
    (mirrored : Mirrored trie stored) (same : ∀ net, later net ↔ stored net) : Mirrored trie later := by
  have equal : later = stored := funext fun net => propext (same net)
  exact equal ▸ mirrored

theorem Mirrored.removeAll (mirrored : Mirrored trie stored)
    (dropped : List (Sigma fun _ : IpNet width => Value)) (inside : ∀ entry ∈ dropped, Canonical entry.1) :
    Mirrored (dropped.foldl (fun trie entry => trieRemove trie entry.1) trie) fun net =>
      (∀ entry ∈ dropped, net ≠ entry.1) ∧ stored net := by
  induction dropped generalizing trie stored with
  | nil => exact mirrored.congr fun net => by simp
  | cons entry rest ih =>
    have first := mirrored.remove ⟨entry.1, inside entry mem_cons_self⟩
    refine (ih first fun other member => inside other (mem_cons_of_mem _ member)).congr fun net => ?_
    simp only [forall_mem_cons]
    tauto

theorem mirrored_new : Mirrored (new : PrefixMap width Value).trie fun net => ((new : PrefixMap width Value).get net).isSome = true :=
  ⟨⟨.new, ∅, rfl, PrefixTrie.refines_new, fun _ => by simp⟩, fun _ member => by simp at member⟩

section

variable (mirrored : Mirrored table.trie fun net => (table.get net).isSome = true)

include mirrored

theorem mirrored_call (call : Call width Value) (canonical : ∀ key, call.key = some key → Canonical key) :
    Mirrored (call.onTable table).trie fun net => ((call.onTable table).get net).isSome = true := by
  cases call with
  | insert key value =>
    refine (mirrored.insert ⟨key, canonical key rfl⟩).congr fun net => ?_
    rw [Call.onTable]
    by_cases here : net = key <;> simp [here]
  | remove key =>
    rw [Call.onTable, remove]
    cases found : table.map.lookup key with
    | none => exact mirrored
    | some value =>
      refine (mirrored.remove ⟨key, canonical key rfl⟩).congr fun net => ?_
      have after : get (⟨table.map.erase key, trieRemove table.trie key⟩ : PrefixMap width Value) net =
          if net = key then none else table.get net := AssocMap.lookup_erase_if table.map key net
      rw [after]
      by_cases here : net = key <;> simp [here]
  | getOrInsert key value =>
    rw [Call.onTable, getOrInsert]
    cases found : table.map.lookup key with
    | some stored => exact mirrored
    | none =>
      refine (mirrored.insert ⟨key, canonical key rfl⟩).congr fun net => ?_
      have after : get (⟨table.map.insert key value, trieInsert table.trie key⟩ : PrefixMap width Value) net =
          if net = key then some value else table.get net := AssocMap.lookup_insert_if table.map key net value
      rw [after]
      by_cases here : net = key <;> simp [here]
  | retain visit =>
    have listed : ∀ net value, ⟨net, value⟩ ∈ table.map.entries ↔ table.get net = some value := fun net value =>
      AList.mem_lookup_iff.symm
    refine (mirrored.removeAll (table.map.entries.filter fun entry => (visit entry.1 entry.2).isNone) ?_).congr fun net => ?_
    · intro entry member
      have stored := (listed entry.1 entry.2).mp (mem_filter.mp member).1
      exact mirrored.canonical entry.1 (by rw [stored]; rfl)
    · rw [Call.onTable, get_retainEach]
      cases stored : table.get net with
      | none => simp
      | some value =>
        rw [Option.bind_some]
        constructor
        · intro kept
          refine ⟨fun entry member same => ?_, rfl⟩
          obtain ⟨inside, gone⟩ := mem_filter.mp member
          have value' := (listed entry.1 entry.2).mp inside
          rw [← same, stored] at value'
          rw [← same, ← Option.some.inj value', Option.isNone_iff_eq_none] at gone
          rw [gone] at kept
          cases kept
        · intro kept
          by_contra gone
          refine kept.1 ⟨net, value⟩ (mem_filter.mpr ⟨(listed net value).mpr stored, ?_⟩) rfl
          simpa using gone

theorem mirrored_calls (calls : List (Call width Value)) (canonical : ∀ call ∈ calls, ∀ key, call.key = some key → Canonical key) :
    Mirrored (calls.foldl Call.onTable table).trie fun net => ((calls.foldl Call.onTable table).get net).isSome = true := by
  induction calls generalizing table with
  | nil => exact mirrored
  | cons call calls ih =>
    exact ih (mirrored_call mirrored call (canonical call mem_cons_self)) fun other member =>
      canonical other (mem_cons_of_mem _ member)

theorem Mirrored.inSync : InSync table := by
  obtain ⟨trie, map, read, refines, same⟩ := mirrored.refines
  have stored : ∀ net, (∃ key : CanonicalNet width, key.val = net ∧ map.lookup key = some ()) ↔ (table.get net).isSome = true := by
    intro net
    constructor
    · rintro ⟨key, rfl, present⟩
      exact (same key).mp (by rw [present]; rfl)
    · intro present
      obtain ⟨_, found⟩ := Option.isSome_iff_exists.mp ((same ⟨net, mirrored.canonical net present⟩).mpr present)
      exact ⟨⟨net, mirrored.canonical net present⟩, rfl, found⟩
  refine ⟨?_, fun query bounded key => ?_⟩
  · obtain ⟨entries, walked, listed⟩ := refines.iter
    refine ⟨trie, entries, read, walked, fun key => ?_⟩
    rw [← stored key, ← listed key (), mem_map]
    constructor
    · rintro ⟨⟨_, _⟩, member, rfl⟩
      exact member
    · exact fun member => ⟨(key, ()), member, rfl⟩
  · obtain ⟨below, walked, -, listed⟩ := refines.subtree
      ⟨masked query query.prefixLength.toNat, masked_canonical query bounded _ (Nat.le_refl _)⟩
    have found : table.subtree query = below.map Prod.fst := by
      rw [PrefixMap.subtree, read, Option.bind_some, ← PrefixTrie.subtree_masked trie bounded, walked]
      rfl
    rw [found, ← stored key, mem_map, ← addresses_masked bounded]
    constructor
    · rintro ⟨⟨net, _⟩, inside, rfl⟩
      obtain ⟨own, val, present, contained⟩ := (listed net ()).mp inside
      exact ⟨⟨own, val, present⟩, contained⟩
    · rintro ⟨⟨own, val, present⟩, contained⟩
      exact ⟨(key, ()), (listed key ()).mpr ⟨own, val, present, contained⟩, rfl⟩

end

theorem prefix_identity_iff (std : StdParse) {family : PrefixFamily}
    (known : family = ipv4Family ∨ family = ipv6Family) {addPath : Bool} {id first second : List UInt8} {prefixLength : UInt8}
    (identified : id.length = pathIdLen addPath) (bounded : prefixLength ≤ family.maxPrefixLen)
    (firstWhole : first.length = prefixByteLen prefixLength) (secondWhole : second.length = prefixByteLen prefixLength)
    (relevant : ∀ pos < prefixLength.toNat, byteBit first pos = byteBit second pos) (calls4 : List (Call 32 Value))
    (clean4 : ∀ call ∈ calls4, ∀ key, call.key = some key → FromInput std (.v4 key) ∧ HostBitsZero key) (calls6 : List (Call 128 Value))
    (clean6 : ∀ call ∈ calls6, ∀ key, call.key = some key → FromInput std (.v6 key) ∧ HostBitsZero key) :
    (parseNlris family (id ++ prefixLength :: first) addPath = parseNlris family (id ++ prefixLength :: second) addPath ↔
        (∀ pos, prefixLength.toNat ≤ pos → byteBit first pos = byteBit second pos) ∨ BothIgnored family prefixLength first second) ∧
      InSync (calls4.foldl Call.onTable new) ∧ InSync (calls6.foldl Call.onTable new) := by
  refine ⟨parse_agrees_iff known identified bounded firstWhole secondWhole relevant, ?_, ?_⟩
  · refine (mirrored_calls mirrored_new calls4 fun call member key named => ?_).inSync
    obtain ⟨input, zero⟩ := clean4 call member key named
    exact (canonical_iff key).mpr ⟨input.bounded, zero⟩
  · refine (mirrored_calls mirrored_new calls6 fun call member key named => ?_).inSync
    obtain ⟨input, zero⟩ := clean6 call member key named
    exact (canonical_iff key).mpr ⟨input.bounded, zero⟩

def keptCalls : List (Call 32 Bool) := [.insert ⟨0x0A800000, 9⟩ true, .getOrInsert ⟨0x0B000000, 8⟩ true, .insert ⟨0x0B000000, 8⟩ false,
  .remove ⟨0x0A800000, 9⟩, .getOrInsert ⟨0x0A800000, 9⟩ true, .retain fun _ kept => if kept then some kept else none]

theorem prefix_identity_of_clear_bits : InSync (keptCalls.foldl Call.onTable new) := by
  have nine : FromInput ⟨fun _ => none, fun _ => none, fun _ => none⟩ (.v4 ⟨0x0A800000, 9⟩) ∧ HostBitsZero (⟨0x0A800000, 9⟩ : Ipv4Net) :=
    ⟨.nlri ipv4Family (.inl rfl) [9, 10, 128] false [⟨.v4 ⟨0x0A800000, 9⟩, none⟩] (by decide) _ mem_cons_self, by
      unfold HostBitsZero
      decide⟩
  have eight : FromInput ⟨fun _ => none, fun _ => none, fun _ => none⟩ (.v4 ⟨0x0B000000, 8⟩) ∧ HostBitsZero (⟨0x0B000000, 8⟩ : Ipv4Net) :=
    ⟨.nlri ipv4Family (.inl rfl) [8, 11] false [⟨.v4 ⟨0x0B000000, 8⟩, none⟩] (by decide) _ mem_cons_self, by
      unfold HostBitsZero
      decide⟩
  refine (@prefix_identity_iff _ ⟨fun _ => none, fun _ => none, fun _ => none⟩ ipv4Family (.inl rfl) false [] [10, 128] [10, 129]
    9 rfl (by decide) rfl rfl (by decide) keptCalls (fun call member key named => ?_) [] (by simp)).2.1
  simp only [keptCalls, mem_cons, not_mem_nil, or_false] at member
  obtain rfl | rfl | rfl | rfl | rfl | rfl := member <;> cases named <;> assumption

-- Two spellings of one prefix are two keys of the hash table and one of the trie.
theorem trailing_bit_splits_prefix : parseNlriList [9, 10, 128] false = .ok [⟨.v4 ⟨0x0A800000#32, 9⟩, none⟩] ∧
      parseNlriList [9, 10, 129] false = .ok [⟨.v4 ⟨0x0A810000#32, 9⟩, none⟩] ∧
      ([Call.getOrInsert (⟨0x0A800000#32, 9⟩ : Ipv4Net) true, .getOrInsert ⟨0x0A810000#32, 9⟩ true].foldl Call.onTable new).len = 2 ∧
      ([Call.getOrInsert (⟨0x0A800000#32, 9⟩ : Ipv4Net) true, .getOrInsert ⟨0x0A810000#32, 9⟩ true].foldl Call.onTable new).trie.bind
        PrefixTrie.iter = some [(⟨0x0A800000#32, 9⟩, ())] := by
  decide

end PrefixMap

end Bgpgg.Table
