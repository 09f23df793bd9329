import Bgpgg.Wire.NlriCodec

namespace Bgpgg.Wire

open Lib

def OPTIONAL : UInt8 := 0x80
def TRANSITIVE : UInt8 := 0x40
def PARTIAL : UInt8 := 0x20
def EXTENDED_LENGTH : UInt8 := 0x10

variable (flags : UInt8)

def extendedLen : Bool := flags &&& EXTENDED_LENGTH != 0

def headerLen : Nat := if extendedLen flags then 4 else 3

inductive AttrType where
  | origin
  | asPath
  | nextHop
  | multiExtiDisc
  | localPref
  | atomicAggregate
  | aggregator
  | communities
  | originatorId
  | clusterList
  | mpReachNlri
  | mpUnreachNlri
  | extendedCommunities
  | as4Path
  | as4Aggregator
  | linkState
  | largeCommunities
deriving DecidableEq, Repr

def AttrType.toU8 : AttrType → UInt8
  | .origin => 1
  | .asPath => 2
  | .nextHop => 3
  | .multiExtiDisc => 4
  | .localPref => 5
  | .atomicAggregate => 6
  | .aggregator => 7
  | .communities => 8
  | .originatorId => 9
  | .clusterList => 10
  | .mpReachNlri => 14
  | .mpUnreachNlri => 15
  | .extendedCommunities => 16
  | .as4Path => 17
  | .as4Aggregator => 18
  | .linkState => 29
  | .largeCommunities => 32

def AttrType.all : List AttrType :=
  [.origin, .asPath, .nextHop, .multiExtiDisc, .localPref, .atomicAggregate, .aggregator, .communities, .originatorId,
    .clusterList, .mpReachNlri, .mpUnreachNlri, .extendedCommunities, .as4Path, .as4Aggregator, .linkState,
    .largeCommunities]

def AttrType.tryFrom (value : UInt8) : Option AttrType := AttrType.all.find? fun attrType => attrType.toU8 == value

@[simp] theorem attrType_tryFrom_toU8 (attrType : AttrType) : AttrType.tryFrom attrType.toU8 = some attrType := by
  cases attrType <;> rfl

theorem AttrType.tryFrom_eq_some {value : UInt8} {attrType : AttrType} (known : AttrType.tryFrom value = some attrType) :
    attrType.toU8 = value := by
  have found := List.find?_some known
  simpa using found

def AttrType.expectedFlags : AttrType → UInt8
  | .origin => TRANSITIVE
  | .asPath => TRANSITIVE
  | .nextHop => TRANSITIVE
  | .multiExtiDisc => OPTIONAL
  | .localPref => TRANSITIVE
  | .atomicAggregate => TRANSITIVE
  | .aggregator => OPTIONAL ||| TRANSITIVE
  | .communities => OPTIONAL ||| TRANSITIVE
  | .originatorId => OPTIONAL
  | .clusterList => OPTIONAL
  | .mpReachNlri => OPTIONAL
  | .mpUnreachNlri => OPTIONAL
  | .extendedCommunities => OPTIONAL ||| TRANSITIVE
  | .as4Path => OPTIONAL ||| TRANSITIVE
  | .as4Aggregator => OPTIONAL ||| TRANSITIVE
  | .linkState => OPTIONAL ||| TRANSITIVE
  | .largeCommunities => OPTIONAL ||| TRANSITIVE

def AttrType.isWellKnown : AttrType → Bool
  | .origin | .asPath | .nextHop | .localPref | .atomicAggregate => true
  | _ => false

def AttrType.isOptional : AttrType → Bool
  | .multiExtiDisc | .aggregator | .communities | .originatorId | .clusterList | .mpReachNlri | .mpUnreachNlri
  | .extendedCommunities | .as4Path | .as4Aggregator | .linkState | .largeCommunities => true
  | _ => false

inductive PathAttrError where
  | discard
  | treatAsWithdraw
deriving DecidableEq, Repr

def malformedAttrAction (attrType : AttrType) (isEbgp : Bool) : PathAttrError := match attrType with
  | .origin | .asPath | .nextHop | .multiExtiDisc | .communities | .extendedCommunities | .largeCommunities
  | .mpUnreachNlri => .treatAsWithdraw
  | .localPref | .originatorId | .clusterList => if isEbgp then .discard else .treatAsWithdraw
  | _ => .discard

def attributeHeader (flags attrTypeCode : UInt8) (attrLen : UInt16) : List UInt8 :=
  [flags, attrTypeCode] ++ if extendedLen flags then u16Bytes attrLen else [UInt8.ofNat attrLen.toNat]

def validateAttributeFlags (attrType : AttrType) (attrTypeCode : UInt8) (attrLen : UInt16) : Parse Unit :=
  if flags &&& (OPTIONAL ||| TRANSITIVE) ≠ attrType.expectedFlags then
    .err ⟨.attributeFlagsError, attributeHeader flags attrTypeCode attrLen⟩
  else if attrType.isWellKnown && flags &&& PARTIAL != 0 then
    .err ⟨.attributeFlagsError, attributeHeader flags attrTypeCode attrLen⟩
  else .ok ()

def attributeLengthValid (attrType : AttrType) (attrLen : Nat) (use4byteAsn : Bool) : Bool := match attrType with
  | .origin => attrLen == 1
  | .nextHop => attrLen == 4
  | .multiExtiDisc => attrLen == 4
  | .localPref => attrLen == 4
  | .atomicAggregate => attrLen == 0
  | .aggregator => if use4byteAsn then attrLen == 8 else attrLen == 6
  | .asPath => true
  | .communities => 0 < attrLen && attrLen % 4 == 0
  | .originatorId => attrLen == 4
  | .clusterList => 0 < attrLen && attrLen % 4 == 0
  | .mpReachNlri => true
  | .mpUnreachNlri => true
  | .extendedCommunities => 0 < attrLen && attrLen % 8 == 0
  | .as4Path => true
  | .as4Aggregator => true
  | .linkState => true
  | .largeCommunities => 0 < attrLen && attrLen % 12 == 0

def validateAttributeLength (attrType : AttrType) (attrLen : UInt16) (attrBytes : List UInt8) (use4byteAsn : Bool) : Parse Unit :=
  if attributeLengthValid attrType attrLen.toNat use4byteAsn then .ok ()
  else .err ⟨if attrType.isOptional then .optionalAttributeError else .attributeLengthError, attrBytes⟩

def PathAttrValue.attrType : PathAttrValue → Option AttrType
  | .origin _ => some .origin
  | .asPath _ => some .asPath
  | .nextHop _ => some .nextHop
  | .multiExtiDisc _ => some .multiExtiDisc
  | .localPref _ => some .localPref
  | .atomicAggregate => some .atomicAggregate
  | .aggregator _ => some .aggregator
  | .communities _ => some .communities
  | .originatorId _ => some .originatorId
  | .clusterList _ => some .clusterList
  | .mpReachNlri _ => some .mpReachNlri
  | .mpUnreachNlri _ => some .mpUnreachNlri
  | .extendedCommunities _ => some .extendedCommunities
  | .as4Path _ => some .as4Path
  | .as4Aggregator _ => some .as4Aggregator
  | .largeCommunities _ => some .largeCommunities
  | .lsAttr _ => some .linkState
  | .unknown .. => none

-- The reader's type_code and the writer's choice of code are the same table.
def PathAttribute.typeCode (attr : PathAttribute) : UInt8 := match attr.value with
  | .unknown typeCode _ _ => typeCode
  | value => (value.attrType.map AttrType.toU8).getD 0

def FlagsValid (attrType : AttrType) : Prop :=
  flags &&& (OPTIONAL ||| TRANSITIVE) = attrType.expectedFlags ∧ (attrType.isWellKnown = true → flags &&& PARTIAL = 0)

instance (flags : UInt8) (attrType : AttrType) : Decidable (FlagsValid flags attrType) := inferInstanceAs (Decidable (_ ∧ (_ → _)))

theorem validateAttributeFlags_eq (attrType : AttrType) (attrTypeCode : UInt8) (attrLen : UInt16) :
    validateAttributeFlags flags attrType attrTypeCode attrLen = if FlagsValid flags attrType then .ok ()
      else .err ⟨.attributeFlagsError, attributeHeader flags attrTypeCode attrLen⟩ := by
  unfold validateAttributeFlags FlagsValid
  by_cases expected : flags &&& (OPTIONAL ||| TRANSITIVE) = attrType.expectedFlags
  · by_cases marked : flags &&& PARTIAL = 0
    · simp [marked]
    · by_cases known : attrType.isWellKnown = true
      · simp [expected, known]
      · simp [known]
  · simp [expected]

end Bgpgg.Wire
