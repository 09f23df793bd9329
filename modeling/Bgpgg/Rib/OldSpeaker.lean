import Bgpgg.Rib.AsPathMerge

namespace Bgpgg.Wire

open Lib Rib

section

variable {path : Path} {format : MessageFormat} {message : UpdateMessage} {tail : List PathAttribute}

end

end Bgpgg.Wire

namespace Bgpgg.Rib

open Lib Wire UpdateMessage

section

variable {segments : List AsPathSegment}

end

section

variable {path : Path} {format : MessageFormat} {message decoded : UpdateMessage} {tail : List PathAttribute}
  {order : HashOrder UInt16}

variable {Field : Type} {pick : PathAttrValue → Option Field}

theorem lookup_isSome {attrType : AttrType}
    (defined : ∀ value : PathAttrValue, value.attrType = some attrType → (pick value).isSome = true)
    (present : hasValue decoded.pathAttributes (fun value => value.attrType == some attrType) = true) :
    (decoded.attrValues.findSome? pick).isSome = true := by
  obtain ⟨attr, member, kind⟩ := List.any_eq_true.mp present
  exact List.findSome?_isSome_iff.mpr ⟨attr.value, List.mem_map_of_mem member, defined _ (beq_iff_eq.mp kind)⟩

end

end Bgpgg.Rib
