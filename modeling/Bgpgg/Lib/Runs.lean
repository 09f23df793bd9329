import Mathlib.Logic.Basic

namespace Bgpgg.Lib

-- The states a system reaches when every step it takes is allowed in the state
-- it is taken from. The permission may speak about the whole state, so it also
-- carries what the environment promises about the next operation.
inductive Reaches {State Op : Type} (step : State → Op → State) (allowed : State → Op → Prop)
    (start : State) : State → Prop where
  | refl : Reaches step allowed start start
  | tail {state : State} (before : Reaches step allowed start state) (op : Op) (permitted : allowed state op) :
      Reaches step allowed start (step state op)

section

variable {State Op : Type} {step : State → Op → State} {allowed : State → Op → Prop} (start : State) (ops : List Op)

theorem Reaches.invariant {start final : State} (property : State → Prop) (initial : property start)
    (preserved : ∀ state op, property state → allowed state op → property (step state op))
    (run : Reaches step allowed start final) : property final := by
  induction run with
  | refl => exact initial
  | tail before op permitted holds => exact preserved _ op holds permitted

def Permits (step : State → Op → State) (allowed : State → Op → Prop) : State → List Op → Prop
  | _, [] => True
  | state, op :: rest => allowed state op ∧ Permits step allowed (step state op) rest

instance Permits.decidable {State Op : Type} (step : State → Op → State) (allowed : State → Op → Prop)
    [∀ state op, Decidable (allowed state op)] : ∀ state ops, Decidable (Permits step allowed state ops)
  | _, [] => .isTrue trivial
  | state, op :: rest =>
    let _ : Decidable (Permits step allowed (step state op) rest) := Permits.decidable step allowed (step state op) rest
    inferInstanceAs (Decidable (allowed state op ∧ Permits step allowed (step state op) rest))

theorem Reaches.of_permits (permits : Permits step allowed start ops) : Reaches step allowed start (ops.foldl step start) := by
  have extended : ∀ ops state, Reaches step allowed start state → Permits step allowed state ops →
      Reaches step allowed start (ops.foldl step state) := by
    intro ops
    induction ops with
    | nil => exact fun state reached _ => reached
    | cons op rest ih => exact fun state reached permits => ih _ (reached.tail op permits.1) permits.2
  exact extended ops start .refl permits

theorem Reaches.of_run : Reaches step (fun _ _ => True) start (ops.foldl step start) := by
  exact List.foldlRecOn ops _ .refl fun _ reached op _ => reached.tail op trivial

end

end Bgpgg.Lib
