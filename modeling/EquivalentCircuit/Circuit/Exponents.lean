import EquivalentCircuit.Network.Element

/-!
# Exponents of Constant-Phase Elements

An evaluation may be given exponents for some components, by literal. The components that are
not mentioned have the exponent one.
-/

universe u

namespace EquivalentCircuit

/-- **Exponents** by literal. -/
abbrev Exponents (α : Type u) := List (String × α)

namespace Exponents

variable {α : Type u}

/-- The exponent that is given for a literal. Of several the last one holds. -/
def get? (exponents : Exponents α) (literal : String) : Option α :=
  match exponents with
  | [] => none
  | (key, exponent) :: rest =>
    match get? rest literal with
    | some later => some later
    | none => if key = literal then some exponent else none

/-- The **exponent of a component**. -/
def lookup [One α] (exponents : Exponents α) (literal : String) : α :=
  (exponents.get? literal).getD unitExponent

/-- The first literal of the exponents that is not among the given ones. -/
def unknown? (exponents : Exponents α) (literals : List String) : Option String :=
  (exponents.map Prod.fst).find? fun key => !literals.contains key

end Exponents

end EquivalentCircuit
