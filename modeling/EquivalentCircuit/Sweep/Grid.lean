import EquivalentCircuit.Arithmetic.Elementary

/-!
# Frequency Grids

Lists of frequencies from one bound to another, both included: evenly spaced, or with a
constant ratio between neighbours. Each point is interpolated between the bounds, so that
errors of rounding do not add up along the grid.
-/

universe u

namespace EquivalentCircuit.Grid

variable {α : Type u} [Zero α] [One α] [Add α] [Sub α] [Mul α] [Div α] [NatCast α]

/-- The point that lies a given share of the way from `start` to `stop`. -/
def interpolate (start stop share : α) : α :=
  start * (1 - share) + stop * share

/-- A grid of `n` points with **even spacing**. A single point lies at the start. -/
def linear (start stop : α) (n : Nat) : List α :=
  if n < 2 then List.replicate n start
  else
    let last : α := (n - 1 : Nat)
    (List.range n).map fun (i : Nat) => interpolate start stop ((i : α) / last)

/-- A grid of `n` points with a **constant ratio**. There is none when a bound is zero or
negative. -/
def logarithmic [LE α] [DecidableLE α] [Elementary α] (start stop : α) (n : Nat) : List α :=
  if start ≤ 0 ∨ stop ≤ 0 then []
  else (linear (Elementary.log start) (Elementary.log stop) n).map Elementary.exp

end EquivalentCircuit.Grid
