import EquivalentCircuit.Arithmetic.Binary64

/-!
# Shortest Decimals

A binary floating-point number stands for every real number that rounds to it. Among the
decimals in that interval this module picks the one to print: the coarsest power of ten that
has a multiple inside is found first, and of the multiples inside the one nearest to the
number is taken, the larger of two that are equally near. All tests are exact, on natural
numbers.

## Main definitions

* `BinaryFraction.ofBinary64`: the magnitude that a double-precision number stands for.
* `BinaryFraction.nearestOn?`: the multiple of a given power of ten to print, if one reads back.
* `BinaryFraction.shortest`: the decimal to print.
-/

namespace EquivalentCircuit

/-- The **decimal** `digits · 10 ^ exponent`. -/
structure Decimal where
  digits : Nat
  exponent : Int

/-- The **binary fraction** `significand · 2 ^ exponent`. Its two neighbours are one unit of the
significand away, except that the neighbour below the least significand of a binade is half as
far. -/
structure BinaryFraction where
  significand : Nat
  exponent : Int
  leastOfBinade : Bool

/-- The magnitude of a finite double-precision number, read off its bit pattern. -/
def BinaryFraction.ofBinary64 (x : Binary64) : BinaryFraction :=
  let fraction := x.magnitude % Nat.pow 2 52
  let biased := x.magnitude / Nat.pow 2 52
  if biased = 0 then ⟨fraction, -1074, false⟩
  else ⟨Nat.pow 2 52 + fraction, biased - 1075, fraction == 0 && decide (1 < biased)⟩

/-- The multiple of `10 ^ grid` to print for `x`: one that rounds to `x`, and of two such the
nearer one, upwards when they are equally near. The interval of numbers that round to `x` ends
half-way to its neighbours, and its ends belong to it when the significand is even. Lengths are
measured in quarters of a unit of the significand. -/
def BinaryFraction.nearestOn? (x : BinaryFraction) (grid : Int) : Option Nat :=
  let scale := Nat.pow 2 (x.exponent - 2).toNat * Nat.pow 10 (-grid).toNat
  let step := Nat.pow 2 (2 - x.exponent).toNat * Nat.pow 10 grid.toNat
  let number := 4 * x.significand * scale
  let lowest := (4 * x.significand - if x.leastOfBinade then 1 else 2) * scale
  let highest := (4 * x.significand + 2) * scale
  let readsBack (n : Nat) : Bool :=
    if x.significand % 2 = 0 then decide (lowest ≤ n * step ∧ n * step ≤ highest)
    else decide (lowest < n * step ∧ n * step < highest)
  let below := number / step
  let above := below + 1
  match readsBack below, readsBack above with
  | true, true => some (if number - below * step < above * step - number then below else above)
  | true, false => some below
  | false, true => some above
  | false, false => none

/-- The powers of ten that a double-precision number may need, the coarsest first: the largest
numbers lie below `10 ^ 309`, and `10 ^ -324` is finer than every distance between
neighbours. -/
def BinaryFraction.grids : List Int :=
  (List.range 634).map fun (i : Nat) => 309 - (i : Int)

/-- The **shortest decimal** of a positive number. -/
def BinaryFraction.shortest (x : BinaryFraction) : Decimal :=
  (grids.findSome? fun grid => (x.nearestOn? grid).map fun n => ⟨n, grid⟩).getD ⟨0, 0⟩

end EquivalentCircuit
