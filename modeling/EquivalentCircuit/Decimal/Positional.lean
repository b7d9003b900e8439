import EquivalentCircuit.Decimal.Shortest

/-!
# Numbers in Positional Notation

The text of a number in a message: the digits of its shortest decimal, written out without an
exponent however large or small the number is, and with a decimal point only where a fraction
follows.
-/

namespace EquivalentCircuit.Decimal

/-- A decimal in **positional notation**. Zeros fill the places between the digits and the
decimal point. -/
def positional (d : Decimal) : List Char :=
  let digits := Nat.toDigits 10 d.digits
  match d.exponent with
  | .ofNat zeros => digits ++ List.replicate zeros '0'
  | .negSucc n =>
    let padded := List.replicate (n + 2 - digits.length) '0' ++ digits
    let whole := padded.length - (n + 1)
    padded.take whole ++ '.' :: padded.drop whole

/-- The **text of a number**. A negative number, zero included, has a minus sign; the special values
have names. -/
def textOf (x : Binary64) : String :=
  if x.isNaN then "NaN"
  else
    let digits :=
      if x.isInfinite then ['i', 'n', 'f']
      else if x.magnitude = 0 then ['0']
      else (BinaryFraction.ofBinary64 x).shortest.positional
    String.ofList (if x.isNegative then '-' :: digits else digits)

end EquivalentCircuit.Decimal
