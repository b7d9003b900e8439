import EquivalentCircuit.Network.Immittance

/-!
# Connections

Two two-terminal networks are joined **in series**, where impedances add, or **in parallel**,
where admittances add. `Connection.combine` gives the impedance of the joined network. The
limits come first: a short circuit in parallel with anything is a short circuit, an open branch
in parallel carries no current and may be left out, and branches whose admittances cancel leave
an open circuit.

`series` and `parallel` join any number of networks, from left to right.
-/

universe u

namespace EquivalentCircuit

/-- How two networks are **connected**. -/
inductive Connection where
  | series
  | parallel
  deriving DecidableEq

namespace Connection

/-- The sign that stands for the connection in the notation. -/
def symbol : Connection → Char
  | .series => '-'
  | .parallel => '|'

/-- How tightly the connection binds in a notation that ranks its operators: parallel before
series. -/
def rank : Connection → Nat
  | .series => 1
  | .parallel => 2

variable {ζ α : Type u} [Immittance ζ α] [Zero α]

/-- The impedance of two networks **in parallel**. -/
def combineParallel (left right : ζ) : ζ :=
  if Immittance.isShort left || Immittance.isShort right then Immittance.ofComplex 0
  else if Immittance.isOpen left then right
  else if Immittance.isOpen right then left
  else
    let admittance := Immittance.add (Immittance.inv left) (Immittance.inv right)
    if Immittance.isShort admittance then Immittance.openCircuit else Immittance.inv admittance

/-- The impedance of two **connected** networks. -/
def combine : Connection → ζ → ζ → ζ
  | .series, left, right => Immittance.add left right
  | .parallel, left, right => combineParallel left right

end Connection

variable {ζ α : Type u} [Immittance ζ α] [Zero α]

/-- The impedance of networks **in series**: a wire when there are none. -/
def series (impedances : List ζ) : ζ :=
  impedances.foldl (Connection.combine .series) (Immittance.ofComplex 0)

/-- The impedance of networks **in parallel**: an open circuit when there are none. -/
def parallel : List ζ → ζ
  | [] => Immittance.openCircuit
  | first :: others => others.foldl (Connection.combine .parallel) first

end EquivalentCircuit
