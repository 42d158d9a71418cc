import Toolpath.Decimal.Basic
import Toolpath.Decimal.Binary

/-!
# Shortest decimals

The decimal with the fewest digits that reads back as a given double and, of those, the nearest to
it. The reals that read back as a double form an interval around it; the grids of one, two, …,
seventeen digits are tried in turn, each at the two points next to the double.
-/

namespace Toolpath

/-- Which of two decimals is taken when both are equally near. -/
inductive Tie where
  | away
  | even
deriving DecidableEq, Repr

/-- A positive number `value / unit` with the reach of the reals that read back as it, `below` and
`above`, in the same unit. The two ends belong to the reach where `closed`. -/
structure Neighbourhood where
  value : Nat
  unit : Nat
  below : Nat
  above : Nat
  closed : Bool

namespace Neighbourhood

/-- The reals that round to a positive double: half-way to its neighbours, of which the lower one is
nearer where the significand is the least of its power. An end rounds to the even significand. -/
def ofBinary (b : Binary) : Neighbourhood :=
  let narrow := b.significand = Binary.leastFull ∧ Binary.leastExponent < b.exponent
  let e := b.exponent - 2
  { value := Binary.scaled (4 * b.significand) e
    unit := Nat.pow 2 (-e).toNat
    below := Binary.scaled (if narrow then 1 else 2) e
    above := Binary.scaled 2 e
    closed := b.significand % 2 = 0 }

/-- The same neighbourhood measured in steps of `10 ^ k`. -/
def rescale (n : Neighbourhood) (k : Int) : Neighbourhood :=
  let finer := Nat.pow 10 (-k).toNat
  { n with
    value := n.value * finer
    unit := n.unit * Nat.pow 10 k.toNat
    below := n.below * finer
    above := n.above * finer }

/-- Is a distance within a reach? -/
def within (n : Neighbourhood) (distance reach : Nat) : Bool :=
  if n.closed then distance ≤ reach else distance < reach

/-- The whole number that reads back, if there is one: of the two next to the value, the nearer. -/
def whole? (n : Neighbourhood) (tie : Tie) : Option Nat :=
  let low := n.value / n.unit
  let down := n.value % n.unit
  let up := n.unit - down
  match n.within down n.below, n.within up n.above with
  | false, false => none
  | true, false => some low
  | false, true => some (low + 1)
  | true, true =>
    -- Both neighbours read back, so the distances decide.
    if down < up then some low
    else if up < down then some (low + 1)
    else match tie with
      | .away => some (low + 1)
      | .even => some (if low % 2 = 0 then low else low + 1)

/-- How many digits stand before the point; not positive where the number begins behind it. -/
def magnitude (n : Neighbourhood) : Int :=
  if n.unit ≤ n.value then (Nat.toDigits 10 (n.value / n.unit)).length
  else 1 - (Nat.toDigits 10 ((n.unit + n.value - 1) / n.value - 1)).length

/-- The first grid with a point that reads back, among those of at most `fuel` more digits than
`count`; each grid is given by the power of ten of its step. -/
def search (n : Neighbourhood) (tie : Tie) (top : Int) : Nat → Nat → Nat × Int
  | 0, count => ((n.rescale (top - count)).value / (n.rescale (top - count)).unit, top - count)
  | fuel + 1, count =>
    match (n.rescale (top - count)).whole? tie with
    | some digits => (digits, top - count)
    | none => search n tie top fuel (count + 1)

end Neighbourhood

/-- Moves the zeros at the end of the digits into the power of ten. -/
def Decimal.trim (negative : Bool) (digits : Nat) (exponent : Int) : Decimal :=
  if h : digits ≠ 0 ∧ digits % 10 = 0 then trim negative (digits / 10) (exponent + 1)
  else ⟨negative, digits, exponent⟩
termination_by digits
decreasing_by omega

/-- The shortest decimal that reads back as a double, without zeros at its end. Seventeen digits
are always enough. -/
def Binary.shortest (tie : Tie) (b : Binary) : Decimal :=
  if b.significand = 0 then ⟨b.negative, 0, 0⟩
  else
    let near := Neighbourhood.ofBinary b
    let (digits, exponent) := near.search tie near.magnitude 17 1
    Decimal.trim b.negative digits exponent

end Toolpath
