import Toolpath.Decimal.Shortest

/-!
# Number layouts

How a number is spelled once its digits are known: positionally or with a power of ten, with or
without a point after a whole number.
-/

namespace Toolpath

/-- The decisions of a number format. -/
structure Layout where
  /-- Which of two equally near decimals is written. -/
  tie : Tie
  /-- The powers of ten of the first digit that are written positionally. -/
  positional : Int → Bool
  /-- Does a whole number keep a point and a zero? -/
  pointed : Bool

/-- Positional at every size, whole numbers without a point. -/
def Layout.plain : Layout := ⟨.away, fun _ => true, false⟩

/-- Positional from `0.00001` to below `10 ^ 16`, whole numbers with a point and a zero. -/
def Layout.report : Layout := ⟨.even, fun e => -5 ≤ e && e ≤ 15, true⟩

namespace Decimal

/-- The digits as characters. -/
def digitChars (d : Decimal) : List Char :=
  Nat.toDigits 10 d.digits

/-- The power of ten of the first digit. -/
def leading (d : Decimal) : Int :=
  d.exponent + d.digitChars.length - 1

/-- The digits with the point where it belongs and zeros up to it; the second part is what stands
behind the point. -/
def positional (d : Decimal) : List Char × List Char :=
  let digits := d.digitChars
  let places := (-d.exponent).toNat
  let padded := List.replicate (places + 1 - digits.length) '0' ++ digits
    ++ List.replicate d.exponent.toNat '0'
  (padded.take (padded.length - places), padded.drop (padded.length - places))

/-- The text of a numeral without its sign. -/
def unsignedText (layout : Layout) (d : Decimal) : String :=
  if layout.positional d.leading then
    match d.positional with
    | (whole, []) => String.ofList whole ++ if layout.pointed then ".0" else ""
    | (whole, fraction) => String.ofList whole ++ "." ++ String.ofList fraction
  else
    let power := (if d.leading < 0 then "e-" else "e+") ++ toString d.leading.natAbs
    match d.digitChars with
    | [] => power
    | [digit] => digit.toString ++ power
    | digit :: digits => digit.toString ++ "." ++ String.ofList digits ++ power

/-- The text of a numeral. -/
def text (layout : Layout) (d : Decimal) : String :=
  (if d.negative then "-" else "") ++ d.unsignedText layout

end Decimal

/-- The text of a double: its shortest decimal, or the name of what has none. -/
def Layout.float (layout : Layout) (x : Float) : String :=
  match Binary.ofFloat? x with
  | some b => (b.shortest layout.tie).text layout
  | none => if x.isNaN then "NaN" else if x < 0 then "-inf" else "inf"

/-! ### The two layouts side by side -/

example : (Decimal.mk true 125 (-9)).text .plain = "-0.000000125" := by decide +kernel
example : (Decimal.mk true 125 (-9)).text .report = "-1.25e-7" := by decide +kernel
example : (Decimal.mk false 1 16).text .plain = "10000000000000000" := by decide +kernel
example : (Decimal.mk false 1 16).text .report = "1e+16" := by decide +kernel
example : (Decimal.mk false 85 (-1)).text .plain = "8.5" := by decide +kernel
example : (Decimal.mk false 8 0).text .report = "8.0" := by decide +kernel
example : Layout.plain.float 0.1 = "0.1" := by decide +kernel
example : Layout.plain.float (-0.0) = "-0" := by decide +kernel
example : Layout.plain.float (1.0 / 0.0) = "inf" := by decide +kernel

end Toolpath
