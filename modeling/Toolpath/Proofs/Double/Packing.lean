import Toolpath.Proofs.Double.Operations

/-!
# Doubles and their bits

A double is packed into sixty-four bits and unpacked again around every operation. What is unpacked
is always in canonical form, and packing such a form loses nothing, unless its exponent is beyond
the last one.
-/

namespace Toolpath.Double

open Float.Model (Format UnpackedFloat)
open Float.Model.UnpackedFloat

/-- An exponent that a double can have. -/
def Fits : UnpackedFloat → Prop
  | .finite _ _ e _ => e ≤ 971
  | _ => True

/-! ### Unpacking -/

lemma toNat_one_append (mantissa : BitVec 52) :
    (1#1 ++ mantissa).toNat = 2 ^ 52 + mantissa.toNat := by
  rw [BitVec.toNat_append, ← Nat.shiftLeft_add_eq_or_of_lt mantissa.isLt]
  rfl

/-- The double with a sign, eleven bits of exponent and fifty-two of mantissa. -/
def ofFields (sign : Sign) (exponent : BitVec 11) (mantissa : BitVec 52) : UnpackedFloat :=
  if exponent = -1#11 then
    if mantissa = 0#52 then .infinity sign else .notANumber
  else if exponent = 0#11 then
    if h : mantissa = 0#52 then .zero sign
    else .finite sign mantissa.toNat ((exponent.toNat : ℤ) - 1075 + 1)
      (by simpa [BitVec.toNat_pos, BitVec.pos_iff_ne_zero])
  else .finite sign (1#1 ++ mantissa).toNat ((exponent.toNat : ℤ) - 1075)
    (by rw [toNat_one_append]; positivity)

lemma unpack_eq_ofFields (b : BitVec 64) :
    unpack Format.binary64 b =
      ofFields (Sign.ofBitVec (@unpackSign Format.binary64 b))
        (@unpackExponent Format.binary64 b)
        (@unpackMantissa Format.binary64 b) :=
  rfl

/-- The fields of a double give a canonical form, and its exponent fits. -/
lemma canonical_ofFields (sign : Sign) (exponent : BitVec 11) (mantissa : BitVec 52) :
    Canonical (ofFields sign exponent mantissa) ∧ Fits (ofFields sign exponent mantissa) := by
  have bits := mantissa.isLt
  have range := exponent.isLt
  unfold ofFields
  split
  case isTrue => split <;> exact ⟨trivial, trivial⟩
  case isFalse notLast =>
    have below : exponent.toNat ≠ 2047 := fun last => notLast (BitVec.eq_of_toNat_eq last)
    split
    case isTrue first =>
      have zero : exponent.toNat = 0 := congrArg BitVec.toNat first
      split
      case isTrue => exact ⟨trivial, trivial⟩
      case isFalse =>
        constructor
        · show target _ _ = _
          rw [zero]
          exact target_of_lt (.inl (by norm_num)) (by omega)
        · show (exponent.toNat : ℤ) - 1075 + 1 ≤ 971
          omega
    case isFalse notFirst =>
      have above : exponent.toNat ≠ 0 := fun first => notFirst (BitVec.eq_of_toNat_eq first)
      constructor
      · show target _ _ = _
        rw [toNat_one_append]
        exact target_of_lt (.inr ⟨by omega, by omega⟩) (by omega)
      · show (exponent.toNat : ℤ) - 1075 ≤ 971
        omega

/-- What is unpacked is in canonical form, and its exponent fits. -/
lemma canonical_unpack (b : BitVec 64) :
    Canonical (unpack Format.binary64 b) ∧ Fits (unpack Format.binary64 b) := by
  rw [unpack_eq_ofFields]
  exact canonical_ofFields _ _ _

/-! ### Packing -/

@[simp] lemma ofBitVec_toBitVec (sign : Sign) : Sign.ofBitVec sign.toBitVec = sign := by
  cases sign <;> rfl

lemma unpackSign_packComponents {spec : Format} (sign : Sign)
    (exponent : BitVec spec.exponentBits) (mantissa : BitVec spec.mantissaBitsWithoutImplicit) :
    unpackSign (packComponents spec sign exponent mantissa) = sign.toBitVec := by
  ext i hi
  obtain rfl : i = 0 := by omega
  simp [unpackSign, packComponents, BitVec.getLsbD_eq_getElem, BitVec.getLsbD_append,
    BitVec.getElem_append]

/-- Fields that are packed come apart again. -/
lemma unpack_packComponents (sign : Sign) (exponent : BitVec 11) (mantissa : BitVec 52) :
    unpack Format.binary64 (packComponents Format.binary64 sign exponent mantissa) =
      ofFields sign exponent mantissa := by
  rw [unpack_eq_ofFields, unpackSign_packComponents, unpackExponent_packComponents,
    unpackMantissa_packComponents, ofBitVec_toBitVec]

lemma pack_finite (sign : Sign) {m : ℕ} (e : ℤ) (positive : 0 < m) :
    pack Format.binary64 (.finite sign m e positive) =
      if 2048 ≤ (e + 1075).toNat + 1 then packedInfinity Format.binary64 sign
      else if m.log2 + 1 = 53 then
        packComponents Format.binary64 sign (BitVec.ofNat 11 (e + 1075).toNat) (BitVec.ofNat 52 m)
      else packComponents Format.binary64 sign 0#11 (BitVec.ofNat 52 m) := by
  have biased : e + 1075 = e + (Format.binary64.exponentBias : ℤ) + (52 : ℕ) := by
    rw [add_assoc]
    rfl
  rw [biased]
  rfl

/-- Packing keeps what is canonical and fits. -/
lemma unpack_pack_of_fits {u : UnpackedFloat} (canonical : Canonical u) (fits : Fits u) :
    unpack Format.binary64 (pack Format.binary64 u) = u := by
  cases u with
  | notANumber => exact unpack_packComponents _ _ _
  | infinity sign => exact unpack_packComponents _ _ _
  | zero sign => exact unpack_packComponents _ _ _
  | finite sign m e positive =>
    have settled : target m e = e := canonical
    have last : e ≤ 971 := fits
    have least := least_le_of_target settled
    have few := lt_of_target settled
    rw [pack_finite, if_neg (by omega)]
    split
    case isTrue full =>
      have many : 2 ^ 52 ≤ m := (Nat.le_log2 positive.ne').1 (by omega)
      have exponent : (BitVec.ofNat 11 (e + 1075).toNat).toNat = (e + 1075).toNat := by
        rw [BitVec.toNat_ofNat]
        omega
      have mantissa : (1#1 ++ BitVec.ofNat 52 m).toNat = m := by
        rw [toNat_one_append, BitVec.toNat_ofNat]
        omega
      have notLast : BitVec.ofNat 11 (e + 1075).toNat ≠ -1#11 := by
        intro equal
        have : (e + 1075).toNat = 2047 := exponent ▸ congrArg BitVec.toNat equal
        omega
      have notFirst : BitVec.ofNat 11 (e + 1075).toNat ≠ 0#11 := by
        intro equal
        have : (e + 1075).toNat = 0 := exponent ▸ congrArg BitVec.toNat equal
        omega
      rw [unpack_packComponents, ofFields, if_neg notLast, if_neg notFirst]
      simp only [exponent, mantissa, finite.injEq, true_and]
      omega
    case isFalse notFull =>
      have low : m < 2 ^ 52 := by
        rw [← Nat.log2_lt positive.ne']
        have := (Nat.log2_lt positive.ne').2 few
        omega
      have first : e = -1074 := by
        rcases le_of_target settled with first | ⟨many, _⟩
        · exact first
        · omega
      have mantissa : (BitVec.ofNat 52 m).toNat = m := by
        rw [BitVec.toNat_ofNat]
        omega
      have nonzero : BitVec.ofNat 52 m ≠ 0#52 := by
        intro equal
        have : m = 0 := mantissa ▸ congrArg BitVec.toNat equal
        omega
      rw [unpack_packComponents, ofFields, if_neg (by decide), if_pos rfl, dif_neg nonzero]
      simp [mantissa, first]

end Toolpath.Double
