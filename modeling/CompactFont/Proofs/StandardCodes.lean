import CompactFont.Outline.Pen
import CompactFont.Proofs.EncodingLookup
import CompactFont.Proofs.StringIds

set_option autoImplicit false

namespace CompactFont

section Numbers

open Float.Model (UnpackedFloat Format)
open Float.Model.UnpackedFloat (Sign unpackMantissa unpackExponent)

theorem eq_zero_of_compare {unpacked : UnpackedFloat} {sign : Sign}
    (same : unpacked.compare (.zero sign) = some .eq) : ∃ other, unpacked = .zero other := by
  cases unpacked with
  | zero other => exact ⟨other, rfl⟩
  | notANumber => cases same
  | infinity other => cases other <;> cases same
  | finite other => cases other <;> cases same

theorem eq_finite_of_compare {unpacked : UnpackedFloat} {sign : Sign} {mantissa : Nat}
    {exponent : Int} {positive : 0 < mantissa}
    (same : unpacked.compare (.finite sign mantissa exponent positive) = some .eq) :
    unpacked = .finite sign mantissa exponent positive := by
  cases unpacked with
  | notANumber => cases same
  | zero => cases sign <;> cases same
  | infinity other => cases other <;> cases same
  | finite other otherMantissa otherExponent =>
      have parts : other = sign ∧
          (compare otherExponent exponent).then (compare otherMantissa mantissa) = .eq := by
        cases other <;> cases sign
        · exact ⟨rfl, Ordering.swap_eq_eq.mp (Option.some.inj same)⟩
        · cases same
        · cases same
        · exact ⟨rfl, Option.some.inj same⟩
      obtain ⟨rfl, parts⟩ := parts
      obtain ⟨exponents, mantissas⟩ := Ordering.then_eq_eq.mp parts
      obtain rfl := Std.compare_eq_iff_eq.mp exponents
      obtain rfl := Std.compare_eq_iff_eq.mp mantissas
      rfl

theorem unpack_of_beq {number other : Float32} (same : (number == other) = true)
    (finite : other.isFinite = true) :
    (∃ sign otherSign, number.toModel.unpack = .zero sign ∧ other.toModel.unpack = .zero otherSign) ∨
      number.toModel.unpack = other.toModel.unpack := by
  have compared : number.toModel.unpack.compare other.toModel.unpack = some .eq := eq_of_beq same
  have isFinite : other.toModel.unpack.isFinite = true := finite
  cases unpacked : other.toModel.unpack with
  | notANumber | infinity =>
      rw [unpacked] at isFinite
      cases isFinite
  | zero otherSign =>
      rw [unpacked] at compared
      obtain ⟨sign, zero⟩ := eq_zero_of_compare compared
      exact .inl ⟨sign, otherSign, zero, rfl⟩
  | finite sign mantissa exponent positive =>
      rw [unpacked] at compared
      exact .inr (eq_finite_of_compare compared)

theorem beq_symm {number other : Float32} (same : (number == other) = true)
    (finite : other.isFinite = true) : (other == number) = true := by
  have compared : number.toModel.unpack.beq other.toModel.unpack = true := same
  have swapped : other.toModel.unpack.beq number.toModel.unpack = true := by
    rcases unpack_of_beq same finite with ⟨sign, otherSign, zero, otherZero⟩ | alike
    · rw [zero, otherZero]
      rfl
    · rw [alike] at compared ⊢
      exact compared
  exact swapped

theorem whole_of_beq {number other : Float32} (same : (number == other) = true)
    (finite : other.isFinite = true) :
    number.isFinite = true ∧ integerPart number = integerPart other := by
  have isFinite : other.toModel.unpack.isFinite = true := finite
  have parts : number.toModel.unpack.isFinite = true ∧
      number.toModel.unpack.toInt32 = other.toModel.unpack.toInt32 := by
    rcases unpack_of_beq same finite with ⟨sign, otherSign, zero, otherZero⟩ | alike
    · rw [zero, otherZero]
      exact ⟨rfl, rfl⟩
    · rw [alike]
      exact ⟨isFinite, rfl⟩
  exact ⟨parts.1, congrArg Int32.toInt parts.2⟩

inductive Unpacks (bits : BitVec Format.binary32.numBits) : UnpackedFloat → Prop where
  | special {value : UnpackedFloat} (all : (unpackExponent bits).toNat = 255)
      (notFinite : value.isFinite = false) : Unpacks bits value
  | zero (sign : Sign) : Unpacks bits (.zero sign)
  | subnormal (sign : Sign) {mantissa : Nat} (positive : 0 < mantissa) :
      Unpacks bits (.finite sign mantissa (-149) positive)
  | normal (sign : Sign) {mantissa : Nat} (positive : 0 < mantissa) (digits : 8388608 ≤ mantissa) :
      Unpacks bits (.finite sign mantissa ((unpackExponent bits).toNat - 150) positive)

theorem unpacks (bits : BitVec Format.binary32.numBits) :
    Unpacks bits (UnpackedFloat.unpack .binary32 bits) := by
  delta UnpackedFloat.unpack
  dsimp only
  by_cases all : unpackExponent bits = -1#_
  · have ones : (unpackExponent bits).toNat = 255 := congrArg BitVec.toNat all
    rw [if_pos all]
    by_cases infinite : unpackMantissa bits = 0#_
    · rw [if_pos infinite]
      exact .special ones rfl
    · rw [if_neg infinite]
      exact .special ones rfl
  · rw [if_neg all]
    by_cases none : unpackExponent bits = 0#_
    · rw [if_pos none]
      by_cases zero : unpackMantissa bits = 0#_
      · rw [dif_pos zero]
        exact .zero _
      · have least : ((unpackExponent bits).toNat : Int) - (Format.binary32.exponentBias +
            Format.binary32.mantissaBitsWithoutImplicit) + 1 = -149 := by
          rw [none]
          rfl
        rw [dif_neg zero, least]
        exact .subnormal _ _
    · rw [if_neg none]
      refine .normal _ _ ?_
      rw [BitVec.toNat_append, ← Nat.shiftLeft_add_eq_or_of_lt (unpackMantissa bits).isLt]
      exact Nat.le_add_right 8388608 _

theorem le_mantissa_of_unpack {bits : BitVec Format.binary32.numBits} {sign : Sign} {mantissa : Nat}
    {exponent : Int} {positive : 0 < mantissa}
    (finite : UnpackedFloat.unpack .binary32 bits = .finite sign mantissa exponent positive)
    (whole : 0 ≤ exponent) : 8388608 ≤ mantissa := by
  have parts := unpacks bits
  rw [finite] at parts
  cases parts with
  | special all notFinite => cases notFinite
  | subnormal => exact absurd whole (by decide)
  | normal _ _ digits => exact digits

theorem unpack_first_all_whole :
    firstAllWhole.toModel.unpack = .finite .positive 8388608 0 (by decide) := by
  rfl

theorem first_all_whole_le_fraction (sign : Sign) {mantissa : Nat} (positive : 0 < mantissa)
    {exponent : Int} (fraction : exponent < 0) :
    firstAllWhole.toModel.unpack.le (.finite sign mantissa exponent positive) = false := by
  rw [unpack_first_all_whole]
  cases sign with
  | negative => rfl
  | positive =>
      have exponents : compare 0 exponent = .gt := Std.compare_eq_gt.mpr fraction
      have compared : UnpackedFloat.compare (.finite .positive 8388608 0 (by decide))
          (.finite .positive mantissa exponent positive) =
            some ((compare 0 exponent).then (compare 8388608 mantissa)) := rfl
      rw [UnpackedFloat.le, compared, exponents]
      rfl

theorem first_all_whole_le_packed {bits : BitVec Format.binary32.numBits}
    (small : (unpackExponent bits).toNat < 150) :
    firstAllWhole.toModel.unpack.le (UnpackedFloat.unpack .binary32 bits) = false := by
  have parts := unpacks bits
  generalize UnpackedFloat.unpack .binary32 bits = value at parts
  cases parts with
  | special all => omega
  | zero sign =>
      rw [unpack_first_all_whole]
      rfl
  | subnormal sign positive => exact first_all_whole_le_fraction sign positive (by decide)
  | normal sign positive => exact first_all_whole_le_fraction sign positive (by omega)

theorem unpack_exponent_pack_lt (sign : Sign) {mantissa : Nat} (positive : 0 < mantissa)
    {exponent : Int} (fraction : exponent < 0) :
    (unpackExponent (UnpackedFloat.pack .binary32 (.finite sign mantissa exponent positive))).toNat <
      150 := by
  have biased : ¬ 256 ≤ (exponent + 127 + 23).toNat + 1 := by omega
  have packed : UnpackedFloat.pack .binary32 (.finite sign mantissa exponent positive) =
      if 256 ≤ (exponent + 127 + 23).toNat + 1 then UnpackedFloat.packedInfinity .binary32 sign
      else if mantissa.log2 + 1 = 24 then
        UnpackedFloat.packComponents .binary32 sign (.ofNat 8 (exponent + 127 + 23).toNat)
          (.ofNat 23 mantissa)
      else UnpackedFloat.packComponents .binary32 sign 0#8 (.ofNat 23 mantissa) := rfl
  rw [packed, if_neg biased]
  split
  · rw [UnpackedFloat.unpackExponent_packComponents, BitVec.toNat_ofNat]
    exact Nat.lt_of_le_of_lt (Nat.mod_le _ _) (by omega)
  · rw [UnpackedFloat.unpackExponent_packComponents]
    decide

theorem round_to_int_of_whole (sign : Sign) (mantissa : Nat) {exponent : Int} (whole : 0 ≤ exponent) :
    UnpackedFloat.roundToInt sign mantissa exponent =
      sign.apply (mantissa <<< exponent.toNat : Nat) := by
  have noShift : (0 - (exponent - (exponent - 0).toNat)).toNat = 0 := by omega
  simp only [UnpackedFloat.roundToInt, UnpackedFloat.decreaseExponent,
    UnpackedFloat.shiftToExponent, noShift]
  rw [Int.sub_zero]
  rfl

-- The integers of 32 bits end far from 0, so that a large integer stays large when it is clamped.
theorem to_int_of_int_clamp_large {value : Int} (large : value < 0 ∨ 8388608 ≤ value) :
    (Int32.ofIntClamp value).toInt < 0 ∨ 8388608 ≤ (Int32.ofIntClamp value).toInt := by
  unfold Int32.ofIntClamp
  split
  · split
    · rw [Int32.toInt_ofIntLE]
      exact large
    · exact .inr (by decide)
  · exact .inl (by decide)

theorem apply_large (sign : Sign) {magnitude : Nat} (large : 8388608 ≤ magnitude) :
    sign.apply magnitude < 0 ∨ 8388608 ≤ sign.apply magnitude := by
  cases sign with
  | negative =>
      left
      rw [Sign.apply]
      omega
  | positive =>
      right
      rw [Sign.apply]
      omega

theorem integer_part_of_large {number : Float32} (large : firstAllWhole ≤ number.abs)
    (finite : number.isFinite = true) :
    integerPart number < 0 ∨ 8388608 ≤ integerPart number := by
  have greater : firstAllWhole.toModel.unpack.le
      (Float32.Model.pack number.toModel.unpack.abs).unpack = true :=
    of_decide_eq_true large
  have isFinite : number.toModel.unpack.isFinite = true := finite
  rw [integerPart]
  generalize unpacked : number.toModel.unpack = value at greater isFinite ⊢
  cases value with
  | infinity | notANumber => cases isFinite
  | zero sign =>
      have less : firstAllWhole.toModel.unpack.le (Float32.Model.pack (.zero .positive)).unpack = false :=
        first_all_whole_le_packed (by decide)
      exact absurd (less.symm.trans greater) Bool.false_ne_true
  | finite sign mantissa exponent positive =>
      by_cases fraction : exponent < 0
      · have less := first_all_whole_le_packed (unpack_exponent_pack_lt .positive positive fraction)
        exact absurd (less.symm.trans greater) Bool.false_ne_true
      · have whole := Int.not_lt.mp fraction
        have digits : 8388608 ≤ mantissa <<< exponent.toNat :=
          Nat.le_trans (le_mantissa_of_unpack unpacked whole) Nat.le_shiftLeft
        have rounded : UnpackedFloat.toInt Int32.minValue.toInt Int32.maxValue.toInt
            (.finite sign mantissa exponent positive) =
              sign.apply (mantissa <<< exponent.toNat : Nat) :=
          round_to_int_of_whole sign mantissa whole
        refine to_int_of_int_clamp_large ?_
        rw [rounded]
        exact apply_large sign digits

theorem integer_part_of_nat : ∀ code < 256, (Float32.ofNat code).isFinite = true ∧
    integerPart (Float32.ofNat code) = code := by
  decide +kernel

theorem beq_of_nat_iff {number : Float32} {code : Nat} (small : code < 256) :
    (number == Float32.ofNat code) = true ↔
      Coordinate.isWhole number = true ∧ Coordinate.truncate number = code := by
  obtain ⟨finite, part⟩ := integer_part_of_nat code small
  have whole : Coordinate.isWhole number = true ↔ number.isFinite = true ∧
      (firstAllWhole ≤ number.abs ∨ (Float32.ofInt (integerPart number) == number) = true) := by
    simp [Coordinate.isWhole]
  rw [whole]
  constructor
  · intro same
    obtain ⟨isFinite, truncated⟩ := whole_of_beq same finite
    rw [part] at truncated
    refine ⟨⟨isFinite, .inr ?_⟩, truncated⟩
    rw [truncated]
    exact beq_symm same finite
  · rintro ⟨⟨isFinite, large | same⟩, truncated⟩
    · have outside := integer_part_of_large large isFinite
      have inside : integerPart number = code := truncated
      omega
    · have inside : integerPart number = code := truncated
      rw [inside] at same
      exact beq_symm same isFinite

def codeOf? (number : Float32) : Option Nat :=
  (List.range 256).find? fun code => number == Float32.ofNat code

theorem code_of_eq_some_iff {number : Float32} {code : Nat} :
    codeOf? number = some code ↔
      code < 256 ∧ Coordinate.isWhole number = true ∧ Coordinate.truncate number = code := by
  have parts {other : Nat} (found : codeOf? number = some other) :
      other < 256 ∧ Coordinate.isWhole number = true ∧ Coordinate.truncate number = other := by
    have small := List.mem_range.mp (List.mem_of_find?_eq_some found)
    have same := List.find?_some found
    exact ⟨small, (beq_of_nat_iff small).mp same⟩
  refine ⟨parts, fun ⟨small, whole, truncated⟩ => ?_⟩
  cases found : codeOf? number with
  | none =>
      have different := List.find?_eq_none.mp found code (List.mem_range.mpr small)
      exact absurd ((beq_of_nat_iff small).mpr ⟨whole, truncated⟩) different
  | some other =>
      obtain ⟨-, -, again⟩ := parts found
      have codes : (other : Int) = code := again.symm.trans truncated
      rw [Int.ofNat_inj.mp codes]

end Numbers

section Names

theorem standard_encoding_standard : ∀ id ∈ standardEncoding.toList, id < standardStrings.size := by
  decide +kernel

theorem glyph_of_name_eq_standard (charset : Charset) (strings : Strings) {code id : Nat}
    (encoded : standardEncoding[code]? = some id) :
    (charset.glyphOfName strings (strings.get id)).toOption.getD 0 =
      Encoding.standard.glyphOf charset code := by
  have named : strings.idOf? (strings.get id) = some id := by
    refine strings.id_of_get (standard_encoding_standard id ?_)
    rw [← Array.getElem?_toList] at encoded
    exact List.mem_of_getElem? encoded
  rw [charset.glyph_of_name_eq, named, Encoding.glyphOf, encoded, Encoding.glyphOfNameId,
    charset.glyph_of_name_id_eq, Option.getD_some]

end Names

end CompactFont
