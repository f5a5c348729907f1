import CompactFont.Charstring.Type2
import CompactFont.Proofs.LexemeBoundary

set_option autoImplicit false

namespace CompactFont

namespace Type2

def operandAt (count place : Nat) : Int := place - bias count

theorem bias_range (count : Nat) : 107 ≤ bias count ∧ bias count ≤ 32768 := by
  unfold bias
  split
  · decide
  · split <;> decide

-- With the least bias that lets the first place be written, the last one can be written too.
theorem operand_at_range {count place : Nat} (few : count ≤ 65535) (inside : place < count) :
    -32768 ≤ operandAt count place ∧ operandAt count place ≤ 32767 := by
  unfold operandAt bias
  split
  · omega
  · split <;> omega

section Words

theorem word_of_clamp (value : Int) :
    (Int32.ofIntClamp value).toInt = max (-2147483648) (min value 2147483647) := by
  have least : Int32.minValue.toInt = -2147483648 := rfl
  have greatest : Int32.maxValue.toInt = 2147483647 := rfl
  unfold Int32.ofIntClamp
  split
  · split
    · rw [Int32.toInt_ofIntLE]
      omega
    · omega
  · omega

theorem word_of_bias (count : Nat) : (Int32.ofInt (bias count)).toInt = bias count := by
  have range := bias_range count
  exact Int32.toInt_ofInt_of_le (by omega) (by omega)

theorem overflow_iff (first second : Int32) :
    first.toBitVec.saddOverflow second.toBitVec = true ↔
      2147483648 ≤ first.toInt + second.toInt ∨ first.toInt + second.toInt < -2147483648 := by
  rw [BitVec.saddOverflow, Bool.or_eq_true, decide_eq_true_iff, decide_eq_true_iff,
    Int32.toInt_toBitVec, Int32.toInt_toBitVec]
  exact Iff.rfl

theorem word_of_sum {first second : Int32}
    (fits : ¬ first.toBitVec.saddOverflow second.toBitVec = true) :
    (first + second).toInt = first.toInt + second.toInt :=
  BitVec.toInt_add_of_not_saddOverflow fits

end Words

-- A place is what the sum is without any limit, if it is one and fits. An operand that was cut off
-- never leads to one, as the bias is positive and takes the sum over the upper limit.
theorem place_eq_some_iff {count place : Nat} {operand : Number} :
    place? count operand = some place ↔
      operand.truncate = operandAt count place ∧ place ≤ 2147483647 := by
  have range := bias_range count
  have word := word_of_clamp operand.truncate
  have shift := word_of_bias count
  have overflow := overflow_iff (Int32.ofIntClamp operand.truncate) (Int32.ofInt (bias count))
  rw [shift] at overflow
  have zero : (0 : Int32).toInt = 0 := rfl
  unfold place? operandAt
  dsimp only
  split
  · rename_i leaves
    have far := overflow.mp leaves
    exact iff_of_false nofun (by omega)
  · rename_i fits
    have sum := word_of_sum fits
    rw [shift] at sum
    rw [overflow] at fits
    split
    · rename_i negative
      rw [Int32.lt_iff_toInt_lt, sum, zero] at negative
      exact iff_of_false nofun (by omega)
    · rename_i natural
      rw [Int32.lt_iff_toInt_lt, sum, zero] at natural
      rw [Option.some.injEq, Int32.toNatClampNeg, sum]
      omega

theorem subroutine_of_place {index : Index} {operand : Number} {place : Nat}
    (placed : operand.truncate = operandAt index.count place) (fits : place ≤ 2147483647) :
    subroutine? index operand = index.get? place := by
  rw [subroutine?, place_eq_some_iff.mpr ⟨placed, fits⟩, Option.bind_some]

theorem place_of_subroutine {index : Index} {operand : Number} {body : Bytes}
    (found : subroutine? index operand = some body) :
    ∃ place, operand.truncate = operandAt index.count place ∧ index.get? place = some body := by
  obtain ⟨place, selected, stored⟩ := Option.bind_eq_some_iff.mp found
  exact ⟨place, (place_eq_some_iff.mp selected).1, stored⟩

end Type2

namespace Lexeme

-- Numbers in a charstring have 16 bits before the point, and all of the fraction may round them up.
def HasWord : Lexeme Number → Prop
  | .number value => -32768 ≤ value.truncate ∧ value.truncate ≤ 32768
  | .command _ => True

theorem yields_i16 : Reader.Yields (fun value => -32768 ≤ value ∧ value ≤ 32767) Field.i16.read := by
  refine Reader.yields_mono (fun value bounds => ?_) (Field.yields_signed 2)
  have span : byteSpan 2 = 65536 := rfl
  rw [span] at bounds
  exact ⟨by omega, by omega⟩

theorem truncate_fixed_range {whole : Int} {fraction : Nat} (low : -32768 ≤ whole)
    (high : whole ≤ 32767) (part : fraction < 65536) :
    -32768 ≤ (Number.fixed whole fraction).truncate ∧
      (Number.fixed whole fraction).truncate ≤ 32768 := by
  rw [Number.truncate]
  have least : (-32768 : Int) = Int.tdiv (-32768 * 65535) 65535 := by decide
  have most : (32768 : Int) = Int.tdiv (32768 * 65535) 65535 := by decide
  rw [least, most]
  exact ⟨Int.tdiv_le_tdiv (by decide) (by omega), Int.tdiv_le_tdiv (by decide) (by omega)⟩

theorem yields_type2_from (first : Nat) : Reader.Yields HasWord (type2From first) := by
  have any {reader : Reader Key} : Reader.Yields (fun _ => True) reader := fun _ _ _ _ => trivial
  unfold type2From
  split
  · refine Reader.yields_map yields_i16 fun value range => ?_
    exact ⟨range.1, Int.le_trans range.2 (by decide)⟩
  · split
    · refine Reader.yields_map (Field.yields_pair yields_i16 Field.yields_u16) fun both range => ?_
      exact truncate_fixed_range range.1.1 range.1.2 range.2
    · split
      · exact Reader.yields_map any fun _ _ => trivial
      · refine Reader.yields_map (Integer.yields_short first) fun value range => ?_
        exact ⟨Int.le_trans (by decide) range.1, Int.le_trans range.2 (by decide)⟩

theorem yields_read_type2 : Reader.Yields HasWord readType2 :=
  Reader.yields_bind Field.yields_u8 fun first _ => yields_type2_from first

end Lexeme

end CompactFont
