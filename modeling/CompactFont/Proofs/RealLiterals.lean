import Mathlib.Data.List.TakeDrop
import CompactFont.Proofs.RealText

set_option autoImplicit false

namespace CompactFont

namespace Decimal

def digitChar (digit : Fin 10) : Char := Char.ofNat ('0'.toNat + digit)

def digitsText (digits : List (Fin 10)) : List Char := digits.map digitChar

def digitsNumber (digits : List (Fin 10)) : Nat :=
  digits.foldl (fun (total : Nat) (digit : Fin 10) => total * 10 + digit.val) 0

structure Exponent where
  negative : Bool
  digits : List (Fin 10)
  nonempty : digits ≠ []

structure Numeral where
  negative : Bool
  whole : List (Fin 10)
  fraction? : Option (List (Fin 10))
  exponent? : Option Exponent
  hasDigit : whole ++ fraction?.getD [] ≠ []

namespace Exponent

def text (exponent : Exponent) : List Char :=
  'E' :: ((if exponent.negative then ['-'] else []) ++ digitsText exponent.digits)

def power (exponent : Exponent) : Int :=
  if exponent.negative then -digitsNumber exponent.digits else digitsNumber exponent.digits

end Exponent

namespace Numeral

def fractionText (numeral : Numeral) : List Char :=
  match numeral.fraction? with
  | none => []
  | some digits => '.' :: digitsText digits

def exponentText (numeral : Numeral) : List Char :=
  match numeral.exponent? with
  | none => []
  | some exponent => exponent.text

def text (numeral : Numeral) : List Char :=
  (if numeral.negative then ['-'] else []) ++ digitsText numeral.whole ++ numeral.fractionText ++
    numeral.exponentText

def value (numeral : Numeral) : Literal where
  negative := numeral.negative
  digits := digitsNumber (numeral.whole ++ numeral.fraction?.getD [])
  power := numeral.exponent?.elim 0 Exponent.power - (numeral.fraction?.getD []).length

end Numeral

section Reading

theorem is_digit_digit_char (digit : Fin 10) : (digitChar digit).isDigit = true := by
  revert digit
  decide

theorem digit_char_plain (digit : Fin 10) :
    digitChar digit ≠ '-' ∧ digitChar digit ≠ '.' ∧ digitChar digit ≠ 'E' := by
  revert digit
  decide

theorem to_nat_digit_char (digit : Fin 10) : (digitChar digit).toNat - '0'.toNat = digit := by
  revert digit
  decide

theorem all_digits_text (digits : List (Fin 10)) : (digitsText digits).all Char.isDigit = true := by
  simp [digitsText, is_digit_digit_char]

theorem digits_value_digits_text (digits : List (Fin 10)) :
    Literal.digitsValue (digitsText digits) = digitsNumber digits := by
  simp only [Literal.digitsValue, digitsText, digitsNumber, List.foldl_map, to_nat_digit_char]

theorem span_digits_text (digits : List (Fin 10)) {rest : List Char}
    (other : ∀ char ∈ rest.head?, char.isDigit = false) :
    (digitsText digits ++ rest).span Char.isDigit = (digitsText digits, rest) := by
  have each : ∀ char ∈ digitsText digits, char.isDigit = true :=
    List.all_eq_true.mp (all_digits_text digits)
  rw [List.span_eq_takeWhile_dropWhile, List.takeWhile_append_of_pos each,
    List.dropWhile_append_of_pos each]
  cases rest with
  | nil => simp
  | cons char rest => simp [other char rfl]

theorem magnitude_digits_text {digits : List (Fin 10)} (nonempty : digits ≠ []) :
    Literal.exponent?.magnitude? (digitsText digits) = some (digitsNumber digits) := by
  have some : digitsText digits ≠ [] := by simpa [digitsText] using nonempty
  rw [Literal.exponent?.magnitude?, if_pos ⟨some, all_digits_text digits⟩, digits_value_digits_text]

theorem exponent_text (exponent : Exponent) :
    Literal.exponent? exponent.text = some exponent.power := by
  obtain ⟨negative, digits, nonempty⟩ := exponent
  have magnitude := magnitude_digits_text nonempty
  cases negative with
  | true => simp [Exponent.text, Exponent.power, Literal.exponent?, magnitude]
  | false =>
      cases digits with
      | nil => exact absurd rfl nonempty
      | cons first rest =>
          have unsigned := (digit_char_plain first).1
          simp_all [Exponent.text, Exponent.power, Literal.exponent?, digitsText]

theorem exponent_exponent_text (numeral : Numeral) :
    Literal.exponent? numeral.exponentText = some (numeral.exponent?.elim 0 Exponent.power) := by
  unfold Numeral.exponentText
  cases numeral.exponent? with
  | none => rfl
  | some exponent => exact exponent_text exponent

theorem head_exponent_text (numeral : Numeral) :
    ∀ char ∈ numeral.exponentText.head?, char = 'E' := by
  unfold Numeral.exponentText
  cases numeral.exponent? with
  | none => nofun
  | some exponent =>
      intro char first
      exact (Option.some.inj first).symm

theorem head_not_digit {rest : List Char} (mark : ∀ char ∈ rest.head?, char = 'E') :
    ∀ char ∈ rest.head?, char.isDigit = false := by
  intro char first
  obtain rfl := mark char first
  rfl

theorem digits_text_append (front back : List (Fin 10)) :
    digitsText front ++ digitsText back = digitsText (front ++ back) :=
  (List.map_append ..).symm

theorem unsigned_text (numeral : Numeral) :
    Literal.unsigned? numeral.negative
      (digitsText numeral.whole ++ (numeral.fractionText ++ numeral.exponentText)) =
        some numeral.value := by
  have mark := head_exponent_text numeral
  have power := exponent_exponent_text numeral
  obtain ⟨negative, whole, fraction?, exponent?, hasDigit⟩ := numeral
  generalize Numeral.exponentText _ = tail at mark power
  unfold Literal.unsigned? Numeral.fractionText Numeral.value
  cases fraction? with
  | none =>
      have some : digitsText whole ≠ [] := by simpa [digitsText] using hasDigit
      rw [List.nil_append, span_digits_text whole (head_not_digit mark)]
      cases tail with
      | nil => simp_all [digits_value_digits_text]
      | cons char rest =>
          obtain rfl := mark char rfl
          simp [some, power, digits_value_digits_text]
  | some digits =>
      have some : digitsText (whole ++ digits) ≠ [] := by simpa [digitsText] using hasDigit
      rw [List.cons_append, span_digits_text whole (by simp)]
      simp only [span_digits_text digits (head_not_digit mark), digits_text_append, if_neg some, power,
        digits_value_digits_text]
      simp [digitsText]

theorem of_text_of_unsigned {text : List Char} (unsigned : text.head? ≠ some '-') :
    Literal.ofText? text = Literal.unsigned? false text := by
  unfold Literal.ofText?
  split
  · exact absurd rfl unsigned
  · rfl

theorem head_unsigned (numeral : Numeral) :
    (digitsText numeral.whole ++ (numeral.fractionText ++ numeral.exponentText)).head? ≠ some '-' := by
  obtain ⟨negative, whole, fraction?, exponent?, hasDigit⟩ := numeral
  cases whole with
  | cons first rest => simpa [digitsText] using (digit_char_plain first).1
  | nil =>
      cases fraction? with
      | none => exact absurd rfl hasDigit
      | some digits => simp [digitsText, Numeral.fractionText]

theorem of_text_text (numeral : Numeral) : Literal.ofText? numeral.text = some numeral.value := by
  have number := unsigned_text numeral
  have unsigned := head_unsigned numeral
  rw [Numeral.text, List.append_assoc, List.append_assoc]
  cases sign : numeral.negative with
  | true =>
      rw [sign] at number
      exact number
  | false =>
      rw [sign] at number
      exact (of_text_of_unsigned unsigned).trans number

end Reading

end Decimal

namespace Dict.Real

def nibblesOf? : List Char → Option (List Nat)
  | [] => some []
  | 'E' :: '-' :: rest => (nibblesOf? rest).map (12 :: ·)
  | 'E' :: rest => (nibblesOf? rest).map (11 :: ·)
  | '.' :: rest => (nibblesOf? rest).map (10 :: ·)
  | '-' :: rest => (nibblesOf? rest).map (14 :: ·)
  | char :: rest =>
      if char.isDigit then (nibblesOf? rest).map ((char.toNat - '0'.toNat) :: ·) else none

def encode? (text : List Char) : Option Bytes := (nibblesOf? text).map fun nibbles => 30 :: packed nibbles

theorem is_digit_iff {char : Char} :
    char.isDigit = true ↔ '0'.toNat ≤ char.toNat ∧ char.toNat ≤ '9'.toNat := by
  simp [Char.isDigit, UInt32.le_iff_toNat_le]

theorem characters_nibbles_of {text : List Char} {nibbles : List Nat}
    (written : nibblesOf? text = some nibbles) :
    nibbles.flatMap characters = text ∧ ∀ nibble ∈ nibbles, nibble < 15 ∧ nibble ≠ 13 := by
  fun_induction nibblesOf? text generalizing nibbles with
  | case1 =>
      obtain rfl := Option.some.inj written
      exact ⟨rfl, nofun⟩
  | case2 rest ih | case3 rest _ ih | case4 rest ih | case5 rest ih =>
      obtain ⟨later, found, rfl⟩ := Option.map_eq_some_iff.mp written
      obtain ⟨same, each⟩ := ih found
      refine ⟨by simp [characters, same], ?_⟩
      rw [List.forall_mem_cons]
      exact ⟨by decide, each⟩
  | case6 char rest _ _ _ _ digit ih =>
      obtain ⟨later, found, rfl⟩ := Option.map_eq_some_iff.mp written
      obtain ⟨same, each⟩ := ih found
      obtain ⟨low, high⟩ := is_digit_iff.mp digit
      have nine : '9'.toNat = '0'.toNat + 9 := rfl
      have back : '0'.toNat + (char.toNat - '0'.toNat) = char.toNat := Nat.add_sub_cancel' low
      have small : char.toNat - '0'.toNat < 10 := by omega
      rw [List.forall_mem_cons]
      refine ⟨?_, ⟨by omega, by omega⟩, each⟩
      rw [List.flatMap_cons, characters, if_pos small, back, Char.ofNat_toNat, same,
        List.singleton_append]
  | case7 => cases written

section Finished

def Finished (nibbles : List Nat) : Prop :=
  ∃ front last, nibbles = front ++ [last] ∧ (last < 10 ∨ last = 10 ∧ front.any isMark = false)

theorem awaits_digit_write {spelling : Spelling}
    (marked : spelling.awaitsDigit = true → spelling.hasExponent = true) (nibble : Nat) :
    (spelling.write nibble).awaitsDigit = true → (spelling.write nibble).hasExponent = true := by
  by_cases idle : isIdle spelling.hasExponent nibble = true
  · rwa [Spelling.write_of_idle idle]
  · rw [Spelling.has_exponent_write, Spelling.write, if_neg idle]
    simp only [Bool.or_eq_true, Bool.and_eq_true]
    rintro (mark | ⟨awaits, -⟩)
    · exact .inr mark
    · exact .inl (marked awaits)

theorem awaits_digit_foldl_write (nibbles : List Nat) {spelling : Spelling}
    (marked : spelling.awaitsDigit = true → spelling.hasExponent = true) :
    (nibbles.foldl Spelling.write spelling).awaitsDigit = true →
      (nibbles.foldl Spelling.write spelling).hasExponent = true := by
  induction nibbles generalizing spelling with
  | nil => exact marked
  | cons nibble rest ih => exact ih (awaits_digit_write marked nibble)

theorem characters_of_le :
    ∀ nibble ≤ 10, (characters nibble).length = 1 ∧ '-' ∉ characters nibble := by
  decide

theorem unmarked_of_le {nibble : Nat} (small : nibble ≤ 10) (marked : Bool) :
    isMark nibble = false ∧ isIdle marked nibble = false := by
  have other : nibble ≠ 11 ∧ nibble ≠ 12 ∧ nibble ≠ 13 := by omega
  simp [isIdle, isMark, other]

theorem essential_of_plain (marked : Bool) {nibbles : List Nat}
    (plain : ∀ nibble ∈ nibbles, nibble ≠ 13 ∧ isMark nibble = false) :
    essential marked nibbles = nibbles ∧ nibbles.any isMark = false := by
  induction nibbles with
  | nil => exact ⟨rfl, rfl⟩
  | cons nibble rest ih =>
      obtain ⟨⟨other, noMark⟩, later⟩ := List.forall_mem_cons.mp plain
      obtain ⟨same, unmarked⟩ := ih later
      have busy : ¬ isIdle marked nibble = true := by simp [isIdle, other, noMark]
      rw [essential, if_neg busy, noMark, Bool.or_false, same, List.any_cons, noMark, unmarked]
      exact ⟨rfl, rfl⟩

theorem text_of_complete {char : Char} (noSign : char ≠ '-') (reversed : List Char) (marked : Bool) :
    Spelling.text ⟨char :: reversed, marked, false⟩ = (char :: reversed).reverse := by
  unfold Spelling.text
  simp only [Bool.false_eq_true, if_false]
  split
  · next same => exact absurd (List.cons.inj same).1 noSign
  · rfl

theorem text_of_finished {nibbles : List Nat} (finished : Finished nibbles) :
    (nibbles.foldl Spelling.write .start).text = spelt nibbles := by
  have reversed := Spelling.reversed_foldl_write nibbles .start
  obtain ⟨front, last, rfl, ending⟩ := finished
  have few : last ≤ 10 := by omega
  obtain ⟨single, noSign⟩ := characters_of_le last few
  obtain ⟨char, only⟩ := List.length_eq_one_iff.mp single
  rw [only, List.mem_singleton] at noSign
  have exponent := Spelling.has_exponent_foldl_write front .start
  have awaited : (front.foldl Spelling.write .start).awaitsDigit = true →
      (front.foldl Spelling.write .start).hasExponent = true := awaits_digit_foldl_write front nofun
  rw [List.foldl_append, List.foldl_cons, List.foldl_nil] at reversed ⊢
  generalize front.foldl Spelling.write .start = before at exponent awaited reversed
  obtain ⟨noMark, busy⟩ := unmarked_of_le few before.hasExponent
  have complete : (before.awaitsDigit && decide (10 ≤ last)) = false := by
    rcases ending with digit | ⟨rfl, unmarked⟩
    · simp [Nat.not_le.mpr digit]
    · rw [unmarked] at exponent
      cases awaits : before.awaitsDigit with
      | false => rfl
      | true => cases exponent.symm.trans (awaited awaits)
  have written : before.write last = ⟨char :: before.reversed, before.hasExponent, false⟩ := by
    rw [Spelling.write, if_neg (by simp [busy]), only, noMark, Bool.or_false, Bool.false_or, complete]
    rfl
  rw [written] at reversed ⊢
  rw [text_of_complete (Ne.symm noSign)]
  exact (congrArg List.reverse reversed).trans (by simp [spelt, Spelling.start])

theorem not_overlong_of_finished {nibbles : List Nat} (finished : Finished nibbles)
    (short : (spelt nibbles).length ≤ maxText + 1) : ¬ Overlong nibbles := by
  rintro ⟨-, tooLong⟩
  obtain ⟨front, last, rfl, ending⟩ := finished
  have few : last ≤ 10 := by omega
  have single := (characters_of_le last few).1
  have shape : spelt (front ++ [last]) = spelt front ++ characters last := by
    rw [spelt, essential_append, Bool.false_or, essential, if_neg (by simp [unmarked_of_le few]),
      essential, List.flatMap_append, List.flatMap_singleton, spelt]
  rw [shape, List.length_append, single] at short
  rw [List.dropLast_concat] at tooLong
  omega

end Finished

end Dict.Real

namespace Decimal.Numeral

open Dict.Real

def fractionNibbles (numeral : Numeral) : List Nat :=
  match numeral.fraction? with
  | none => []
  | some digits => 10 :: digits.map Fin.val

def exponentNibbles (numeral : Numeral) : List Nat :=
  match numeral.exponent? with
  | none => []
  | some exponent => (if exponent.negative then 12 else 11) :: exponent.digits.map Fin.val

def mantissaNibbles (numeral : Numeral) : List Nat :=
  (if numeral.negative then [14] else []) ++ numeral.whole.map Fin.val ++ numeral.fractionNibbles

def nibbles (numeral : Numeral) : List Nat := numeral.mantissaNibbles ++ numeral.exponentNibbles

theorem nibbles_of_digit (digit : Fin 10) (rest : List Char) :
    nibblesOf? (digitChar digit :: rest) = (nibblesOf? rest).map (digit.val :: ·) := by
  obtain ⟨noSign, noPoint, noMark⟩ := digit_char_plain digit
  rw [nibblesOf?, if_pos (is_digit_digit_char digit), to_nat_digit_char]
  all_goals simp [noSign, noPoint, noMark]

theorem nibbles_of_digits (digits : List (Fin 10)) {rest : List Char} {nibbles : List Nat}
    (later : nibblesOf? rest = some nibbles) :
    nibblesOf? (digitsText digits ++ rest) = some (digits.map Fin.val ++ nibbles) := by
  induction digits with
  | nil => exact later
  | cons digit digits ih =>
      have shape : digitsText (digit :: digits) ++ rest =
          digitChar digit :: (digitsText digits ++ rest) := rfl
      rw [shape, nibbles_of_digit, ih]
      rfl

theorem nibbles_of_exponent_text (numeral : Numeral) :
    nibblesOf? numeral.exponentText = some numeral.exponentNibbles := by
  unfold exponentText exponentNibbles
  cases numeral.exponent? with
  | none => rfl
  | some exponent =>
      obtain ⟨negative, digits, nonempty⟩ := exponent
      have later : nibblesOf? (digitsText digits) = some (digits.map Fin.val) := by
        simpa using nibbles_of_digits digits (rfl : nibblesOf? [] = some [])
      cases negative with
      | true => simp [Exponent.text, nibblesOf?, later]
      | false =>
          cases digits with
          | nil => exact absurd rfl nonempty
          | cons first rest =>
              have unsigned := (digit_char_plain first).1
              simp_all [Exponent.text, nibblesOf?, digitsText]

theorem nibbles_of_fraction_text (numeral : Numeral) {rest : List Char} {nibbles : List Nat}
    (later : nibblesOf? rest = some nibbles) :
    nibblesOf? (numeral.fractionText ++ rest) = some (numeral.fractionNibbles ++ nibbles) := by
  unfold fractionText fractionNibbles
  cases numeral.fraction? with
  | none => exact later
  | some digits => simp [nibblesOf?, nibbles_of_digits digits later]

theorem nibbles_of_text (numeral : Numeral) : nibblesOf? numeral.text = some numeral.nibbles := by
  have mantissa := nibbles_of_digits numeral.whole
    (numeral.nibbles_of_fraction_text numeral.nibbles_of_exponent_text)
  rw [text, nibbles, mantissaNibbles, List.append_assoc, List.append_assoc, List.append_assoc,
    List.append_assoc]
  cases numeral.negative with
  | true => simp [nibblesOf?, mantissa]
  | false => exact mantissa

theorem plain_digits (digits : List (Fin 10)) :
    ∀ nibble ∈ digits.map Fin.val, nibble ≠ 13 ∧ isMark nibble = false := by
  intro nibble member
  obtain ⟨digit, -, rfl⟩ := List.mem_map.mp member
  have small := digit.isLt
  exact ⟨by omega, (unmarked_of_le (by omega) false).1⟩

theorem plain_mantissa (numeral : Numeral) :
    ∀ nibble ∈ numeral.mantissaNibbles, nibble ≠ 13 ∧ isMark nibble = false := by
  unfold mantissaNibbles fractionNibbles
  simp only [List.forall_mem_append]
  refine ⟨⟨?_, plain_digits numeral.whole⟩, ?_⟩
  · cases numeral.negative with
    | true => decide
    | false => nofun
  · cases numeral.fraction? with
    | none => nofun
    | some digits => exact List.forall_mem_cons.mpr ⟨by decide, plain_digits digits⟩

theorem essential_nibbles (numeral : Numeral) : essential false numeral.nibbles = numeral.nibbles := by
  obtain ⟨mantissa, unmarked⟩ := essential_of_plain false numeral.plain_mantissa
  rw [nibbles, essential_append, mantissa, unmarked, Bool.or_false, exponentNibbles]
  cases numeral.exponent? with
  | none => rfl
  | some exponent =>
      have digits := (essential_of_plain true (plain_digits exponent.digits)).1
      cases sign : exponent.negative <;> simp [sign, essential, isIdle, isMark, digits]

theorem finished_of_digits (front : List Nat) {digits : List (Fin 10)} (nonempty : digits ≠ []) :
    Finished (front ++ digits.map Fin.val) := by
  obtain ⟨before, last, rfl⟩ := List.eq_nil_or_concat digits |>.resolve_left nonempty
  exact ⟨front ++ before.map Fin.val, last, by simp, .inl last.isLt⟩

theorem finished_nibbles (numeral : Numeral) : Finished numeral.nibbles := by
  have unmarked := (essential_of_plain false numeral.plain_mantissa).2
  unfold nibbles exponentNibbles
  cases numeral.exponent? with
  | some exponent =>
      have ending := finished_of_digits
        (numeral.mantissaNibbles ++ [if exponent.negative then 12 else 11]) exponent.nonempty
      rwa [List.append_assoc] at ending
  | none =>
      have hasDigit := numeral.hasDigit
      rw [List.append_nil]
      unfold mantissaNibbles fractionNibbles at unmarked ⊢
      cases point : numeral.fraction? with
      | none =>
          rw [point, Option.getD_none, List.append_nil] at hasDigit
          rw [List.append_nil]
          exact finished_of_digits _ hasDigit
      | some digits =>
          by_cases empty : digits = []
          · subst empty
            rw [point, List.any_append, Bool.or_eq_false_iff] at unmarked
            exact ⟨_, 10, rfl, .inr ⟨rfl, unmarked.1⟩⟩
          · have ending := finished_of_digits
              ((if numeral.negative then [14] else []) ++ numeral.whole.map Fin.val ++ [10]) empty
            rwa [List.append_assoc] at ending

theorem spelt_nibbles (numeral : Numeral) : spelt numeral.nibbles = numeral.text := by
  rw [spelt, essential_nibbles]
  exact (characters_nibbles_of numeral.nibbles_of_text).1

theorem literal_value_text (numeral : Numeral) :
    literalValue numeral.text = .ok numeral.value.toFloat := by
  have parsed := of_text_text numeral
  have nonempty : ¬ (numeral.text = [] ∨ numeral.text = ['E', '-', '0']) := by
    rintro (empty | mark)
    · rw [empty] at parsed
      cases parsed
    · rw [mark] at parsed
      cases parsed
  rw [literalValue, if_neg nonempty, parsed]

theorem written_literal_is_converted (numeral : Numeral) (short : numeral.text.length ≤ 64) :
    ∃ bytes real, encode? numeral.text = some bytes ∧
      (∀ tail, Dict.Item.read (bytes ++ tail) = .ok (.operand (.real real), tail)) ∧
      real.text.outcome = .ok numeral.text ∧
      Literal.ofText? numeral.text = some numeral.value ∧
      real.toFloat.outcome = .ok numeral.value.toFloat := by
  have written := numeral.nibbles_of_text
  have small (nibble : Nat) (member : nibble ∈ numeral.nibbles) : nibble < terminator :=
    ((characters_nibbles_of written).2 nibble member).1
  have finished := numeral.finished_nibbles
  have complete : ¬ Overlong numeral.nibbles :=
    not_overlong_of_finished finished (numeral.spelt_nibbles ▸ short)
  have text := text_of_finished finished
  rw [numeral.spelt_nibbles] at text
  refine ⟨30 :: packed numeral.nibbles, ofNibbles numeral.nibbles, ?_, reads_of_nibbles small, ?_,
    of_text_text numeral, ?_⟩
  · rw [encode?, written]
    rfl
  · rw [outcome_text small, if_neg complete, text]
  · rw [outcome_to_float small, if_neg complete, text, literal_value_text]

example : encode? "-2.25".toList = some [30, 0xe2, 0xa2, 0x5f] := by decide

example : encode? "0.140541E-3".toList = some [30, 0x0a, 0x14, 0x05, 0x41, 0xc3, 0xff] := by decide

def longest : Numeral where
  negative := true
  whole := [0]
  fraction? := some (List.replicate 57 3)
  exponent? := some ⟨true, [1, 2], by decide⟩
  hasDigit := by decide

theorem longest_literal_is_converted :
    longest.text.length ≤ 64 ∧ ∃ bytes real, encode? longest.text = some bytes ∧
      Dict.Item.read (bytes ++ [139]) = .ok (.operand (.real real), [139]) ∧
      real.text.outcome = .ok longest.text ∧ real.toFloat.outcome = .ok longest.value.toFloat := by
  have short : longest.text.length ≤ 64 := by decide
  obtain ⟨bytes, real, written, read, text, -, number⟩ := written_literal_is_converted longest short
  exact ⟨short, bytes, real, written, read [139], text, number⟩

end Decimal.Numeral

end CompactFont
