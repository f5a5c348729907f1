import CompactFont.Proofs.DictSpelling

set_option autoImplicit false

namespace CompactFont.Dict.Real

-- The half bytes two by two, the first in the high half, with one or two terminators at the end.
def packed : List Nat → Bytes
  | [] => [255]
  | [last] => [UInt8.ofNat (last * 16 + terminator)]
  | high :: low :: rest => UInt8.ofNat (high * 16 + low) :: packed rest

def ofNibbles (nibbles : List Nat) : Real := ⟨packed nibbles⟩

def isMark (nibble : Nat) : Bool := nibble == 11 || nibble == 12

def isIdle (marked : Bool) (nibble : Nat) : Bool := nibble == 13 || (marked && isMark nibble)

def characters (nibble : Nat) : List Char :=
  if nibble < 10 then [Char.ofNat ('0'.toNat + nibble)]
  else if nibble = 10 then ['.']
  else if nibble = 11 then ['E']
  else if nibble = 12 then ['E', '-']
  else if nibble = 13 then []
  else ['-']

def essential : Bool → List Nat → List Nat
  | _, [] => []
  | marked, nibble :: rest =>
      if isIdle marked nibble then essential marked rest
      else nibble :: essential (marked || isMark nibble) rest

def spelt (nibbles : List Nat) : List Char := (essential false nibbles).flatMap characters

def Overlong (nibbles : List Nat) : Prop :=
  nibbles ≠ [] ∧ maxText < (spelt nibbles.dropLast).length

instance (nibbles : List Nat) : Decidable (Overlong nibbles) := inferInstanceAs (Decidable (_ ∧ _))

theorem marked_of_idle {marked : Bool} {nibble : Nat} (idle : isIdle marked nibble = true) :
    (marked || isMark nibble) = marked := by
  cases marked with
  | true => rfl
  | false =>
      obtain rfl : nibble = 13 := by simpa [isIdle] using idle
      rfl

section Packing

theorem to_nat_pair (high low : Nat) (left : high < 16) (right : low < 16) :
    (UInt8.ofNat (high * 16 + low)).toNat / 16 = high ∧
      (UInt8.ofNat (high * 16 + low)).toNat % 16 = low := by
  have byte : (UInt8.ofNat (high * 16 + low)).toNat = high * 16 + low :=
    UInt8.toNat_ofNat_of_lt' (show _ < 256 by omega)
  rw [byte]
  omega

theorem nibbles_of_nibbles {nibbles : List Nat} (small : ∀ nibble ∈ nibbles, nibble < terminator) :
    (ofNibbles nibbles).nibbles = nibbles := by
  have fifteen : terminator = 15 := rfl
  unfold Real.nibbles ofNibbles
  fun_induction packed nibbles with
  | case1 => rfl
  | case2 last =>
      have inside := small last (by simp)
      obtain ⟨left, right⟩ := to_nat_pair last terminator (by omega) (by omega)
      simp only [List.flatMap_singleton, left, right]
      simp [Nat.ne_of_lt inside]
  | case3 high low rest ih =>
      have first := small high (by simp)
      have second := small low (by simp)
      obtain ⟨left, right⟩ := to_nat_pair high low (by omega) (by omega)
      have later := ih fun nibble member => small nibble (by simp [member])
      simp only [List.flatMap_cons, left, right]
      simpa [Nat.ne_of_lt first, Nat.ne_of_lt second] using later

theorem packed_shape {nibbles : List Nat} (small : ∀ nibble ∈ nibbles, nibble < terminator) :
    ∃ front last, packed nibbles = front ++ [last] ∧
      (∀ byte ∈ front, byte.toNat / 16 ≠ 15 ∧ byte.toNat % 16 ≠ 15) ∧
      (last.toNat / 16 = 15 ∨ last.toNat % 16 = 15) := by
  have fifteen : terminator = 15 := rfl
  fun_induction packed nibbles with
  | case1 => exact ⟨[], 255, rfl, nofun, .inl rfl⟩
  | case2 last =>
      have inside := small last (by simp)
      obtain ⟨-, right⟩ := to_nat_pair last terminator (by omega) (by omega)
      exact ⟨[], _, rfl, nofun, .inr right⟩
  | case3 high low rest ih =>
      have first := small high (by simp)
      have second := small low (by simp)
      obtain ⟨left, right⟩ := to_nat_pair high low (by omega) (by omega)
      obtain ⟨front, last, shape, runs, stops⟩ := ih fun nibble member => small nibble (by simp [member])
      refine ⟨_ :: front, last, by rw [shape, List.cons_append], ?_, stops⟩
      intro byte member
      rcases List.mem_cons.mp member with rfl | inFront
      · omega
      · exact runs byte inFront

theorem reads_of_nibbles {nibbles : List Nat} (small : ∀ nibble ∈ nibbles, nibble < terminator) :
    Reader.Reads Item.read (30 :: packed nibbles) (.operand (.real (ofNibbles nibbles))) := by
  obtain ⟨front, last, shape, runs, stops⟩ := packed_shape small
  rw [ofNibbles, shape]
  exact reads_operand (.real runs stops)

end Packing

namespace Spelling

def write (spelling : Spelling) (nibble : Nat) : Spelling :=
  if isIdle spelling.hasExponent nibble then spelling
  else
    { reversed := (characters nibble).reverse ++ spelling.reversed
      hasExponent := spelling.hasExponent || isMark nibble
      awaitsDigit := isMark nibble || (spelling.awaitsDigit && 10 ≤ nibble) }

theorem outcome_add (spelling : Spelling) (nibble : Nat) :
    (spelling.add nibble).outcome =
      if maxText < spelling.reversed.length then .error .limitExceeded
      else .ok (spelling.write nibble) := by
  obtain ⟨reversed, hasExponent, awaitsDigit⟩ := spelling
  unfold add
  by_cases full : maxText < reversed.length
  · simp [full]
  · simp only [if_neg full]
    obtain digit | rfl | rfl | rfl | rfl | large : nibble < 10 ∨ nibble = 10 ∨ nibble = 11 ∨
        nibble = 12 ∨ nibble = 13 ∨ 13 < nibble := by omega
    · have other : nibble ≠ 11 ∧ nibble ≠ 12 ∧ nibble ≠ 13 := by omega
      have few : ¬ 10 ≤ nibble := by omega
      simp [write, isIdle, isMark, characters, digit, other, few]
    · simp [write, isIdle, isMark, characters]
    · cases hasExponent <;> simp [write, isIdle, isMark, characters]
    · cases hasExponent <;> simp [write, isIdle, isMark, characters]
    · simp [write, isIdle]
    · have other : nibble ≠ 10 ∧ nibble ≠ 11 ∧ nibble ≠ 12 ∧ nibble ≠ 13 := by omega
      have many : ¬ nibble < 10 ∧ 10 ≤ nibble := by omega
      simp [write, isIdle, isMark, characters, other, many]

theorem write_of_idle {spelling : Spelling} {nibble : Nat}
    (idle : isIdle spelling.hasExponent nibble = true) : spelling.write nibble = spelling :=
  if_pos idle

theorem has_exponent_write (spelling : Spelling) (nibble : Nat) :
    (spelling.write nibble).hasExponent = (spelling.hasExponent || isMark nibble) := by
  by_cases idle : isIdle spelling.hasExponent nibble = true
  · rw [write_of_idle idle, marked_of_idle idle]
  · rw [write, if_neg idle]

theorem foldl_write_essential (nibbles : List Nat) (spelling : Spelling) :
    (essential spelling.hasExponent nibbles).foldl write spelling = nibbles.foldl write spelling := by
  induction nibbles generalizing spelling with
  | nil => rfl
  | cons nibble rest ih =>
      rw [essential, List.foldl_cons]
      by_cases idle : isIdle spelling.hasExponent nibble = true
      · rw [if_pos idle, write_of_idle idle, ih]
      · rw [if_neg idle, List.foldl_cons, ← has_exponent_write, ih]

theorem reversed_foldl_write (nibbles : List Nat) (spelling : Spelling) :
    (nibbles.foldl write spelling).reversed =
      ((essential spelling.hasExponent nibbles).flatMap characters).reverse ++ spelling.reversed := by
  induction nibbles generalizing spelling with
  | nil => rfl
  | cons nibble rest ih =>
      rw [essential, List.foldl_cons, ih]
      by_cases idle : isIdle spelling.hasExponent nibble = true
      · rw [if_pos idle, write_of_idle idle]
      · rw [if_neg idle, has_exponent_write, write, if_neg idle, List.flatMap_cons,
          List.reverse_append, List.append_assoc]

theorem has_exponent_foldl_write (nibbles : List Nat) (spelling : Spelling) :
    (nibbles.foldl write spelling).hasExponent = (spelling.hasExponent || nibbles.any isMark) := by
  induction nibbles generalizing spelling with
  | nil => simp
  | cons nibble rest ih =>
      rw [List.foldl_cons, ih, has_exponent_write, List.any_cons, Bool.or_assoc]

theorem length_le_foldl_write (nibbles : List Nat) (spelling : Spelling) :
    spelling.reversed.length ≤ (nibbles.foldl write spelling).reversed.length := by
  rw [reversed_foldl_write, List.length_append]
  exact Nat.le_add_left ..

-- Texts only grow, so it is the last half byte that may find the text long enough already.
theorem outcome_foldl_m_add (nibbles : List Nat) (spelling : Spelling) :
    (nibbles.foldlM add spelling).outcome =
      if nibbles ≠ [] ∧ maxText < (nibbles.dropLast.foldl write spelling).reversed.length then
        .error .limitExceeded
      else .ok (nibbles.foldl write spelling) := by
  induction nibbles generalizing spelling with
  | nil => rfl
  | cons nibble rest ih =>
      rw [List.foldlM_cons, Attempt.outcome_bind, outcome_add]
      by_cases full : maxText < spelling.reversed.length
      · have later := Nat.lt_of_lt_of_le full (length_le_foldl_write (nibble :: rest).dropLast spelling)
        rw [if_pos full, if_pos ⟨List.cons_ne_nil nibble rest, later⟩]
        rfl
      · rw [if_neg full, List.foldl_cons]
        refine (ih (spelling.write nibble)).trans ?_
        cases rest with
        | nil => simp [full]
        | cons second rest => simp

end Spelling

section Essential

theorem essential_append (marked : Bool) (front back : List Nat) :
    essential marked (front ++ back) =
      essential marked front ++ essential (marked || front.any isMark) back := by
  induction front generalizing marked with
  | nil => simp [essential]
  | cons nibble rest ih =>
      rw [List.cons_append, essential, essential, List.any_cons, ← Bool.or_assoc]
      by_cases idle : isIdle marked nibble = true
      · rw [if_pos idle, if_pos idle, ih, marked_of_idle idle]
      · rw [if_neg idle, if_neg idle, ih, List.cons_append]

theorem essential_essential (marked : Bool) (nibbles : List Nat) :
    essential marked (essential marked nibbles) = essential marked nibbles := by
  induction nibbles generalizing marked with
  | nil => rfl
  | cons nibble rest ih =>
      rw [essential]
      by_cases idle : isIdle marked nibble = true
      · rw [if_pos idle, ih]
      · rw [if_neg idle, essential, if_neg idle, ih]

theorem spelt_essential (nibbles : List Nat) : spelt (essential false nibbles) = spelt nibbles := by
  rw [spelt, essential_essential, spelt]

theorem length_spelt_drop_last_le (nibbles : List Nat) :
    (spelt nibbles.dropLast).length ≤ (spelt nibbles).length := by
  rcases List.eq_nil_or_concat nibbles with rfl | ⟨front, last, rfl⟩
  · exact Nat.le_refl _
  · rw [List.concat_eq_append, List.dropLast_concat, spelt, spelt, essential_append,
      List.flatMap_append, List.length_append]
    exact Nat.le_add_right ..

end Essential

theorem outcome_text {nibbles : List Nat} (small : ∀ nibble ∈ nibbles, nibble < terminator) :
    (ofNibbles nibbles).text.outcome =
      if Overlong nibbles then .error .limitExceeded
      else .ok (nibbles.foldl Spelling.write .start).text := by
  have length : (nibbles.dropLast.foldl Spelling.write .start).reversed.length =
      (spelt nibbles.dropLast).length := by
    rw [Spelling.reversed_foldl_write, List.length_append, List.length_reverse]
    rfl
  rw [text, Attempt.outcome_map, nibbles_of_nibbles small, Spelling.outcome_foldl_m_add, length]
  by_cases overlong : Overlong nibbles
  · rw [if_pos overlong, if_pos (show _ ∧ _ from overlong)]
    rfl
  · rw [if_neg overlong, if_neg (show ¬ (_ ∧ _) from overlong)]
    rfl

theorem outcome_to_float {nibbles : List Nat} (small : ∀ nibble ∈ nibbles, nibble < terminator) :
    (ofNibbles nibbles).toFloat.outcome =
      if Overlong nibbles then .error .limitExceeded
      else literalValue (nibbles.foldl Spelling.write .start).text := by
  rw [toFloat, Attempt.outcome_bind, outcome_text small]
  split <;> rfl

theorem literal_value_ne_limit_exceeded (text : List Char) :
    literalValue text ≠ .error .limitExceeded := by
  unfold literalValue
  repeat' split
  all_goals nofun

section Idle

def EndsIdle (nibbles : List Nat) : Prop :=
  ∃ front last, nibbles = front ++ [last] ∧ isIdle (front.any isMark) last = true

theorem not_overlong_of_length_spelt {nibbles : List Nat} (fits : (spelt nibbles).length ≤ maxText) :
    ¬ Overlong nibbles := by
  rintro ⟨-, tooLong⟩
  have grows := length_spelt_drop_last_le nibbles
  omega

theorem spelt_of_ends_idle {nibbles : List Nat} (idle : EndsIdle nibbles) :
    nibbles ≠ [] ∧ spelt nibbles.dropLast = spelt nibbles := by
  obtain ⟨front, last, rfl, addsNothing⟩ := idle
  refine ⟨by simp, ?_⟩
  rw [List.dropLast_concat, spelt, spelt, essential_append, Bool.false_or, essential,
    if_pos addsNothing, essential, List.append_nil]

theorem overlong_essential_iff {nibbles : List Nat} (busy : ¬ EndsIdle nibbles) :
    Overlong (essential false nibbles) ↔ Overlong nibbles := by
  rcases List.eq_nil_or_concat nibbles with rfl | ⟨front, last, rfl⟩
  · exact Iff.rfl
  · rw [List.concat_eq_append] at busy ⊢
    have adds : ¬ isIdle (front.any isMark) last = true := fun idle => busy ⟨front, last, rfl, idle⟩
    have shape : essential false (front ++ [last]) = essential false front ++ [last] := by
      rw [essential_append, Bool.false_or, essential, if_neg adds, essential]
    rw [shape, Overlong, Overlong, List.dropLast_concat, List.dropLast_concat, spelt_essential]
    simp

theorem mem_of_mem_essential {marked : Bool} {nibbles : List Nat} {nibble : Nat}
    (member : nibble ∈ essential marked nibbles) : nibble ∈ nibbles := by
  fun_induction essential marked nibbles with
  | case1 => cases member
  | case2 marked first rest idle ih => exact List.mem_cons_of_mem _ (ih member)
  | case3 marked first rest adds ih =>
      rcases List.mem_cons.mp member with rfl | later
      · exact List.mem_cons_self
      · exact List.mem_cons_of_mem _ (ih later)

theorem outcome_essential {nibbles : List Nat} (small : ∀ nibble ∈ nibbles, nibble < terminator)
    (same : Overlong (essential false nibbles) ↔ Overlong nibbles) :
    (ofNibbles nibbles).toFloat.outcome = (ofNibbles (essential false nibbles)).toFloat.outcome := by
  have left : ∀ nibble ∈ essential false nibbles, nibble < terminator :=
    fun nibble member => small nibble (mem_of_mem_essential member)
  have spelling := Spelling.foldl_write_essential nibbles .start
  rw [outcome_to_float small, outcome_to_float left, ← spelling]
  simp only [same]
  rfl

/-- Reserved half bytes and exponent marks after the first one say nothing: without them a real
converts to the same number or fails in the same way, if its text has at most 63 characters or its
last half byte is none of them. With a longer text and such a half byte at the end, the conversion
fails because there is too much of it. -/
theorem idle_half_bytes_say_nothing_within_limit {nibbles : List Nat}
    (small : ∀ nibble ∈ nibbles, nibble < terminator) :
    ((spelt nibbles).length ≤ maxText ∨ ¬ EndsIdle nibbles →
      (ofNibbles nibbles).toFloat.outcome = (ofNibbles (essential false nibbles)).toFloat.outcome) ∧
    (maxText < (spelt nibbles).length → EndsIdle nibbles →
      (ofNibbles nibbles).toFloat.outcome = .error .limitExceeded) := by
  constructor
  · rintro (fits | busy)
    · have left := spelt_essential nibbles ▸ fits
      exact outcome_essential small (iff_of_false (not_overlong_of_length_spelt left)
        (not_overlong_of_length_spelt fits))
    · exact outcome_essential small (overlong_essential_iff busy)
  · intro tooLong idle
    obtain ⟨nonempty, same⟩ := spelt_of_ends_idle idle
    rw [outcome_to_float small, if_pos ⟨nonempty, same ▸ tooLong⟩]

theorem idle_half_bytes_in_two_reals :
    (∀ nibble ∈ [1, 13, 5, 11, 12, 2], nibble < terminator) ∧
      (ofNibbles [1, 13, 5, 11, 12, 2]).toFloat.outcome = (ofNibbles [1, 5, 11, 2]).toFloat.outcome ∧
      (∀ nibble ∈ List.replicate 64 7 ++ [13], nibble < terminator) ∧
      (ofNibbles (List.replicate 64 7 ++ [13])).toFloat.outcome = .error .limitExceeded := by
  have small : ∀ nibble ∈ [1, 13, 5, 11, 12, 2], nibble < terminator := by decide
  have also : ∀ nibble ∈ List.replicate 64 7 ++ [13], nibble < terminator := by decide
  have idle : EndsIdle (List.replicate 64 7 ++ [13]) := ⟨_, 13, rfl, rfl⟩
  exact ⟨small, (idle_half_bytes_say_nothing_within_limit small).1 (.inl (by decide)),
    also, (idle_half_bytes_say_nothing_within_limit also).2 (by decide) idle⟩

theorem idle_half_byte_after_limit_fails :
    ¬ ∀ nibbles : List Nat, (∀ nibble ∈ nibbles, nibble < terminator) →
      (ofNibbles nibbles).toFloat.outcome = (ofNibbles (essential false nibbles)).toFloat.outcome := by
  intro same
  have small : ∀ nibble ∈ List.replicate 64 7 ++ [13], nibble < terminator := by decide
  have left : ∀ nibble ∈ List.replicate 64 7, nibble < terminator := by decide
  have essential : essential false (List.replicate 64 7 ++ [13]) = List.replicate 64 7 := by decide
  have equal := same _ small
  rw [essential, outcome_to_float small, if_pos (by decide), outcome_to_float left,
    if_neg (by decide)] at equal
  exact literal_value_ne_limit_exceeded _ equal.symm

end Idle

end CompactFont.Dict.Real
