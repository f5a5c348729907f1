import CompactFont.Proofs.Type1Order
import CompactFont.Proofs.Type1Text
import Mathlib.Data.List.Induction

set_option autoImplicit false

namespace CompactFont.Type1

inductive Argument where
  | integer (value : Int)
  | quotient (dividend divisor : Argument)
deriving DecidableEq, Repr

def divided? (dividend divisor : Int) : Option Int :=
  let result := Int.tdiv dividend divisor
  if divisor = 0 ∨ result < -2147483648 ∨ 2147483647 < result then none else some result

namespace Argument

def tokens : Argument → List (Token Type1Op Int)
  | .integer value => [.number value]
  | .quotient dividend divisor => dividend.tokens ++ divisor.tokens ++ [.operator .div]

def value? : Argument → Option Int
  | .integer value => some value
  | .quotient dividend divisor => do
      let first ← dividend.value?
      let second ← divisor.value?
      divided? first second

theorem tokens_start (argument : Argument) :
    ∃ value rest, argument.tokens = .number value :: rest := by
  induction argument with
  | integer value => exact ⟨value, [], rfl⟩
  | quotient dividend divisor ihDividend _ =>
      obtain ⟨value, rest, start⟩ := ihDividend
      exact ⟨value, rest ++ divisor.tokens ++ [.operator .div], by simp [tokens, start]⟩

theorem plain_tokens (argument : Argument) : Plain argument.tokens := by
  induction argument with
  | integer value => simp [tokens, Plain]
  | quotient dividend divisor ihDividend ihDivisor =>
      exact plain_append.mpr ⟨plain_append.mpr ⟨ihDividend, ihDivisor⟩, by simp [Plain]⟩

theorem small_value {argument : Argument}
    (small : ∀ value, .number value ∈ argument.tokens → Small value) {value : Int}
    (found : argument.value? = some value) : Small value := by
  cases argument with
  | integer written =>
      cases found
      exact small _ List.mem_cons_self
  | quotient dividend divisor =>
      obtain ⟨first, -, onward⟩ := Option.bind_eq_some_iff.mp found
      obtain ⟨second, -, divides⟩ := Option.bind_eq_some_iff.mp onward
      simp only [divided?, Option.ite_none_left_eq_some, not_or, Int.not_lt] at divides
      obtain ⟨⟨-, low, high⟩, same⟩ := divides
      cases same
      exact ⟨low, high⟩

end Argument

section Taking

def orBadValue {α : Type} : Option α → Except CharstringError α
  | some value => .ok value
  | none => .error (.read .badValue)

theorem quotient_eq {dividend : Int} (small : Small dividend) (divisor : Int) :
    quotient dividend divisor = orBadValue (divided? dividend divisor) := by
  have within := Int.natAbs_tdiv_le_natAbs dividend divisor
  obtain ⟨low, high⟩ := small
  unfold quotient divided?
  by_cases defined : divisor = 0 ∨ maxInteger < Int.tdiv dividend divisor
  · have beyond : divisor = 0 ∨ Int.tdiv dividend divisor < -2147483648 ∨
        2147483647 < Int.tdiv dividend divisor := defined.imp_right .inr
    rw [if_pos defined]
    simp only [if_pos beyond]
    rfl
  · rw [if_neg defined]
    rw [not_or] at defined
    have between : ¬ (divisor = 0 ∨ Int.tdiv dividend divisor < -2147483648 ∨
        2147483647 < Int.tdiv dividend divisor) := by
      rintro (zero | below | above)
      · exact defined.1 zero
      · omega
      · exact defined.2 above
    simp only [if_neg between]
    rfl

theorem pop_integer_argument {argument : Argument}
    (small : ∀ value, .number value ∈ argument.tokens → Small value) (stack : Stack) :
    popInteger (argument.tokens.reverse ++ stack) = (·, stack) <$> orBadValue argument.value? := by
  induction argument generalizing stack with
  | integer value => exact pop_integer_number value stack
  | quotient dividend divisor ihDividend ihDivisor =>
      have smallDividend : ∀ value, .number value ∈ dividend.tokens → Small value :=
        fun value member => small value (by simp [Argument.tokens, member])
      have smallDivisor : ∀ value, .number value ∈ divisor.tokens → Small value :=
        fun value member => small value (by simp [Argument.tokens, member])
      have shape : (Argument.quotient dividend divisor).tokens.reverse ++ stack =
          .operator .div :: (divisor.tokens.reverse ++ (dividend.tokens.reverse ++ stack)) := by
        simp [Argument.tokens]
      rw [shape, pop_integer_div, ihDivisor smallDivisor, Argument.value?]
      cases second : divisor.value? with
      | none => cases dividend.value? <;> rfl
      | some divisorValue =>
          change (popInteger (dividend.tokens.reverse ++ stack) >>= _) = _
          rw [ihDividend smallDividend]
          cases first : dividend.value? with
          | none => rfl
          | some dividendValue =>
              change (quotient dividendValue divisorValue >>= _) =
                (·, stack) <$> orBadValue (divided? dividendValue divisorValue)
              rw [quotient_eq (Argument.small_value smallDividend first)]
              cases divided? dividendValue divisorValue <;> rfl

theorem pop_integers_arguments {arguments : List Argument}
    (small : ∀ value, .number value ∈ arguments.flatMap Argument.tokens → Small value)
    (taken : List Int) (stack : Stack) :
    popIntegers arguments.length taken ((arguments.flatMap Argument.tokens).reverse ++ stack) =
      (fun values => (values ++ taken, stack)) <$> orBadValue (arguments.mapM Argument.value?) := by
  induction arguments using List.reverseRecOn generalizing taken with
  | nil => rfl
  | append_singleton arguments argument ih =>
      have smallLast : ∀ value, .number value ∈ argument.tokens → Small value :=
        fun value member => small value (by simp [member])
      have smallOthers : ∀ value, .number value ∈ arguments.flatMap Argument.tokens → Small value := by
        intro value member
        apply small value
        rw [List.flatMap_append]
        exact List.mem_append_left _ member
      have shape : ((arguments ++ [argument]).flatMap Argument.tokens).reverse ++ stack =
          argument.tokens.reverse ++ ((arguments.flatMap Argument.tokens).reverse ++ stack) := by
        simp
      rw [shape, List.length_append, List.length_singleton, popIntegers,
        pop_integer_argument smallLast, List.mapM_append]
      have one : [argument].mapM Argument.value? = ([·]) <$> argument.value? := by
        cases found : argument.value? <;> simp [found]
      rw [one]
      cases argument.value? with
      | none => cases arguments.mapM Argument.value? <;> rfl
      | some value =>
          change popIntegers arguments.length (value :: taken) _ = _
          rw [ih smallOthers]
          cases arguments.mapM Argument.value? with
          | none => rfl
          | some values => simp [orBadValue]

end Taking

def argumentCall (arguments : List Argument) (number : Int) (pops : Nat) : List (Token Type1Op Int) :=
  arguments.flatMap Argument.tokens ++ otherCall arguments.length number pops

theorem argument_call_start (arguments : List Argument) (number : Int) (pops : Nat) :
    ∃ value rest, argumentCall arguments number pops = .number value :: rest := by
  cases arguments with
  | nil => exact ⟨_, _, rfl⟩
  | cons argument arguments =>
      obtain ⟨value, rest, start⟩ := argument.tokens_start
      refine ⟨value, rest ++ arguments.flatMap Argument.tokens ++
        otherCall (arguments.length + 1) number pops, ?_⟩
      simp [argumentCall, start]

section Calls

variable {arguments : List Argument} {number : Int} {pops : Nat} {bytes : Bytes}
  (generic : number ≠ 0 ∧ number ≠ 1 ∧ number ≠ 3)
  (written : Encodes SpeltBy (argumentCall arguments number pops) bytes)

include generic in
theorem call_other_generic (count : Nat) (stack : Stack) :
    callOther number count stack = popIntegers count [] stack := by
  unfold callOther
  split
  · exact absurd rfl generic.1
  · exact absurd rfl generic.2.1
  · exact absurd rfl generic.2.2
  · rw [Int.toNat_natCast]

include generic written in
theorem call_other_arguments (stack : Stack) :
    callOther number arguments.length ((arguments.flatMap Argument.tokens).reverse ++ stack) =
      (·, stack) <$> orBadValue (arguments.mapM Argument.value?) := by
  have small : ∀ value, .number value ∈ arguments.flatMap Argument.tokens → Small value :=
    fun value member => small_of_encodes written (List.mem_append_left _ member)
  rw [call_other_generic generic, pop_integers_arguments small]
  cases arguments.mapM Argument.value? with
  | none => rfl
  | some values => simp [orBadValue]

include written in
theorem exists_call (call : Stack → Decoding Stack) {stack : Stack}
    (room : Room stack (argumentCall arguments number pops)) :
    ∃ given called, bytes = given ++ called ∧
      Leads (run call) given stack ((arguments.flatMap Argument.tokens).reverse ++ stack) ∧
      Encodes SpeltBy (otherCall arguments.length number pops) called ∧
      Room ((arguments.flatMap Argument.tokens).reverse ++ stack)
        (otherCall arguments.length number pops) := by
  obtain ⟨given, called, rfl, spelt, calling⟩ := encodes_append written
  obtain ⟨roomGiven, roomCalled⟩ := room_append.mp room
  have plain : Plain (arguments.flatMap Argument.tokens) := by
    intro op member
    obtain ⟨argument, -, inside⟩ := List.mem_flatMap.mp member
    exact argument.plain_tokens op inside
  exact ⟨given, called, rfl, leads_written call spelt plain roomGiven, calling, roomCalled⟩

variable (subrs : Option Index)

include generic written

theorem decode_nested_argument_call {values : List Int}
    (found : arguments.mapM Argument.value? = some values) (nesting : Nat) {stack : Stack}
    (room : Room stack (argumentCall arguments number pops))
    (roomBelow : Room stack ((values.take pops).map .number)) {tail : Bytes}
    (apart : pops < values.length → ¬ BeginsWithPop tail) :
    decodeNested subrs nesting (bytes ++ tail) stack = (do
      if pops < values.length then Report.note (.unusedResults (values.length - pops) number)
      decodeNested subrs nesting tail ((handedBack values pops).reverse ++ stack)) := by
  rw [decode_nested_eq]
  obtain ⟨given, called, rfl, leads, calling, roomCalled⟩ :=
    exists_call written (call subrs (entering subrs nesting)) room
  have performed := call_other_arguments generic written stack
  rw [found] at performed
  rw [List.append_assoc, leads]
  exact run_other_call _ calling performed roomCalled roomBelow apart

theorem decode_nested_argument_call_error (missing : arguments.mapM Argument.value? = none)
    (nesting : Nat) {stack : Stack} (room : Room stack (argumentCall arguments number pops))
    (tail : Bytes) : decodeNested subrs nesting (bytes ++ tail) stack = throw (.read .badValue) := by
  rw [decode_nested_eq]
  obtain ⟨given, called, rfl, leads, calling, roomCalled⟩ :=
    exists_call written (call subrs (entering subrs nesting)) room
  have performed := call_other_arguments generic written stack
  rw [missing] at performed
  rw [List.append_assoc, leads]
  exact run_other_call_error _ calling performed roomCalled tail

variable {before : Bytes} {earlier : List (Token Type1Op Int)}
  (decodes : (decode subrs before).outcome = .ok earlier)
  (room : Room earlier.reverse (argumentCall arguments number pops))

include decodes room

theorem decode_argument_call {values : List Int} (found : arguments.mapM Argument.value? = some values)
    (roomBelow : Room earlier.reverse ((values.take pops).map .number)) :
    (decode subrs (before ++ bytes)).outcome = .ok (earlier ++ handedBack values pops) := by
  obtain ⟨value, rest, start⟩ := argument_call_start arguments number pops
  have apart := not_begins_with_pop_of_encodes (start ▸ written) []
  have last : ¬ BeginsWithPop [] := fun ⟨_, begins⟩ => by cases begins
  have ran := decode_nested_argument_call generic written subrs found maxNesting room roomBelow fun _ => last
  rw [List.append_nil] at apart ran
  apply decode_append_of_reached decodes apart
  rw [ran, decode_nested_nil]
  split <;> rfl

theorem decode_argument_call_error (missing : arguments.mapM Argument.value? = none) (after : Bytes) :
    (decode subrs (before ++ (bytes ++ after))).outcome = .error (.read .badValue) := by
  obtain ⟨value, rest, start⟩ := argument_call_start arguments number pops
  have apart := not_begins_with_pop_of_encodes (start ▸ written) after
  rw [outcome_decode_append decodes apart,
    decode_nested_argument_call_error generic written subrs missing maxNesting room after]
  rfl

end Calls

theorem othersubr_hands_arguments_back (subrs : Option Index) (arguments : List Argument) (number : Int)
    (generic : number ≠ 0 ∧ number ≠ 1 ∧ number ≠ 3) (pops : Nat) (bytes : Bytes)
    (written : Encodes SpeltBy (argumentCall arguments number pops) bytes) :
    (∀ nesting stack, Room stack (argumentCall arguments number pops) →
      (∀ values, arguments.mapM Argument.value? = some values →
        Room stack ((values.take pops).map .number) →
        ∀ tail, (pops < values.length → ¬ BeginsWithPop tail) →
          decodeNested subrs nesting (bytes ++ tail) stack = (do
            if pops < values.length then Report.note (.unusedResults (values.length - pops) number)
            decodeNested subrs nesting tail ((handedBack values pops).reverse ++ stack))) ∧
      (arguments.mapM Argument.value? = none →
        ∀ tail, decodeNested subrs nesting (bytes ++ tail) stack = throw (.read .badValue))) ∧
    ∀ before earlier, (decode subrs before).outcome = .ok earlier →
      Room earlier.reverse (argumentCall arguments number pops) →
      (∀ values, arguments.mapM Argument.value? = some values →
        Room earlier.reverse ((values.take pops).map .number) →
        (decode subrs (before ++ bytes)).outcome = .ok (earlier ++ handedBack values pops)) ∧
      (arguments.mapM Argument.value? = none →
        ∀ after, (decode subrs (before ++ (bytes ++ after))).outcome = .error (.read .badValue)) :=
  ⟨fun nesting _ room =>
    ⟨fun _ found roomBelow _ =>
        decode_nested_argument_call generic written subrs found nesting room roomBelow,
      fun missing => decode_nested_argument_call_error generic written subrs missing nesting room⟩,
    fun _ _ decodes room =>
      ⟨fun _ => decode_argument_call generic written subrs decodes room,
        decode_argument_call_error generic written subrs decodes room⟩⟩

def quotients : List Argument :=
  [.quotient (.integer 20) (.quotient (.integer 9) (.integer 4)), .integer (-3), .integer 7]

def undefinedQuotient : List Argument := [.integer 3, .quotient (.integer 1) (.integer 0)]

theorem quotients_are_handed_back :
    quotients.mapM Argument.value? = some [10, -3, 7] ∧
      (decode none ([144] ++ (argumentCall quotients 12 2).flatMap encodeToken)).outcome =
        .ok [.number 5, .number 10, .number (-3)] ∧
      undefinedQuotient.mapM Argument.value? = none ∧
      (decode none ([144] ++ ((argumentCall undefinedQuotient 12 2).flatMap encodeToken ++ [14]))).outcome =
        .error (.read .badValue) := by
  have decodes : (decode none [144]).outcome = .ok [.number 5] :=
    Attempt.ok_of_to_option (by decide +kernel)
  have generic : (12 : Int) ≠ 0 ∧ (12 : Int) ≠ 1 ∧ (12 : Int) ≠ 3 := by decide
  have found : quotients.mapM Argument.value? = some [10, -3, 7] := by decide
  have missing : undefinedQuotient.mapM Argument.value? = none := by decide
  have written : Encodes SpeltBy (argumentCall quotients 12 2) _ :=
    encodes_small (by simp [argumentCall, quotients, Argument.tokens, otherCall])
      (by simp [argumentCall, quotients, Argument.tokens, otherCall])
  have undefinedWritten : Encodes SpeltBy (argumentCall undefinedQuotient 12 2) _ :=
    encodes_small (by simp [argumentCall, undefinedQuotient, Argument.tokens, otherCall])
      (by simp [argumentCall, undefinedQuotient, Argument.tokens, otherCall])
  have room (arguments : List Argument) (few : (argumentCall arguments 12 2).length ≤ 47) :
      Room [.number 5] (argumentCall arguments 12 2) :=
    room_of_length (Nat.add_le_of_le_sub' (by decide) few)
  have roomBelow : Room [.number 5] (([10, -3, 7].take 2).map .number) := room_of_length (by decide)
  have given := (othersubr_hands_arguments_back none quotients 12 generic 2 _ written).2 _ _ decodes
    (room quotients (by decide))
  have fails := (othersubr_hands_arguments_back none undefinedQuotient 12 generic 2 _ undefinedWritten).2
    _ _ decodes (room undefinedQuotient (by decide))
  exact ⟨found, given.1 _ found roomBelow, missing, fails.2 missing [14]⟩

end CompactFont.Type1
