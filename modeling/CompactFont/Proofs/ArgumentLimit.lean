import CompactFont.Proofs.Type1Order
import CompactFont.Proofs.Type1Text

set_option autoImplicit false

namespace CompactFont.Type1

theorem split_of_mem_drop {α : Type} {count : Nat} {items : List α} {item : α}
    (member : item ∈ items.drop count) :
    ∃ earlier later, items = earlier ++ item :: later ∧ count ≤ earlier.length := by
  obtain ⟨first, later, split⟩ := List.append_of_mem member
  have more := List.length_pos_of_mem member
  rw [List.length_drop] at more
  refine ⟨items.take count ++ first, later, ?_, ?_⟩
  · rw [List.append_assoc, ← split, List.take_append_drop]
  · rw [List.length_append, List.length_take, Nat.min_eq_left (by omega)]
    exact Nat.le_add_right _ _

section Surplus

variable {subrs : Option Index} {charstring : Bytes} {tokens : List (Token Type1Op Int)}
  (decodes : (decode subrs charstring).outcome = .ok tokens)

include decodes

theorem zero_past_limit {before earlier after : List (Token Type1Op Int)} {token : Token Type1Op Int}
    (place : tokens = before ++ earlier ++ token :: after)
    (numbers : ∀ other ∈ earlier, other.isNumber = true) (number : token.isNumber = true)
    (past : maxArguments ≤ earlier.length) :
    token = .number 0 ∧ MissesHeight subrs charstring := by
  have fits := fits_decoded decodes place
  cases token with
  | operator op => cases number
  | mask bytes => cases number
  | number value =>
      have below : ∀ other ∈ earlier.reverse, other.isNumber = true :=
        fun other member => numbers other (List.mem_reverse.mp member)
      have pending : earlier.length ≤ Token.pending (before ++ earlier).reverse := by
        rw [List.reverse_append, Token.pending, List.takeWhile_append_of_pos below, List.length_append,
          List.length_reverse]
        exact Nat.le_add_right _ _
      rcases fits.2 with room | ⟨misses, rfl⟩
      · exact absurd (Nat.le_trans past pending) (Nat.not_le.mpr room)
      · exact ⟨rfl, misses⟩

theorem surplus_zero {numbers : List (Token Type1Op Int)} (consecutive : numbers <:+: tokens)
    (all : ∀ token ∈ numbers, token.isNumber = true) {token : Token Type1Op Int}
    (member : token ∈ numbers.drop maxArguments) :
    token = .number 0 ∧ MissesHeight subrs charstring := by
  obtain ⟨before, after, place⟩ := consecutive
  obtain ⟨earlier, later, rfl, past⟩ := split_of_mem_drop member
  have split : tokens = before ++ earlier ++ token :: (later ++ after) := by
    rw [← place]
    simp
  exact zero_past_limit decodes split (fun other among => all other (List.mem_append_left _ among))
    (all token (List.mem_append_right _ List.mem_cons_self)) past

end Surplus

section Beyond

def withoutHeight : List (Token Type1Op Int) :=
  [.operator .closepath, .number 0, .number 0, .number 3, .number 0]

def zeroBeyond : Bytes :=
  withoutHeight.flatMap encodeToken ++ Type1Op.callothersubr.key.bytes ++ Type1Op.callsubr.key.bytes

def zerosBeyond (count : Nat) : Bytes :=
  (List.replicate maxArguments (.number 0)).flatMap encodeToken ++
    (List.replicate count zeroBeyond).flatten

variable {subrs : Option Index} {nesting : Nat}

theorem outcome_othersubr_without_height (stack : Stack) (tail : Bytes) :
    (othersubr (Type1Op.callsubr.key.bytes ++ tail) (withoutHeight.reverse ++ stack)).outcome =
      .ok (.operator .callothersubr :: .number 0 :: stack, 0) := by
  have noPop : ¬ BeginsWithPop (Type1Op.callsubr.key.bytes ++ tail) := by
    rintro ⟨rest, begins⟩
    cases begins
  have shape : withoutHeight.reverse ++ stack =
      .number 0 :: .number 3 :: .number 0 :: .number 0 :: .operator .closepath :: stack := rfl
  simp only [shape, othersubr, pop_integer_number, call_other_end, deliver_without_pop _ noPop,
    Attempt.lift_ok_bind]
  rfl

theorem outcome_run_zero_beyond (stack : Stack) (tail : Bytes) :
    (run (call subrs (entering subrs nesting)) (zeroBeyond ++ tail) stack).outcome =
      (run (call subrs (entering subrs nesting)) tail (.number 0 :: stack)).outcome := by
  have written : Encodes SpeltBy withoutHeight (withoutHeight.flatMap encodeToken) :=
    encodes_small (by simp [withoutHeight]) (by simp [withoutHeight])
  have plain : Plain withoutHeight := by simp [Plain, withoutHeight]
  have room : Room stack withoutHeight := by
    simp [Room, withoutHeight, Token.isNumber, maxArguments]
  have called : (call subrs (entering subrs nesting)
      (.operator .callothersubr :: .number 0 :: stack)).outcome = .ok (.number 0 :: stack) := rfl
  rw [zeroBeyond, List.append_assoc, List.append_assoc, leads_written _ written plain room _,
    run_callothersubr, Attempt.outcome_bind_of_ok (outcome_othersubr_without_height stack tail)]
  dsimp only
  rw [List.drop_zero, run_callsubr, Attempt.outcome_bind_of_ok called]

theorem outcome_run_zeros_beyond (count : Nat) (stack : Stack) :
    (run (call subrs (entering subrs nesting)) (List.replicate count zeroBeyond).flatten stack).outcome =
      .ok (List.replicate count (.number 0) ++ stack) := by
  induction count generalizing stack with
  | zero => rw [List.replicate_zero, List.flatten_nil, run_nil]; rfl
  | succ count ih =>
      rw [List.replicate_succ, List.flatten_cons, outcome_run_zero_beyond, ih, List.replicate_succ',
        List.append_assoc]
      rfl

theorem decode_zeros_beyond (subrs : Option Index) (count : Nat) :
    (decode subrs (zerosBeyond count)).outcome =
      .ok (List.replicate (maxArguments + count) (.number 0)) := by
  have written : Encodes SpeltBy (List.replicate maxArguments (.number 0))
      ((List.replicate maxArguments (.number 0)).flatMap encodeToken) :=
    encodes_small (by simp) (by simp)
  have plain : Plain (List.replicate maxArguments (.number 0)) := by simp [Plain]
  have room : Room [] (List.replicate maxArguments (.number 0)) := room_of_length (by simp)
  rw [decode, Attempt.outcome_map, decode_nested_eq, zerosBeyond, leads_written _ written plain room _,
    outcome_run_zeros_beyond]
  simp [Nat.add_comm]

end Beyond

theorem visits_after_number {subrs : Option Index} {nesting : Nat} {bytes rest more : Bytes}
    {stack later : Stack} {value : Int}
    (read : Lexeme.readType1 bytes = .ok (.number value, rest))
    (room : Token.pending stack < maxArguments) (missing : HeightMissing more later)
    (comes : Visits subrs nesting bytes stack more later) :
    Visits subrs nesting rest (.number value :: stack) more later := by
  have stepped : (step (call subrs (entering subrs nesting)) rest stack (.number value)).outcome =
      .ok (.number value :: stack, 0) := by
    rw [step, Token.push_of_pending_lt value room]
    rfl
  have plain : Lexeme.number value ≠ .command Type1Op.callsubr.key := by simp
  rcases visits_cases read plain stepped comes with ⟨rfl, -⟩ | onward
  · obtain ⟨⟨others, reads⟩, -⟩ := missing
    rw [read] at reads
    cases reads
  · exact onward

theorem not_ends_without_height (height x y count : Int) (below : Stack) :
    ¬ EndsWithoutHeight
      (.number 0 :: .number count :: .number y :: .number x :: .number height :: below) := by
  rintro ⟨first, number, second, results, left, named, given, popped, missing, -⟩
  rw [pop_integer_number] at named
  cases named
  rw [pop_integer_number] at given
  cases given
  rw [pop_integers_number, pop_integers_number] at popped
  cases popped
  exact missing height below rfl

def withHeight : Bytes := [144, 144, 144, 142, 139, 12, 16]

theorem heights_with_height : ¬ MissesHeight none withHeight := by
  rintro ⟨more, later, comes, missing⟩
  have comes := visits_after_number rfl (by decide) missing comes
  have comes := visits_after_number rfl (by decide) missing comes
  have comes := visits_after_number rfl (by decide) missing comes
  have comes := visits_after_number rfl (by decide) missing comes
  have comes := visits_after_number rfl (by decide) missing comes
  have ended : (othersubr [] [.number 0, .number 3, .number 5, .number 5, .number 5]).outcome =
      .ok ([.operator .callothersubr, .number 0], 0) := Attempt.ok_of_to_option (by decide +kernel)
  have read : Lexeme.readType1 [12, 16] = .ok (.command Type1Op.callothersubr.key, []) := rfl
  rcases visits_cases read (by decide) ended comes with ⟨rfl, rfl⟩ | onward
  · exact not_ends_without_height 5 5 5 3 [] missing.2
  · cases onward with
    | here =>
        obtain ⟨⟨rest, reads⟩, -⟩ := missing
        cases reads
    | onward read => cases read

/-- The first 48 of the numbers that come together are as they may be; all others are 0, and there are
none unless decoding comes to the end of a flex that has no height and 48 numbers before it. -/
theorem numbers_past_limit_are_zeros {subrs : Option Index} {charstring : Bytes}
    {tokens : List (Token Type1Op Int)} (decodes : (decode subrs charstring).outcome = .ok tokens) :
    (∀ numbers, numbers <:+: tokens → (∀ token ∈ numbers, token.isNumber = true) →
      ∀ token ∈ numbers.drop 48, token = .number 0) ∧
    (¬ MissesHeight subrs charstring →
      ∀ numbers, numbers <:+: tokens → (∀ token ∈ numbers, token.isNumber = true) →
        numbers.length ≤ 48) := by
  constructor
  · intro numbers consecutive all token member
    exact (surplus_zero decodes consecutive all member).1
  · intro heights numbers consecutive all
    by_contra more
    have surplus : numbers.drop maxArguments ≠ [] := by
      rw [Ne, List.drop_eq_nil_iff]
      exact more
    obtain ⟨token, member⟩ := List.exists_mem_of_ne_nil _ surplus
    exact heights (surplus_zero decodes consecutive all member).2

theorem surplus_with_and_without_height :
    (∃ tokens, (decode none (zerosBeyond 1)).outcome = .ok tokens ∧ tokens.length = 49 ∧
      (∀ token ∈ tokens, token.isNumber = true) ∧ ∀ token ∈ tokens.drop 48, token = .number 0) ∧
    ∃ tokens numbers, (decode none withHeight).outcome = .ok tokens ∧ numbers <:+: tokens ∧
      (∀ token ∈ numbers, token.isNumber = true) ∧ ¬ MissesHeight none withHeight ∧
      numbers.length ≤ 48 := by
  constructor
  · have decodes := decode_zeros_beyond none 1
    have all : ∀ token ∈ List.replicate (maxArguments + 1) (Token.number 0 : Token Type1Op Int),
        token.isNumber = true := by simp [Token.isNumber]
    exact ⟨_, decodes, List.length_replicate, all,
      (numbers_past_limit_are_zeros decodes).1 _ List.infix_rfl all⟩
  · have decodes : (decode none withHeight).outcome =
        .ok ([.number 0] ++ [.operator .callothersubr]) := Attempt.ok_of_to_option (by decide +kernel)
    have consecutive :=
      List.infix_append [] [Token.number (O := Type1Op) (0 : Int)] [.operator .callothersubr]
    have all : ∀ token ∈ ([.number 0] : List (Token Type1Op Int)), token.isNumber = true := by decide
    exact ⟨_, _, decodes, consecutive, all, heights_with_height,
      (numbers_past_limit_are_zeros decodes).2 heights_with_height _ consecutive all⟩

theorem flex_end_passes_limit :
    ¬ ∀ subrs charstring tokens, (decode subrs charstring).outcome = .ok tokens →
      ∀ numbers, numbers <:+: tokens → (∀ token ∈ numbers, token.isNumber = true) →
        numbers.length ≤ 48 := by
  intro limited
  have decodes : (decode none (List.replicate 48 139 ++ [9, 139, 139, 142, 139, 12, 16, 14])).outcome =
      .ok (List.replicate 49 (.number 0) ++ [.operator .callothersubr, .operator .endchar]) :=
    Attempt.ok_of_to_option (by decide +kernel)
  have all : ∀ token ∈ List.replicate 49 (Token.number 0 : Token Type1Op Int),
      token.isNumber = true := by simp [Token.isNumber]
  exact absurd (limited none _ _ decodes _ (List.infix_append [] _ _) all) (by decide)

end CompactFont.Type1
