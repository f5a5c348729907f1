import CompactFont.Charstring.Type1
import CompactFont.Proofs.LexemeBoundary
import CompactFont.Proofs.Outcome

set_option autoImplicit false

namespace CompactFont.Type1

def BeginsWithPop (bytes : Bytes) : Prop := ∃ rest, bytes = 12 :: 17 :: rest

def KeepsPop (decoder : Bytes → Stack → Decoding Stack) (bytes : Bytes) (stack : Stack) : Prop :=
  (decoder (bytes ++ [12, 17]) stack).outcome =
    (Token.operator Type1Op.pop :: ·) <$> (decoder bytes stack).outcome

section Taking

theorem pop_integer_number (value : Int) (stack : Stack) :
    popInteger (.number value :: stack) = .ok (value, stack) := by
  rw [popInteger, takeInteger]
  rfl

theorem pop_integer_div (stack : Stack) :
    popInteger (.operator .div :: stack) = (do
      let (divisor, below) ← popInteger stack
      let (dividend, bottom) ← popInteger below
      let value ← quotient dividend divisor
      pure (value, bottom)) := by
  rw [popInteger, takeInteger]
  simp only [popInteger, bind_assoc, pure_bind]

theorem pop_integers_number (count : Nat) (taken : List Int) (value : Int) (stack : Stack) :
    popIntegers (count + 1) taken (.number value :: stack) = popIntegers count (value :: taken) stack := by
  rw [popIntegers, pop_integer_number]
  rfl

theorem call_other_end (count first second : Int) (stack : Stack) :
    callOther 0 count (.number second :: .number first :: stack) =
      .ok ([first, second], .operator .callothersubr :: .number 0 :: stack.drop 1) := by
  have popped : popIntegers 2 [] (.number second :: .number first :: stack) =
      .ok ([first, second], stack) :=
    (pop_integers_number 1 [] second _).trans (pop_integers_number 0 [second] first stack)
  simp only [callOther, popped]
  rfl

inductive Takes : Stack → Int → Stack → Prop
  | number (value : Int) (rest : Stack) : Takes (.number value :: rest) value rest
  | quotient {inner below rest : Stack} {divisor dividend value : Int}
      (first : Takes inner divisor below) (second : Takes below dividend rest)
      (divides : quotient dividend divisor = .ok value) : Takes (.operator .div :: inner) value rest

theorem takes_of_take_integer {stack : Stack} {value : Int}
    {rest : { rest : Stack // rest.length < stack.length }}
    (taken : takeInteger stack = .ok (value, rest)) : Takes stack value rest.val := by
  fun_induction takeInteger stack generalizing value with
  | case1 => cases taken
  | case2 number below =>
      cases taken
      exact .number number below
  | case3 inner first second =>
      obtain ⟨⟨divisor, below, shorter⟩, takenFirst, onward⟩ := Attempt.except_bind_ok taken
      obtain ⟨⟨dividend, bottom, shortest⟩, takenSecond, onward⟩ := Attempt.except_bind_ok onward
      obtain ⟨result, divides, last⟩ := Attempt.except_bind_ok onward
      cases last
      exact .quotient (first takenFirst) (second below shorter takenSecond) divides
  | case4 => cases taken

theorem takes_of_pop_integer {stack rest : Stack} {value : Int}
    (popped : popInteger stack = .ok (value, rest)) : Takes stack value rest := by
  obtain ⟨⟨taken, below⟩, took, last⟩ := Attempt.except_bind_ok popped
  cases last
  exact takes_of_take_integer took

theorem quotient_ok {dividend divisor value : Int} (divides : quotient dividend divisor = .ok value) :
    divisor ≠ 0 ∧ value = Int.tdiv dividend divisor ∧ value ≤ maxInteger := by
  unfold quotient at divides
  split at divides
  · cases divides
  · rename_i defined
    rw [not_or, Int.not_lt] at defined
    obtain rfl := Except.ok.inj divides
    exact ⟨defined.1, rfl, defined.2⟩

end Taking

theorem deliver_nothing (bytes : Bytes) (stack : Stack) :
    deliver [] bytes stack = .ok ([], stack, 0) := by
  rw [deliver]
  exact fun _ _ _ none => by cases none

theorem deliver_without_pop (results : List Int) {bytes : Bytes} (noPop : ¬ BeginsWithPop bytes)
    (stack : Stack) : deliver results bytes stack = .ok (results, stack, 0) := by
  rw [deliver]
  rintro _ _ rest _ rfl
  exact noPop ⟨rest, rfl⟩

theorem deliver_ok {results unused : List Int} {bytes : Bytes} {stack after : Stack} {used : Nat}
    (done : deliver results bytes stack = .ok (unused, after, used)) :
    used ≤ bytes.length ∧ (unused = [] ∨ ¬ BeginsWithPop (bytes.drop used)) := by
  fun_induction deliver results bytes stack generalizing used with
  | case1 result results bytes stack ih =>
      obtain ⟨pushed, -, delivered⟩ := Attempt.except_bind_ok done
      obtain ⟨⟨_, _, fewer⟩, others, last⟩ := Attempt.except_bind_ok delivered
      cases last
      obtain ⟨fits, taken⟩ := ih _ others
      exact ⟨Nat.add_le_add_right fits 2, taken⟩
  | case2 results bytes stack noPop =>
      cases done
      refine ⟨Nat.zero_le _, ?_⟩
      cases unused with
      | nil => exact .inl rfl
      | cons result rest =>
          refine .inr ?_
          rintro ⟨more, begins⟩
          exact noPop result rest more rfl begins

theorem deliver_append {results unused : List Int} {bytes : Bytes} {stack after : Stack} {used : Nat}
    (done : deliver results bytes stack = .ok (unused, after, used)) (tail : Bytes) :
    deliver results (bytes ++ tail) stack = (do
      let (left, last, more) ← deliver unused (bytes.drop used ++ tail) after
      pure (left, last, more + used)) := by
  fun_induction deliver results bytes stack generalizing used with
  | case1 result results bytes stack ih =>
      obtain ⟨pushed, room, delivered⟩ := Attempt.except_bind_ok done
      obtain ⟨⟨_, _, fewer⟩, others, last⟩ := Attempt.except_bind_ok delivered
      cases last
      rw [List.cons_append, List.cons_append, deliver, room]
      change (deliver results (bytes ++ tail) pushed >>= _) = _
      rw [ih _ others]
      simp only [bind_assoc, pure_bind]
      rfl
  | case2 results bytes stack noPop =>
      cases done
      exact (bind_pure _).symm

section Run

variable (call : Stack → Decoding Stack)

theorem run_nil (stack : Stack) : run call [] stack = pure stack := by
  rw [run, if_pos rfl]

theorem run_lexeme {bytes rest : Bytes} {lexeme : Lexeme Int} (stack : Stack)
    (read : Lexeme.readType1 bytes = .ok (lexeme, rest)) :
    run call bytes stack = (do
      let (next, used) ← step call rest stack lexeme
      run call (rest.drop used) next) := by
  have more : bytes ≠ [] := by
    rintro rfl
    cases read
  rw [run, if_neg more]
  split <;> rename_i found <;> rw [read] at found <;> cases found
  rfl

theorem begins_with_pop_of_append {bytes tail : Bytes} {stack after : Stack}
    (ran : (run call bytes stack).outcome = .ok after) (some : bytes ≠ [])
    (pops : BeginsWithPop (bytes ++ tail)) : BeginsWithPop bytes := by
  obtain ⟨rest, begins⟩ := pops
  match bytes with
  | [] => exact absurd rfl some
  | [first] =>
      obtain ⟨rfl, -⟩ := List.cons.inj begins
      rw [run, if_neg some] at ran
      cases ran
  | first :: second :: more =>
      obtain ⟨rfl, following⟩ := List.cons.inj begins
      obtain ⟨rfl, -⟩ := List.cons.inj following
      exact ⟨more, rfl⟩

-- What more bytes after a lexeme change in what it does: nothing, or only what a `pop` at their
-- start takes, to which a result is left.
inductive LooksAhead (act : Bytes → Decoding (Stack × Nat)) (bytes : Bytes) (next : Stack)
    (used : Nat) : Prop where
  | never (same : ∀ tail, act (bytes ++ tail) = act bytes)
  | atPop (result : Int) (passed : ¬ BeginsWithPop (bytes.drop used))
      (same : ∀ tail, ¬ BeginsWithPop (bytes.drop used ++ tail) → act (bytes ++ tail) = act bytes)
      (taken : bytes.drop used = [] →
        (act (bytes ++ [12, 17])).outcome = (·, used + 2) <$> Token.push result next)

theorem othersubr_ok {bytes : Bytes} {stack next : Stack} {used : Nat}
    (done : (othersubr bytes stack).outcome = .ok (next, used)) :
    ∃ results rest unused number, deliver results bytes rest = .ok (unused, next, used) ∧
      ∀ more, othersubr more stack = (do
        let (unused, stack, used) ← deliver results more rest
        if unused ≠ [] then Report.note (.unusedResults unused.length number)
        pure (stack, used)) := by
  obtain ⟨⟨number, first⟩, named, counted⟩ := Attempt.bind_ok done
  obtain ⟨⟨count, second⟩, given, called⟩ := Attempt.bind_ok counted
  obtain ⟨⟨results, rest⟩, performed, delivering⟩ := Attempt.bind_ok called
  obtain ⟨⟨unused, after, taken⟩, delivered, noted⟩ := Attempt.bind_ok delivering
  have last : (after, taken) = (next, used) := by
    dsimp only at noted
    split at noted <;> exact Except.ok.inj noted
  obtain ⟨rfl, rfl⟩ := Prod.mk.inj last
  have named : popInteger stack = .ok (number, first) := named
  have given : popInteger first = .ok (count, second) := given
  have performed : callOther number count second = .ok (results, rest) := performed
  refine ⟨results, rest, unused, number, delivered, fun more => ?_⟩
  simp only [othersubr, named, given, performed, Attempt.lift_ok_bind]

theorem othersubr_looks_ahead {bytes : Bytes} {stack next : Stack} {used : Nat}
    (done : (othersubr bytes stack).outcome = .ok (next, used)) :
    used ≤ bytes.length ∧ LooksAhead (othersubr · stack) bytes next used := by
  obtain ⟨results, rest, unused, number, delivered, carried⟩ := othersubr_ok done
  obtain ⟨fits, passed⟩ := deliver_ok delivered
  -- Results that the bytes that follow leave as they are.
  have left (tail : Bytes)
      (none : deliver unused (bytes.drop used ++ tail) next = .ok (unused, next, 0)) :
      othersubr (bytes ++ tail) stack = othersubr bytes stack := by
    have same : deliver results (bytes ++ tail) rest = .ok (unused, next, used) := by
      rw [deliver_append delivered, none]
      exact congrArg (fun count => Except.ok (unused, next, count)) (Nat.zero_add used)
    rw [carried, carried, same, delivered]
  refine ⟨fits, ?_⟩
  cases unused with
  | nil => exact .never fun tail => left tail (deliver_nothing _ _)
  | cons result others =>
      refine .atPop result (passed.resolve_left (List.cons_ne_nil _ _))
        (fun tail apart => left tail (deliver_without_pop _ apart _)) fun ends => ?_
      have taken : deliver results (bytes ++ [12, 17]) rest =
          (others, ·, used + 2) <$> Token.push result next := by
        have unread (pushed : Stack) : deliver others [] pushed = .ok (others, pushed, 0) :=
          deliver_without_pop others (fun ⟨_, begins⟩ => by cases begins) pushed
        rw [deliver_append delivered, ends, List.nil_append, deliver]
        cases Token.push result next with
        | error error => rfl
        | ok pushed =>
            simp only [bind, Except.bind, unread, pure, Except.pure, Nat.zero_add]
            rw [Nat.add_comm]
            rfl
      rw [carried, taken]
      cases Token.push result next with
      | error error => rfl
      | ok pushed =>
          refine (Attempt.outcome_bind_lift rfl).trans ?_
          dsimp only
          split <;> rfl

theorem step_looks_ahead {bytes : Bytes} {stack next : Stack} {lexeme : Lexeme Int} {used : Nat}
    (done : (step call bytes stack lexeme).outcome = .ok (next, used)) :
    used ≤ bytes.length ∧ LooksAhead (step call · stack lexeme) bytes next used := by
  have never {act : Bytes → Decoding (Stack × Nat)} (same : ∀ more, act more = act bytes) :
      0 ≤ bytes.length ∧ LooksAhead act bytes next 0 :=
    ⟨Nat.zero_le _, .never fun _ => same _⟩
  cases lexeme with
  | number value =>
      obtain ⟨pushed, -, added⟩ := Attempt.bind_ok done
      cases added
      exact never fun _ => rfl
  | command key =>
      simp only [step] at done ⊢
      cases known : Type1Op.ofKey? key with
      | none =>
          rw [known] at done
          cases done
          exact never fun _ => rfl
      | some op =>
          rw [known] at done
          cases op with
          | callsubr =>
              obtain ⟨after, -, added⟩ := Attempt.bind_ok done
              cases added
              exact never fun _ => rfl
          | callothersubr => exact othersubr_looks_ahead done
          | _ =>
              cases done
              exact never fun _ => rfl

theorem step_append {bytes rest : Bytes} {stack next after : Stack} {lexeme : Lexeme Int}
    {used : Nat} (read : Lexeme.readType1 bytes = .ok (lexeme, rest))
    (stepped : (step call rest stack lexeme).outcome = .ok (next, used))
    (remaining : (run call (rest.drop used) next).outcome = .ok after) {tail : Bytes}
    (apart : BeginsWithPop tail → KeepsPop (run call) bytes stack) :
    used ≤ rest.length ∧ step call (rest ++ tail) stack lexeme = step call rest stack lexeme := by
  obtain ⟨fits, looks⟩ := step_looks_ahead call stepped
  refine ⟨fits, ?_⟩
  cases looks with
  | never same => exact same tail
  | atPop result passed same taken =>
      refine same tail fun pops => ?_
      by_cases ends : rest.drop used = []
      · rw [ends, List.nil_append] at pops
        -- The `pop` would take the result, and a number stand where the operator does.
        have ran : (run call bytes stack).outcome = .ok next := by
          rw [run_lexeme call stack read, Attempt.outcome_bind_of_ok stepped]
          dsimp only
          rw [ends, run_nil, Attempt.outcome_pure]
        have kept := apart pops
        rw [KeepsPop, ran,
          run_lexeme call stack (Lexeme.stable_read_type1 _ _ _ [12, 17] read)] at kept
        obtain ⟨_, acted, ended⟩ := Attempt.bind_ok kept
        rw [taken ends] at acted
        obtain ⟨pushed, room, rfl⟩ := Attempt.except_map_ok acted
        have covered : (rest ++ [12, 17]).drop (used + 2) = [] := by
          rw [List.drop_eq_nil_iff] at ends ⊢
          simpa using ends
        dsimp only at ended
        rw [covered, run_nil, (Token.push_ok room).2] at ended
        cases ended
      · exact passed (begins_with_pop_of_append call remaining ends pops)

theorem run_append {head : Bytes} {stack after : Stack}
    (ran : (run call head stack).outcome = .ok after) {tail : Bytes}
    (apart : BeginsWithPop tail → KeepsPop (run call) head stack) :
    run call (head ++ tail) stack = run call head stack >>= run call tail := by
  fun_induction run call head stack with
  | case1 stack => rfl
  | case2 bytes stack more error failed => cases ran
  | case3 bytes stack more lexeme rest found ih =>
      obtain ⟨⟨next, used⟩, stepped, remaining⟩ := Attempt.bind_ok ran
      obtain ⟨fits, same⟩ := step_append call found stepped remaining apart
      rw [run_lexeme call stack (Lexeme.stable_read_type1 _ _ _ tail found), bind_assoc, same]
      refine Attempt.bind_congr_of_ok stepped ?_
      dsimp only
      rw [List.drop_append_of_le_length fits]
      refine ih next used remaining fun pops => ?_
      have kept := apart pops
      have popped : step call (rest ++ [12, 17]) stack lexeme = step call rest stack lexeme :=
        (step_append call found stepped remaining fun _ => kept).2
      rw [KeepsPop, run_lexeme call stack (Lexeme.stable_read_type1 _ _ _ [12, 17] found), popped,
        run_lexeme call stack found, Attempt.outcome_bind_of_ok stepped,
        Attempt.outcome_bind_of_ok stepped] at kept
      dsimp only at kept
      rw [List.drop_append_of_le_length fits] at kept
      exact kept

end Run

def Refines (small large : Bytes → Stack → Decoding Stack) : Prop :=
  ∀ bytes stack after, (small bytes stack).outcome = .ok after →
    large bytes stack = small bytes stack

section Refinement

variable {small large : Bytes → Stack → Decoding Stack}

theorem call_refines (refines : Refines small large) (subrs : Option Index) (stack after : Stack)
    (done : (call subrs small stack).outcome = .ok after) :
    call subrs large stack = call subrs small stack := by
  unfold call at done ⊢
  split
  · rename_i number rest
    cases found : subroutine? subrs number with
    | none => rfl
    | some body =>
        simp only [found, Attempt.outcome_map] at done ⊢
        obtain ⟨entered, ran, -⟩ := Attempt.except_map_ok done
        rw [refines _ _ _ ran]
  · rfl

theorem step_refines (refines : Refines small large) (subrs : Option Index) (bytes : Bytes)
    (stack next : Stack) (lexeme : Lexeme Int) (used : Nat)
    (done : (step (call subrs small) bytes stack lexeme).outcome = .ok (next, used)) :
    step (call subrs large) bytes stack lexeme = step (call subrs small) bytes stack lexeme := by
  cases lexeme with
  | number value => rfl
  | command key =>
      simp only [step] at done ⊢
      cases known : Type1Op.ofKey? key with
      | none => rfl
      | some op =>
          rw [known] at done
          cases op with
          | callsubr =>
              obtain ⟨after, called, -⟩ := Attempt.bind_ok done
              dsimp only
              rw [call_refines refines subrs stack after called]
          | _ => rfl

theorem run_refines (refines : Refines small large) (subrs : Option Index) :
    Refines (run (call subrs small)) (run (call subrs large)) := by
  intro bytes stack after done
  fun_induction run (call subrs small) bytes stack with
  | case1 stack => rw [run_nil]
  | case2 bytes stack more error failed => cases done
  | case3 bytes stack more lexeme rest found ih =>
      obtain ⟨⟨next, used⟩, stepped, remaining⟩ := Attempt.bind_ok done
      rw [run_lexeme _ stack found,
        step_refines refines subrs rest stack next lexeme used stepped]
      exact Attempt.bind_congr_of_ok stepped (ih next used remaining)

end Refinement

theorem decode_nested_succ (subrs : Option Index) (nesting : Nat) :
    Refines (decodeNested subrs nesting) (decodeNested subrs (nesting + 1)) := by
  induction nesting with
  | zero =>
      have nothing : Refines (fun _ _ => throw .nestingLimit) (decodeNested subrs 0) := by
        intro bytes stack after done
        cases done
      exact run_refines nothing subrs
  | succ nesting ih => exact run_refines ih subrs

end CompactFont.Type1
