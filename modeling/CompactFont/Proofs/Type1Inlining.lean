import CompactFont.Proofs.IndexReading
import CompactFont.Proofs.Type1Run

set_option autoImplicit false

namespace CompactFont.Type1

def PopStays (subrs : Option Index) (text : Bytes) : Prop :=
  (decode subrs (text ++ [12, 17])).outcome = (· ++ [.operator .pop]) <$> (decode subrs text).outcome

section Runs

variable (subrs : Option Index)

theorem decode_nested_append {nesting : Nat} {head : Bytes} {stack after : Stack}
    (ran : (decodeNested subrs nesting head stack).outcome = .ok after) {tail : Bytes}
    (apart : BeginsWithPop tail → KeepsPop (decodeNested subrs nesting) head stack) :
    decodeNested subrs nesting (head ++ tail) stack =
      decodeNested subrs nesting head stack >>= decodeNested subrs nesting tail := by
  cases nesting with
  | zero => exact run_append _ ran apart
  | succ nesting => exact run_append _ ran apart

theorem decode_nested_nil (nesting : Nat) (stack : Stack) :
    decodeNested subrs nesting [] stack = pure stack := by
  cases nesting <;> exact run_nil _ stack

theorem decode_nested_pop (nesting : Nat) (stack : Stack) :
    decodeNested subrs nesting [12, 17] stack = pure (.operator .pop :: stack) := by
  have read : Lexeme.readType1 [12, 17] = .ok (.command (.escape 17), []) := rfl
  cases nesting <;> exact (run_lexeme _ stack read).trans (run_nil _ _)

theorem decode_ok {text : Bytes} {stack : Stack}
    (ran : (decodeNested subrs maxNesting text []).outcome = .ok stack) :
    (decode subrs text).outcome = .ok stack.reverse := by
  rw [decode, Attempt.outcome_map, ran]
  rfl

theorem pop_stays_iff {text : Bytes} {stack : Stack}
    (ran : (decodeNested subrs maxNesting text []).outcome = .ok stack) :
    PopStays subrs text ↔ KeepsPop (decodeNested subrs maxNesting) text [] := by
  rw [PopStays, KeepsPop, decode_ok subrs ran, ran, decode, Attempt.outcome_map]
  cases (decodeNested subrs maxNesting (text ++ [12, 17]) []).outcome with
  | error error =>
      constructor
      · intro same
        cases same
      · intro same
        cases same
  | ok last =>
      change Except.ok last.reverse = Except.ok (stack.reverse ++ [.operator .pop]) ↔
        Except.ok last = Except.ok (.operator .pop :: stack)
      rw [Except.ok.injEq, Except.ok.injEq, ← List.reverse_cons, List.reverse_inj]

theorem decode_nested_return (nesting : Nat) (stack : Stack) :
    decodeNested subrs nesting [11] stack = pure (.operator .subrReturn :: stack) := by
  have read : Lexeme.readType1 [11] = .ok (.command (.single 11), []) := rfl
  cases nesting <;> exact (run_lexeme _ stack read).trans (run_nil _ _)

theorem enter_returning {nesting : Nat} {body : Bytes} {stack after : Stack}
    (ran : (decodeNested subrs nesting body stack).outcome = .ok after) :
    dropReturn <$> decodeNested subrs nesting (body ++ [11]) stack =
      decodeNested subrs nesting body stack := by
  rw [decode_nested_append subrs ran (fun ⟨_, begins⟩ => by cases begins), map_bind]
  apply Attempt.bind_pure_of_ok ran
  rw [decode_nested_return, map_pure]
  rfl

end Runs

section Call

variable {index : Index} {place : Nat} {body : Bytes}
  (subroutine : index.get? place = some (body ++ [11])) {operand : Bytes}
  (readsOperand : Lexeme.readType1 operand = .ok (.number place, []))

include readsOperand in
theorem run_call_operand (call : Stack → Decoding Stack) (tail : Bytes) (stack : Stack) :
    run call (operand ++ 10 :: tail) stack = (do
      let waiting ← Token.push (place : Int) stack
      let next ← call waiting
      run call tail next) := by
  have readsOperator : Lexeme.readType1 (10 :: tail) = .ok (.command (.single 10), tail) := rfl
  rw [run_lexeme call stack (Lexeme.stable_read_type1 _ _ _ (10 :: tail) readsOperand)]
  simp only [step, bind_assoc, pure_bind, List.nil_append, List.drop_zero]
  refine bind_congr fun waiting => ?_
  rw [run_lexeme call waiting readsOperator]
  change ((call waiting >>= fun next => pure (next, 0)) >>= _) = _
  simp only [bind_assoc, pure_bind, List.drop_zero]

include readsOperand in
theorem not_begins_with_pop_operand (tail : Bytes) : ¬ BeginsWithPop (operand ++ tail) := by
  rintro ⟨rest, begins⟩
  have read := Lexeme.stable_read_type1 _ _ _ tail readsOperand
  rw [begins] at read
  cases read

include subroutine in
theorem call_subroutine {nesting : Nat} {stack after : Stack}
    (ran : (decodeNested (some index) nesting body stack).outcome = .ok after) :
    call (some index) (decodeNested (some index) nesting) (.number (place : Int) :: stack) =
      decodeNested (some index) nesting body stack := by
  have found : subroutine? (some index) (place : Int) = some (body ++ [11]) := by
    rw [subroutine?, if_pos (Int.natCast_nonneg place), Int.toNat_natCast]
    exact subroutine
  simp only [call, found]
  exact enter_returning (some index) ran

include subroutine readsOperand in
theorem decode_nested_call {nesting : Nat} {stack returned : Stack}
    (returns : (decodeNested (some index) nesting body stack).outcome = .ok returned)
    (room : Token.pending stack < maxArguments) (tail : Bytes) :
    decodeNested (some index) (nesting + 1) (operand ++ 10 :: tail) stack =
      decodeNested (some index) (nesting + 1) body stack >>=
        decodeNested (some index) (nesting + 1) tail := by
  have deeper := decode_nested_succ (some index) nesting body stack returned returns
  rw [deeper]
  refine (run_call_operand readsOperand _ tail stack).trans ?_
  rw [Token.push_of_pending_lt _ room, Attempt.lift_ok_bind, call_subroutine subroutine returns]
  rfl

variable {before : Bytes} {reached returned : Stack}
  (reaches : (decodeNested (some index) maxNesting before []).outcome = .ok reached)
  (returns : (decodeNested (some index) (maxNesting - 1) body reached).outcome = .ok returned)

include reaches readsOperand in
theorem pending_lt_of_call {after : Bytes} {tokens : List (Token Type1Op Int)}
    (decodes : (decode (some index) (before ++ operand ++ [10] ++ after)).outcome = .ok tokens) :
    Token.pending reached < maxArguments := by
  have split : before ++ operand ++ [10] ++ after = before ++ (operand ++ 10 :: after) := by simp
  rw [split, decode, Attempt.outcome_map] at decodes
  obtain ⟨last, ran, -⟩ := Attempt.except_map_ok decodes
  rw [decode_nested_append (some index) reaches
    (fun pops => absurd pops (not_begins_with_pop_operand readsOperand _)),
    Attempt.outcome_bind_of_ok reaches] at ran
  have pushing := (congrArg Attempt.outcome (run_call_operand readsOperand
    (call (some index) (decodeNested (some index) 9)) after reached)).symm.trans ran
  obtain ⟨waiting, pushed, -⟩ := Attempt.bind_ok pushing
  exact (Token.push_ok (pushed : Token.push (place : Int) reached = .ok waiting)).1

include subroutine readsOperand reaches returns in
theorem decode_call (room : Token.pending reached < maxArguments) (after : Bytes) :
    decodeNested (some index) maxNesting (before ++ operand ++ [10] ++ after) [] =
      decodeNested (some index) maxNesting before [] >>= fun stack =>
        decodeNested (some index) maxNesting body stack >>=
          decodeNested (some index) maxNesting after := by
  have split : before ++ operand ++ [10] ++ after = before ++ (operand ++ 10 :: after) := by simp
  rw [split, decode_nested_append (some index) reaches
    fun pops => absurd pops (not_begins_with_pop_operand readsOperand _)]
  apply Attempt.bind_congr_of_ok reaches
  exact decode_nested_call subroutine readsOperand returns room after

include returns in
theorem decode_nested_body :
    (decodeNested (some index) maxNesting body reached).outcome = .ok returned := by
  have deeper := decode_nested_succ (some index) (maxNesting - 1) body reached returned returns
  exact (congrArg Attempt.outcome deeper).trans returns

include subroutine readsOperand reaches returns in
theorem outcome_decode_call (room : Token.pending reached < maxArguments) (after : Bytes) :
    (decode (some index) (before ++ operand ++ [10] ++ after)).outcome =
      List.reverse <$> (decodeNested (some index) maxNesting after returned).outcome := by
  rw [decode, Attempt.outcome_map,
    decode_call subroutine readsOperand reaches returns room after,
    Attempt.outcome_bind_of_ok reaches,
    Attempt.outcome_bind_of_ok (decode_nested_body returns)]

include reaches returns in
theorem decode_text (parted : BeginsWithPop body → PopStays (some index) before) {after : Bytes}
    (apart : BeginsWithPop after → PopStays (some index) (before ++ body)) :
    decodeNested (some index) maxNesting (before ++ body ++ after) [] =
      decodeNested (some index) maxNesting before [] >>= fun stack =>
        decodeNested (some index) maxNesting body stack >>=
          decodeNested (some index) maxNesting after := by
  have joined := decode_nested_append (some index) reaches fun pops =>
    (pop_stays_iff (some index) reaches).mp (parted pops)
  have ran : (decodeNested (some index) maxNesting (before ++ body) []).outcome = .ok returned := by
    rw [joined, Attempt.outcome_bind_of_ok reaches]
    exact decode_nested_body returns
  rw [decode_nested_append (some index) ran fun pops =>
    (pop_stays_iff (some index) ran).mp (apart pops), joined, bind_assoc]

include subroutine readsOperand reaches returns

/-- The bytes of a subroutine decode in the place of a call of it like the call, where no results of
an OtherSubr are left for a `pop` at the start of the bytes or of what follows. They do so whatever
follows exactly if they decode like the call when nothing does, and then leave no results. -/
theorem text_decodes_as_call :
    ((BeginsWithPop body → PopStays (some index) before) →
      ∀ after, (BeginsWithPop after → PopStays (some index) (before ++ body)) →
        ∀ tokens, (decode (some index) (before ++ operand ++ [10] ++ after)).outcome = .ok tokens →
          (decode (some index) (before ++ body ++ after)).outcome = .ok tokens ∧
          (decode (some index) (before ++ body ++ after)).notices =
            (decode (some index) (before ++ operand ++ [10] ++ after)).notices) ∧
    (Token.pending reached < maxArguments →
      ((∀ after tokens,
          (decode (some index) (before ++ operand ++ [10] ++ after)).outcome = .ok tokens →
          (decode (some index) (before ++ body ++ after)).outcome = .ok tokens) ↔
        (decode (some index) (before ++ body)).outcome = .ok returned.reverse ∧
          PopStays (some index) (before ++ body))) := by
  constructor
  · intro parted after apart tokens decodes
    have room := pending_lt_of_call readsOperand reaches decodes
    have same : decode (some index) (before ++ body ++ after) =
        decode (some index) (before ++ operand ++ [10] ++ after) := by
      rw [decode, decode, decode_text reaches returns parted apart,
        decode_call subroutine readsOperand reaches returns room after]
    rw [same]
    exact ⟨decodes, rfl⟩
  · intro room
    have called := outcome_decode_call subroutine readsOperand reaches returns room
    constructor
    · intro follows
      have alone : (decode (some index) (before ++ body)).outcome = .ok returned.reverse := by
        have nothing := called []
        rw [decode_nested_nil] at nothing
        have text := follows [] returned.reverse nothing
        rwa [List.append_nil] at text
      have popped : (decode (some index) (before ++ operand ++ [10] ++ [12, 17])).outcome =
          .ok (.operator .pop :: returned).reverse := by
        rw [called, decode_nested_pop]
        rfl
      refine ⟨alone, ?_⟩
      rw [PopStays, follows _ _ popped, alone, List.reverse_cons]
      rfl
    · rintro ⟨alone, stays⟩ after tokens decodes
      have ran : (decodeNested (some index) maxNesting (before ++ body) []).outcome =
          .ok returned := by
        rw [decode, Attempt.outcome_map] at alone
        obtain ⟨stack, ran, same⟩ := Attempt.except_map_ok alone
        rw [ran, List.reverse_inj.mp same]
      rw [called after] at decodes
      rw [decode, Attempt.outcome_map, decode_nested_append (some index) ran
        (fun _ => (pop_stays_iff (some index) ran).mp stays), Attempt.outcome_bind_of_ok ran]
      exact decodes

end Call

def resultSubroutines : Index :=
  .ofObjects 1 [[146, 140, 151, 12, 16] ++ [11], [143, 140, 142, 12, 16, 12, 17] ++ [11]]

theorem pop_after_taken_result :
    (decode (some resultSubroutines)
          ([] ++ [143, 140, 142, 12, 16, 12, 17] ++ [12, 17, 14])).outcome =
        .ok [.number 4, .operator .pop, .operator .endchar] ∧
      (decode (some resultSubroutines)
          ([] ++ [143, 140, 142, 12, 16, 12, 17] ++ [12, 17, 14])).notices =
        (decode (some resultSubroutines) ([] ++ [140] ++ [10] ++ [12, 17, 14])).notices := by
  have subroutine : resultSubroutines.get? 1 = some ([143, 140, 142, 12, 16, 12, 17] ++ [11]) := by
    decide
  have readsOperand : Lexeme.readType1 [140] = .ok (.number ((1 : Nat) : Int), []) := rfl
  have reaches : (decodeNested (some resultSubroutines) maxNesting [] []).outcome = .ok [] :=
    Attempt.ok_of_to_option (by decide +kernel)
  have returns : (decodeNested (some resultSubroutines) (maxNesting - 1)
      [143, 140, 142, 12, 16, 12, 17] []).outcome = .ok [.number 4] :=
    Attempt.ok_of_to_option (by decide +kernel)
  have alone : (decode (some resultSubroutines)
      ([] ++ [143, 140, 142, 12, 16, 12, 17])).outcome = .ok [.number 4] :=
    Attempt.ok_of_to_option (by decide +kernel)
  have popped : (decode (some resultSubroutines)
      ([] ++ [143, 140, 142, 12, 16, 12, 17] ++ [12, 17])).outcome =
        .ok [.number 4, .operator .pop] :=
    Attempt.ok_of_to_option (by decide +kernel)
  have stays : PopStays (some resultSubroutines) ([] ++ [143, 140, 142, 12, 16, 12, 17]) := by
    rw [PopStays, popped, alone]
    rfl
  have decodes : (decode (some resultSubroutines) ([] ++ [140] ++ [10] ++ [12, 17, 14])).outcome =
      .ok [.number 4, .operator .pop, .operator .endchar] :=
    Attempt.ok_of_to_option (by decide +kernel)
  exact (text_decodes_as_call subroutine readsOperand reaches returns).1
    (fun ⟨_, begins⟩ => by cases begins) _ (fun _ => stays) _ decodes

-- A `pop` after a call of the first one stays an operator, and after its bytes takes the result.
theorem pop_after_left_result :
    resultSubroutines.get? 0 = some ([146, 140, 151, 12, 16] ++ [11]) ∧
      (decode (some resultSubroutines) ([139] ++ [10] ++ [12, 17, 14])).outcome =
        .ok [.operator .pop, .operator .endchar] ∧
      (decode (some resultSubroutines) ([146, 140, 151, 12, 16] ++ [12, 17, 14])).outcome =
        .ok [.number 7, .operator .endchar] :=
  ⟨by decide, Attempt.ok_of_to_option (by decide +kernel),
    Attempt.ok_of_to_option (by decide +kernel)⟩

end CompactFont.Type1
