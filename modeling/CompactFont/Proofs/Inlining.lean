import CompactFont.Proofs.IndexReading
import CompactFont.Proofs.SubroutinePlace
import CompactFont.Proofs.Type2Run

set_option autoImplicit false

namespace CompactFont.Type2

def EndedByEndchar (state : State) : Prop :=
  state.ended = true → state.tokens.head? = some (.operator .endchar)

theorem ended_by_endchar_of_running {state : State} (running : state.ended = false) :
    EndedByEndchar state := by
  intro ended
  rw [running] at ended
  cases ended

theorem drop_return_of_ended {state : State} (endchar : EndedByEndchar state)
    (ended : state.ended = true) : state.dropReturn = state := by
  have last := endchar ended
  rw [State.dropReturn]
  split
  · rename_i rest shape
    rw [shape] at last
    cases last
  · rfl

theorem ended_drop_return (state : State) : state.dropReturn.ended = state.ended := by
  rw [State.dropReturn]
  split <;> rfl

theorem kept_ended_by_endchar (subroutines : Subroutines) :
    Kept subroutines (fun _ => True) EndedByEndchar where
  next state next _ running steps := by
    cases steps with
    | ended => exact fun _ => rfl
    | _ => exact ended_by_endchar_of_running running
  popped _ _ _ _ running _ := ended_by_endchar_of_running running
  stray _ _ running _ _ := ended_by_endchar_of_running running
  dropped state endchar := by
    by_cases ended : state.ended = true
    · rw [drop_return_of_ended endchar ended]
      exact endchar
    · intro still
      rw [ended_drop_return] at still
      exact absurd still ended

variable (subroutines : Subroutines)

theorem decode_nested_append {nesting : Nat} {head : Bytes} {state after : State}
    (ran : (decodeNested subroutines nesting head state).outcome = .ok after) (tail : Bytes) :
    decodeNested subroutines nesting (head ++ tail) state =
      decodeNested subroutines nesting head state >>= decodeNested subroutines nesting tail := by
  cases nesting with
  | zero => exact run_append _ subroutines ran tail
  | succ nesting => exact run_append _ subroutines ran tail

theorem run_return (call : Index → State → Decoding State) {state : State}
    (running : state.ended = false) :
    run call subroutines [11] state = pure (state.add .subrReturn) := by
  have read : Lexeme.readType2 [11] = .ok (.command (.single 11), []) := rfl
  rw [run_lexeme call subroutines running read]
  exact run_nil call subroutines _

theorem enter_returning {nesting : Nat} {body : Bytes} {state after : State}
    (running : state.ended = false)
    (ran : (decodeNested subroutines nesting body state).outcome = .ok after) :
    State.dropReturn <$> decodeNested subroutines nesting (body ++ [11]) state =
      decodeNested subroutines nesting body state := by
  have endchar : EndedByEndchar after :=
    decode_nested_ensures subroutines (kept_ended_by_endchar subroutines) nesting body state
      (ended_by_endchar_of_running running) (fun _ _ => trivial) after ran
  rw [decode_nested_append subroutines ran, map_bind]
  apply Attempt.bind_pure_of_ok ran
  by_cases ended : after.ended = true
  · have stays : decodeNested subroutines nesting [11] after = pure after := by
      cases nesting <;> exact run_ended _ subroutines ended _
    rw [stays, map_pure, drop_return_of_ended endchar ended]
  · have goesOn : after.ended = false := Bool.not_eq_true _ ▸ ended
    have returns : decodeNested subroutines nesting [11] after = pure (after.add .subrReturn) := by
      cases nesting <;> exact run_return subroutines _ goesOn
    rw [returns, map_pure]
    rfl

inductive Calls (subroutines : Subroutines) : UInt8 → Index → Prop where
  | locals {index : Index} (given : subroutines.locals? = some index) : Calls subroutines 10 index
  | globals : Calls subroutines 29 subroutines.globals

variable {subroutines}

theorem run_call_operator (call : Index → State → Decoding State) {byte : UInt8} {index : Index}
    (calls : Calls subroutines byte index) (present : index.isEmpty = false) {state : State}
    (running : state.ended = false) (tail : Bytes) :
    run call subroutines (byte :: tail) state =
      call index state >>= run call subroutines tail := by
  have calling (op : Type2Op) : callOrAdd call index state op = (do
      let next ← call index state
      pure (next, 0)) := by
    rw [callOrAdd, present]
    rfl
  cases calls with
  | locals given =>
      have read : Lexeme.readType2 (10 :: tail) = .ok (.command (.single 10), tail) := rfl
      have stepped : step call subroutines tail state (.command (.single 10)) =
          callOrAdd call index state .callsubr := by
        change callOrAdd call (subroutines.locals?.getD .empty) state .callsubr = _
        rw [given, Option.getD_some]
      rw [run_lexeme call subroutines running read, stepped, calling]
      simp
  | globals =>
      have read : Lexeme.readType2 (29 :: tail) = .ok (.command (.single 29), tail) := rfl
      have stepped : step call subroutines tail state (.command (.single 29)) =
          callOrAdd call subroutines.globals state .callgsubr := rfl
      rw [run_lexeme call subroutines running read, stepped, calling]
      simp

theorem call_subroutine {nesting : Nat} {index : Index} {place : Nat} {body : Bytes}
    (subroutine : index.get? place = some (body ++ [11])) {operand : Number}
    (addresses : operand.truncate = place - bias index.count) (fits : place ≤ 2147483647)
    {state after : State} (running : state.ended = false)
    (ran : (decodeNested subroutines nesting body state).outcome = .ok after) :
    call (decodeNested subroutines nesting) index
        { state with tokens := .number operand :: state.tokens } =
      decodeNested subroutines nesting body state := by
  have found := (subroutine_of_place addresses fits).trans subroutine
  simp only [call, found]
  exact enter_returning subroutines running ran

theorem run_operand (call : Index → State → Decoding State) {bytes : Bytes} {value : Number}
    (operand : Lexeme.readType2 bytes = .ok (.number value, [])) {state after : State}
    (running : state.ended = false) {tail : Bytes}
    (ran : (run call subroutines (bytes ++ tail) state).outcome = .ok after) :
    run call subroutines (bytes ++ tail) state =
      run call subroutines tail { state with tokens := .number value :: state.tokens } := by
  have read := Lexeme.stable_read_type2 _ _ _ tail operand
  rw [run_lexeme call subroutines running read] at ran ⊢
  obtain ⟨_, stepped, -⟩ := Attempt.bind_ok ran
  obtain ⟨tokens, pushed, -⟩ := Attempt.bind_ok stepped
  have done : Token.push value state.tokens = .ok tokens := pushed
  have room := Token.push_of_pending_lt value (Token.push_ok done).1
  simp only [step, room]
  rfl

section Call

variable {byte : UInt8} {index : Index} (calls : Calls subroutines byte index)
  {place : Nat} {body : Bytes} (subroutine : index.get? place = some (body ++ [11]))
  {operand : Bytes} {value : Number}
  (readsOperand : Lexeme.readType2 operand = .ok (.number value, []))
  (addresses : value.truncate = place - bias index.count)

include calls subroutine readsOperand addresses

-- The call needs one level of nesting for what the bytes themselves do in none.
theorem decode_nested_call {nesting : Nat} {state returned last : State} {tail : Bytes}
    (returns : (decodeNested subroutines nesting body state).outcome = .ok returned)
    (decodes : (decodeNested subroutines (nesting + 1) (operand ++ byte :: tail) state).outcome =
      .ok last) :
    decodeNested subroutines (nesting + 1) (operand ++ byte :: tail) state =
      decodeNested subroutines (nesting + 1) (body ++ tail) state := by
  by_cases ended : state.ended = true
  · exact (run_ended _ subroutines ended _).trans (run_ended _ subroutines ended _).symm
  · have running : state.ended = false := Bool.not_eq_true _ ▸ ended
    have deeper := decode_nested_succ subroutines nesting body state returned returns
    have ran : (decodeNested subroutines (nesting + 1) body state).outcome = .ok returned := by
      rw [deeper, returns]
    have inlined := decode_nested_append subroutines ran tail
    rw [deeper] at inlined
    have pushed := run_operand (call (decodeNested subroutines nesting)) readsOperand running decodes
    let waiting : State := { state with tokens := .number value :: state.tokens }
    have waits : waiting.ended = false := running
    have called := run_call_operator (call (decodeNested subroutines nesting)) calls
      (Index.is_empty_of_get subroutine) waits tail
    have fits : place ≤ 2147483647 := by
      have range := bias_range index.count
      have word : -32768 ≤ value.truncate ∧ value.truncate ≤ 32768 :=
        Lexeme.yields_read_type2 _ _ _ readsOperand
      omega
    rw [call_subroutine subroutine addresses fits running returns] at called
    exact (pushed.trans called).trans inlined.symm

theorem decode_inlined_call {before : Bytes} {reached : State}
    (reaches : (decodeNested subroutines maxNesting before .start).outcome = .ok reached)
    {returned : State}
    (returns : (decodeNested subroutines (maxNesting - 1) body reached).outcome = .ok returned)
    {after : Bytes} {tokens : List (Token Type2Op Number)}
    (decodes : (decode subroutines (before ++ operand ++ [byte] ++ after)).outcome = .ok tokens) :
    (decode subroutines (before ++ body ++ after)).outcome = .ok tokens ∧
      (decode subroutines (before ++ body ++ after)).notices =
        (decode subroutines (before ++ operand ++ [byte] ++ after)).notices := by
  have split : before ++ operand ++ [byte] ++ after = before ++ (operand ++ byte :: after) := by simp
  have same : decodeNested subroutines maxNesting (before ++ (operand ++ byte :: after)) .start =
      decodeNested subroutines maxNesting (before ++ (body ++ after)) .start := by
    rw [split, decode, map_eq_pure_bind] at decodes
    obtain ⟨last, ran, -⟩ := Attempt.bind_ok decodes
    rw [decode_nested_append subroutines reaches] at ran ⊢
    rw [decode_nested_append subroutines reaches]
    refine Attempt.bind_congr_of_ok reaches ?_
    obtain ⟨middle, first, second⟩ := Attempt.bind_ok ran
    rw [reaches] at first
    cases first
    exact decode_nested_call calls subroutine readsOperand addresses returns second
  have inlined : decode subroutines (before ++ body ++ after) =
      decode subroutines (before ++ operand ++ [byte] ++ after) := by
    rw [split, decode, decode, same, List.append_assoc]
  rw [inlined]
  exact ⟨decodes, rfl⟩

end Call

def stemSubroutine : Subroutines := ⟨.empty, some (.ofObjects 1 [[1, 139, 149] ++ [11]])⟩

theorem decode_stem_call :
    (decode stemSubroutine ([149, 159] ++ [1, 139, 149] ++ [19, 192, 14])).outcome =
        .ok [.number (.integer 10), .number (.integer 20), .operator .hstem, .number (.integer 0),
          .number (.integer 10), .operator .hintmask, .mask [192], .operator .endchar] ∧
      (decode stemSubroutine ([149, 159] ++ [1, 139, 149] ++ [19, 192, 14])).notices =
        (decode stemSubroutine ([149, 159] ++ [32] ++ [10] ++ [19, 192, 14])).notices := by
  have read : Lexeme.readType2 [32] = .ok (.number (.integer (-107)), []) := rfl
  have subroutine : (Index.ofObjects 1 [[1, 139, 149] ++ [11]]).get? 0 =
      some ([1, 139, 149] ++ [11]) := by
    decide
  have reaches : (decodeNested stemSubroutine maxNesting [149, 159] .start).outcome =
      .ok ⟨[.number (.integer 20), .number (.integer 10)], 0, false⟩ :=
    Attempt.ok_of_to_option (by decide +kernel)
  have returns : (decodeNested stemSubroutine (maxNesting - 1) [1, 139, 149]
      ⟨[.number (.integer 20), .number (.integer 10)], 0, false⟩).outcome =
        .ok ⟨[.number (.integer 10), .number (.integer 0), .operator .hstem, .number (.integer 20),
          .number (.integer 10)], 1, false⟩ :=
    Attempt.ok_of_to_option (by decide +kernel)
  have decodes : (decode stemSubroutine ([149, 159] ++ [32] ++ [10] ++ [19, 192, 14])).outcome =
      .ok [.number (.integer 10), .number (.integer 20), .operator .hstem, .number (.integer 0),
        .number (.integer 10), .operator .hintmask, .mask [192], .operator .endchar] :=
    Attempt.ok_of_to_option (by decide +kernel)
  exact decode_inlined_call (.locals rfl) subroutine read rfl reaches returns decodes

end CompactFont.Type2
