import CompactFont.Proofs.CallDepth
import CompactFont.Proofs.GlyphFaults
import CompactFont.Proofs.Inlining
import CompactFont.Proofs.Type1Run

set_option autoImplicit false

namespace CompactFont

namespace Type2

def entered? (index : Index) (state : State) : Option (Bytes × State) :=
  match state.tokens with
  | .number operand :: rest =>
      (subroutine? index operand).map fun body => (body, { state with tokens := rest })
  | _ => none

def called? (subroutines : Subroutines) (state : State) : Lexeme Number → Option (Bytes × State)
  | .number _ => none
  | .command key =>
      match Type2Op.ofKey? key with
      | some .callsubr => entered? (subroutines.locals?.getD .empty) state
      | some .callgsubr => entered? subroutines.globals state
      | _ => none

-- A call of nothing: where no subroutine is entered, it does what any call does.
def passingCall : Index → State → Decoding State := call fun _ state => pure state

def interpreter (subroutines : Subroutines) : Interpreter Type2Op Number State where
  start := .start
  ended := State.ended
  read := Lexeme.readType2
  called? := called? subroutines
  step rest state lexeme := (step passingCall subroutines rest state lexeme).outcome
  leave := State.dropReturn
  tokens state := state.tokens.reverse

section Calls

variable (enter : Bytes → State → Decoding State) {index : Index} {state below : State} {body : Bytes}

theorem entered_cases (entered : entered? index state = some (body, below)) :
    call enter index state = State.dropReturn <$> enter body below ∧ index.isEmpty = false := by
  unfold entered? at entered
  split at entered
  · rename_i operand rest shape
    obtain ⟨found, present, same⟩ := Option.map_eq_some_iff.mp entered
    obtain ⟨rfl, rfl⟩ := Prod.mk.inj same
    constructor
    · simp only [call, shape, present]
    · obtain ⟨place, -, stored⟩ := place_of_subroutine present
      exact Index.is_empty_of_get stored
  · cases entered

theorem call_unentered (none : entered? index state = none) :
    call enter index state = passingCall index state := by
  unfold entered? at none
  split at none
  · rename_i operand rest shape
    simp only [passingCall, call, shape, Option.map_eq_none_iff.mp none]
  · rename_i other
    unfold passingCall call
    split
    · rename_i operand rest shape
      exact absurd shape (other operand rest)
    · rfl

theorem call_or_add_entered (entered : entered? index state = some (body, below)) (op : Type2Op) :
    callOrAdd (call enter) index state op = (do
      let after ← enter body below
      pure (after.dropReturn, 0)) := by
  obtain ⟨calls, present⟩ := entered_cases enter entered
  rw [callOrAdd, present, calls]
  simp

theorem call_or_add_unentered (none : entered? index state = none) (op : Type2Op) :
    callOrAdd (call enter) index state op = callOrAdd passingCall index state op := by
  rw [callOrAdd, callOrAdd, call_unentered enter none]

variable {subroutines : Subroutines} {lexeme : Lexeme Number}

theorem step_called (called : called? subroutines state lexeme = some (body, below)) (rest : Bytes) :
    step (call enter) subroutines rest state lexeme = (do
      let after ← enter body below
      pure (after.dropReturn, 0)) := by
  cases lexeme with
  | number value => cases called
  | command key =>
      simp only [called?] at called
      simp only [step]
      split at called
      · rename_i known
        rw [known]
        exact call_or_add_entered enter called _
      · rename_i known
        rw [known]
        exact call_or_add_entered enter called _
      · cases called

theorem step_uncalled (none : called? subroutines state lexeme = none) (rest : Bytes) :
    step (call enter) subroutines rest state lexeme =
      step passingCall subroutines rest state lexeme := by
  cases lexeme with
  | number value => rfl
  | command key =>
      simp only [called?] at none
      simp only [step]
      cases known : Type2Op.ofKey? key with
      | none => rfl
      | some op =>
          rw [known] at none
          cases op with
          | callsubr => exact call_or_add_unentered enter none _
          | callgsubr => exact call_or_add_unentered enter none _
          | _ => rfl

end Calls

variable (subroutines : Subroutines)

theorem carries_out_run (enter : Bytes → State → Decoding State) :
    (interpreter subroutines).CarriesOut (fun bytes state => (enter bytes state).outcome)
      (fun rest state lexeme => (step (call enter) subroutines rest state lexeme).outcome)
      (fun bytes state => (run (call enter) subroutines bytes state).outcome) where
  stopped bytes state stopped := by
    have finished : state.ended = true ∨ bytes = [] := stopped
    rw [run, if_pos finished]
    rfl
  unread bytes state error more failed := by
    have running : ¬ (state.ended = true ∨ bytes = []) := more
    have unread : Lexeme.readType2 bytes = .error error := failed
    rw [run, if_neg running]
    split <;> rename_i found <;> rw [unread] at found <;> cases found
    rfl
  lexeme bytes state lexeme rest more read := by
    rw [run_lexeme _ subroutines (running_of_more more) read, Attempt.outcome_bind]
  called rest state lexeme body below called := by
    rw [step_called enter called rest, Attempt.outcome_bind]
    rfl
  plain rest state lexeme none := by
    rw [step_uncalled enter none rest]
    rfl

theorem recurs_decode_nested :
    (interpreter subroutines).Recurs fun nesting bytes state =>
      (decodeNested subroutines nesting bytes state).outcome := by
  intro nesting bytes state
  cases nesting with
  | zero => exact Interpreter.proceed_of_carries_out (carries_out_run subroutines _) bytes state
  | succ nesting =>
      exact Interpreter.proceed_of_carries_out (carries_out_run subroutines _) bytes state

theorem lexical_interpreter : (interpreter subroutines).Lexical where
  consumes := Lexeme.consumes_read_type2
  limitless rest state lexeme _ limited := by
    have idle (index : Index) (state : State) :
        Attempt.FailsOnly LexemeFault (passingCall index state) :=
      fails_only_call (fun _ state => Attempt.fails_only_pure state) index state
    have fault := fails_only_step subroutines (fun _ fault => fault) idle rest state lexeme _ limited
    cases fault

theorem bounded_decode (charstring : Bytes) :
    (interpreter subroutines).Bounded maxNesting charstring
      (decode subroutines charstring).outcome := by
  rw [decode, Attempt.outcome_map]
  exact Interpreter.bounded_of_recurs (recurs_decode_nested subroutines)
    (lexical_interpreter subroutines) maxNesting charstring

end Type2

namespace Type1

def entered? (subrs : Option Index) (stack : Stack) : Option (Bytes × Stack) :=
  match stack with
  | .number number :: rest => (subroutine? subrs number).map fun body => (body, rest)
  | _ => none

def called? (subrs : Option Index) (stack : Stack) : Lexeme Int → Option (Bytes × Stack)
  | .number _ => none
  | .command key =>
      match Type1Op.ofKey? key with
      | some .callsubr => entered? subrs stack
      | _ => none

def passingCall (subrs : Option Index) : Stack → Decoding Stack := call subrs fun _ stack => pure stack

def interpreter (subrs : Option Index) : Interpreter Type1Op Int Stack where
  start := []
  ended _ := false
  read := Lexeme.readType1
  called? := called? subrs
  step rest stack lexeme := (step (passingCall subrs) rest stack lexeme).outcome
  leave := dropReturn
  tokens := List.reverse

section Calls

variable (enter : Bytes → Stack → Decoding Stack) {subrs : Option Index} {stack below : Stack}
  {body : Bytes}

theorem call_entered (entered : entered? subrs stack = some (body, below)) :
    call subrs enter stack = dropReturn <$> enter body below := by
  unfold entered? at entered
  split at entered
  · obtain ⟨found, present, same⟩ := Option.map_eq_some_iff.mp entered
    obtain ⟨rfl, rfl⟩ := Prod.mk.inj same
    simp only [call, present]
  · cases entered

theorem call_unentered (none : entered? subrs stack = none) :
    call subrs enter stack = passingCall subrs stack := by
  unfold entered? at none
  split at none
  · simp only [passingCall, call, Option.map_eq_none_iff.mp none]
  · rename_i other
    unfold passingCall call
    split
    · rename_i number rest
      exact absurd rfl (other number rest)
    · rfl

variable {lexeme : Lexeme Int}

theorem step_called (called : called? subrs stack lexeme = some (body, below)) (rest : Bytes) :
    step (call subrs enter) rest stack lexeme = (do
      let after ← enter body below
      pure (dropReturn after, 0)) := by
  cases lexeme with
  | number value => cases called
  | command key =>
      simp only [called?] at called
      simp only [step]
      split at called
      · rename_i known
        rw [known]
        simp [call_entered enter called]
      · cases called

theorem step_uncalled (none : called? subrs stack lexeme = none) (rest : Bytes) :
    step (call subrs enter) rest stack lexeme = step (passingCall subrs) rest stack lexeme := by
  cases lexeme with
  | number value => rfl
  | command key =>
      simp only [called?] at none
      simp only [step]
      cases known : Type1Op.ofKey? key with
      | none => rfl
      | some op =>
          rw [known] at none
          cases op with
          | callsubr => simp only [call_unentered enter none]
          | _ => rfl

end Calls

variable (subrs : Option Index)

theorem carries_out_run (enter : Bytes → Stack → Decoding Stack) :
    (interpreter subrs).CarriesOut (fun bytes stack => (enter bytes stack).outcome)
      (fun rest stack lexeme => (step (call subrs enter) rest stack lexeme).outcome)
      (fun bytes stack => (run (call subrs enter) bytes stack).outcome) where
  stopped bytes stack stopped := by
    obtain rfl : bytes = [] := stopped.resolve_left Bool.false_ne_true
    rw [run_nil]
    rfl
  unread bytes stack error more failed := by
    have unread : Lexeme.readType1 bytes = .error error := failed
    rw [run, if_neg (not_or.mp more).2]
    split <;> rename_i found <;> rw [unread] at found <;> cases found
    rfl
  lexeme bytes stack lexeme rest _ read := by
    rw [run_lexeme _ stack read, Attempt.outcome_bind]
  called rest stack lexeme body below called := by
    rw [step_called enter called rest, Attempt.outcome_bind]
    rfl
  plain rest stack lexeme none := by
    rw [step_uncalled enter none rest]
    rfl

theorem recurs_decode_nested :
    (interpreter subrs).Recurs fun nesting bytes stack =>
      (decodeNested subrs nesting bytes stack).outcome := by
  intro nesting bytes stack
  cases nesting with
  | zero => exact Interpreter.proceed_of_carries_out (carries_out_run subrs _) bytes stack
  | succ nesting => exact Interpreter.proceed_of_carries_out (carries_out_run subrs _) bytes stack

theorem lexical_interpreter : (interpreter subrs).Lexical where
  consumes := Lexeme.consumes_read_type1
  limitless rest stack lexeme _ limited := by
    have idle (stack : Stack) : Attempt.FailsOnly LexemeFault (passingCall subrs stack) :=
      fails_only_call subrs (fun _ stack => Attempt.fails_only_pure stack) stack
    have fault := fails_only_step (fun _ fault => fault) idle rest stack lexeme _ limited
    cases fault

theorem bounded_decode (charstring : Bytes) :
    (interpreter subrs).Bounded maxNesting charstring (decode subrs charstring).outcome := by
  rw [decode, Attempt.outcome_map]
  exact Interpreter.bounded_of_recurs (recurs_decode_nested subrs) (lexical_interpreter subrs)
    maxNesting charstring

end Type1

theorem decoded_within_ten_nested_calls (subroutines : Type2.Subroutines) (subrs : Option Index)
    (charstring : Bytes) :
    (Type2.interpreter subroutines).Bounded 10 charstring
        (Type2.decode subroutines charstring).outcome ∧
      (Type1.interpreter subrs).Bounded 10 charstring
        (Type1.decode subrs charstring).outcome :=
  ⟨Type2.bounded_decode subroutines charstring, Type1.bounded_decode subrs charstring⟩

def circularSubroutines : Type2.Subroutines := 
  ⟨.ofObjects 1 [[32, 10]], some (.ofObjects 1 [[32, 29]])⟩

theorem circular_calls_nest_deeper :
    (Type2.interpreter circularSubroutines).NestsDeeper 10 [32, 10] ∧
      (Type2.interpreter Type2.stemSubroutine).Yields [149, 159, 32, 10, 19, 192, 14]
        (.ok [.number (.integer 10), .number (.integer 20), .operator .hstem, .number (.integer 0),
          .number (.integer 10), .operator .hintmask, .mask [192], .operator .endchar]) := by
  have fails : (Type2.decode circularSubroutines [32, 10]).outcome = .error .nestingLimit := by
    decide +kernel
  have decodes : (Type2.decode Type2.stemSubroutine [149, 159, 32, 10, 19, 192, 14]).outcome =
      .ok [.number (.integer 10), .number (.integer 20), .operator .hstem, .number (.integer 0),
        .number (.integer 10), .operator .hintmask, .mask [192], .operator .endchar] := by
    decide +kernel
  have circular := (decoded_within_ten_nested_calls circularSubroutines none [32, 10]).1
  have flat :=
    (decoded_within_ten_nested_calls Type2.stemSubroutine none [149, 159, 32, 10, 19, 192, 14]).1
  refine ⟨circular.beyond.mpr fails, (flat.within (fun deeper => ?_) _).mpr decodes⟩
  rw [flat.beyond.mp deeper] at decodes
  cases decodes

end CompactFont
