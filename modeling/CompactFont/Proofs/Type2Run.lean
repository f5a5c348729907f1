import CompactFont.Charstring.Type2
import CompactFont.Proofs.LexemeBoundary
import CompactFont.Proofs.Outcome

set_option autoImplicit false

namespace CompactFont.Type2

variable (call : Index → State → Decoding State) (subroutines : Subroutines)

theorem run_ended {state : State} (ended : state.ended = true) (bytes : Bytes) :
    run call subroutines bytes state = pure state := by
  rw [run, if_pos (Or.inl ended)]

theorem run_nil (state : State) : run call subroutines [] state = pure state := by
  rw [run, if_pos (Or.inr rfl)]

theorem running_of_more {state : State} {bytes : Bytes}
    (more : ¬ (state.ended = true ∨ bytes = [])) : state.ended = false := by
  cases ended : state.ended with
  | true => exact absurd (Or.inl ended) more
  | false => rfl

theorem run_lexeme {state : State} (running : state.ended = false) {bytes rest : Bytes}
    {lexeme : Lexeme Number} (read : Lexeme.readType2 bytes = .ok (lexeme, rest)) :
    run call subroutines bytes state = (do
      let (next, used) ← step call subroutines rest state lexeme
      run call subroutines (rest.drop used) next) := by
  have more : ¬ (state.ended = true ∨ bytes = []) := by
    rintro (ended | rfl)
    · rw [running] at ended
      cases ended
    · cases read
  rw [run, if_neg more]
  split
  · rename_i failed
    rw [read] at failed
    cases failed
  · rename_i found
    rw [read] at found
    cases found
    rfl

theorem add_mask_ok {bytes : Bytes} {op : Type2Op} {state next : State} {used : Nat}
    (done : (addMask bytes op state).outcome = .ok (next, used)) :
    ∃ mask rest, Reader.take state.declareStems.maskLength bytes = .ok (mask, rest) ∧
      next = { state.declareStems with
        tokens := .mask mask :: .operator op :: state.declareStems.tokens } ∧
      used = mask.length := by
  rw [addMask] at done
  obtain ⟨⟨mask, rest⟩, read, added⟩ := Attempt.bind_ok done
  refine ⟨mask, rest, ?_, ?_⟩
  · cases taken : Reader.take state.declareStems.maskLength bytes with
    | error error =>
        rw [taken] at read
        cases read
    | ok result =>
        rw [taken] at read
        cases read
        rfl
  · cases added
    exact ⟨rfl, rfl⟩

theorem add_mask_append {bytes : Bytes} {op : Type2Op} {state next : State} {used : Nat}
    (done : (addMask bytes op state).outcome = .ok (next, used)) (tail : Bytes) :
    addMask (bytes ++ tail) op state = addMask bytes op state ∧ used ≤ bytes.length := by
  obtain ⟨mask, rest, taken, -, rfl⟩ := add_mask_ok done
  constructor
  · simp only [addMask, taken, Reader.stable_take _ _ _ _ tail taken]
    rfl
  · rw [(Reader.take_ok taken).2, List.length_append]
    exact Nat.le_add_right _ _

theorem operate_append {bytes : Bytes} {state next : State} {op : Type2Op} {used : Nat}
    (done : (operate call subroutines bytes state op).outcome = .ok (next, used)) (tail : Bytes) :
    operate call subroutines (bytes ++ tail) state op = operate call subroutines bytes state op ∧
      used ≤ bytes.length := by
  have called (index : Index)
      (ran : Attempt.outcome (callOrAdd call index state op) = .ok (next, used)) : used = 0 := by
    rw [callOrAdd] at ran
    split at ran
    · cases ran
      rfl
    · obtain ⟨_, -, added⟩ := Attempt.bind_ok ran
      cases added
      rfl
  cases op with
  | hintmask => exact add_mask_append done tail
  | cntrmask => exact add_mask_append done tail
  | callsubr => exact ⟨rfl, called _ done ▸ Nat.zero_le _⟩
  | callgsubr => exact ⟨rfl, called _ done ▸ Nat.zero_le _⟩
  | _ =>
      cases done
      exact ⟨rfl, Nat.zero_le _⟩

theorem step_append {bytes : Bytes} {state next : State} {lexeme : Lexeme Number} {used : Nat}
    (done : (step call subroutines bytes state lexeme).outcome = .ok (next, used)) (tail : Bytes) :
    step call subroutines (bytes ++ tail) state lexeme = step call subroutines bytes state lexeme ∧
      used ≤ bytes.length := by
  cases lexeme with
  | number value =>
      obtain ⟨tokens, -, added⟩ := Attempt.bind_ok done
      cases added
      exact ⟨rfl, Nat.zero_le _⟩
  | command key =>
      simp only [step] at done ⊢
      cases known : Type2Op.ofKey? key with
      | none =>
          rw [known] at done
          obtain ⟨_, -, added⟩ := Attempt.bind_ok done
          cases added
          exact ⟨rfl, Nat.zero_le _⟩
      | some op =>
          rw [known] at done
          exact operate_append call subroutines done tail

theorem run_append {head : Bytes} {state after : State}
    (ran : (run call subroutines head state).outcome = .ok after) (tail : Bytes) :
    run call subroutines (head ++ tail) state =
      run call subroutines head state >>= run call subroutines tail := by
  fun_induction run call subroutines head state with
  | case1 bytes state stopped =>
      rw [pure_bind]
      rcases stopped with ended | rfl
      · rw [run_ended call subroutines ended, run_ended call subroutines ended]
      · rfl
  | case2 bytes state more error failed => cases ran
  | case3 bytes state more lexeme rest found ih =>
      have running := running_of_more more
      rw [run_lexeme call subroutines running (Lexeme.stable_read_type2 _ _ _ tail found), bind_assoc]
      obtain ⟨⟨next, used⟩, stepped, remaining⟩ := Attempt.bind_ok ran
      obtain ⟨same, fits⟩ := step_append call subroutines stepped tail
      rw [same]
      refine Attempt.bind_congr_of_ok stepped ?_
      dsimp only
      rw [List.drop_append_of_le_length fits]
      exact ih next used remaining

def Refines (small large : Bytes → State → Decoding State) : Prop :=
  ∀ bytes state after, (small bytes state).outcome = .ok after →
    large bytes state = small bytes state

section Refinement

variable {small large : Bytes → State → Decoding State}

theorem call_refines (refines : Refines small large) (index : Index) (state after : State)
    (done : (Type2.call small index state).outcome = .ok after) :
    Type2.call large index state = Type2.call small index state := by
  simp only [Type2.call] at done ⊢
  split at done
  · rename_i operand rest shape
    cases found : subroutine? index operand with
    | none => rfl
    | some body =>
        rw [found, Attempt.outcome_map] at done
        dsimp only at done ⊢
        cases entered : (small body { state with tokens := rest }).outcome with
        | error error =>
            rw [entered] at done
            cases done
        | ok middle => rw [refines _ _ _ entered]
  · rfl

theorem call_or_add_refines (refines : Refines small large) (index : Index) (state next : State)
    (op : Type2Op) (used : Nat)
    (done : (callOrAdd (Type2.call small) index state op).outcome = .ok (next, used)) :
    callOrAdd (Type2.call large) index state op = callOrAdd (Type2.call small) index state op := by
  unfold callOrAdd at done ⊢
  split at done
  · rename_i absent
    rw [if_pos absent, if_pos absent]
  · rename_i present
    obtain ⟨after, called, -⟩ := Attempt.bind_ok done
    rw [if_neg present, if_neg present, call_refines refines index state after called]

theorem step_refines (refines : Refines small large) (bytes : Bytes) (state next : State)
    (lexeme : Lexeme Number) (used : Nat)
    (done : (step (Type2.call small) subroutines bytes state lexeme).outcome = .ok (next, used)) :
    step (Type2.call large) subroutines bytes state lexeme =
      step (Type2.call small) subroutines bytes state lexeme := by
  cases lexeme with
  | number value => rfl
  | command key =>
      simp only [step] at done ⊢
      cases known : Type2Op.ofKey? key with
      | none => rfl
      | some op =>
          rw [known] at done
          cases op with
          | callsubr => exact call_or_add_refines refines _ _ _ _ _ done
          | callgsubr => exact call_or_add_refines refines _ _ _ _ _ done
          | _ => rfl

theorem run_refines (refines : Refines small large) :
    Refines (run (Type2.call small) subroutines) (run (Type2.call large) subroutines) := by
  intro bytes state after done
  fun_induction run (Type2.call small) subroutines bytes state with
  | case1 bytes state stopped => rw [run, if_pos stopped]
  | case2 bytes state more error failed => cases done
  | case3 bytes state more lexeme rest found ih =>
      have running := running_of_more more
      obtain ⟨⟨next, used⟩, stepped, remaining⟩ := Attempt.bind_ok done
      rw [run_lexeme _ subroutines running found,
        step_refines subroutines refines rest state next lexeme used stepped]
      exact Attempt.bind_congr_of_ok stepped (ih next used remaining)

end Refinement

theorem decode_nested_succ (nesting : Nat) :
    Refines (decodeNested subroutines nesting) (decodeNested subroutines (nesting + 1)) := by
  induction nesting with
  | zero =>
      have nothing : Refines (fun _ _ => throw .nestingLimit) (decodeNested subroutines 0) := by
        intro bytes state after done
        cases done
      exact run_refines subroutines nothing
  | succ nesting ih => exact run_refines subroutines ih

structure Plain (op : Type2Op) : Prop where
  hintless : op.declaresStems = false ∧ op.takesMask = false
  goesOn : op ≠ .endchar
  locals : op = .callsubr → (subroutines.locals?.getD .empty).isEmpty = true
  globals : op = .callgsubr → subroutines.globals.isEmpty = true

inductive Next (state : State) : State → Prop where
  | ignored : Next state state
  | pushed (value : Number) (room : Token.pending state.tokens < maxArguments) :
      Next state { state with tokens := .number value :: state.tokens }
  | added (op : Type2Op) (plain : Plain subroutines op) : Next state (state.add op)
  | declared (op : Type2Op) (declares : op.declaresStems = true) :
      Next state (state.declareStems.add op)
  | masked (op : Type2Op) (takes : op.takesMask = true) (mask : Bytes)
      (length : mask.length = state.declareStems.maskLength) :
      Next state { state.declareStems with
        tokens := .mask mask :: .operator op :: state.declareStems.tokens }
  | ended : Next state { state.add .endchar with ended := true }

section Invariant

variable {expected : Notice → Prop} {invariant : State → Prop}

-- A property of states that decoding keeps as long as it makes no notices but these.
structure Kept (expected : Notice → Prop) (invariant : State → Prop) : Prop where
  next : ∀ state next, invariant state → state.ended = false → Next subroutines state next →
    invariant next
  popped : ∀ state operand rest, invariant state → state.ended = false →
    state.tokens = .number operand :: rest → invariant { state with tokens := rest }
  stray : ∀ state, invariant state → state.ended = false →
    (∀ operand rest, state.tokens ≠ .number operand :: rest) →
    expected (.type2CallWithout state.tokens.head?) →
    invariant { state with tokens := state.tokens.tail }
  dropped : ∀ state, invariant state → invariant state.dropReturn

theorem call_ensures (kept : Kept subroutines expected invariant) {enter : Bytes → State → Decoding State}
    (entered : ∀ bytes state, invariant state →
      Attempt.Ensures expected (enter bytes state) invariant)
    (index : Index) {state : State} (holds : invariant state) (running : state.ended = false) :
    Attempt.Ensures expected (Type2.call enter index state) invariant := by
  unfold Type2.call
  split
  · rename_i operand rest shape
    have popped := kept.popped state operand rest holds running shape
    split
    · rename_i body found
      exact Attempt.ensures_map (Attempt.ensures_mono kept.dropped (entered body _ popped))
    · exact Attempt.ensures_report fun _ => popped
  · rename_i other none
    exact Attempt.ensures_report fun quiet =>
      kept.stray state holds running none (quiet _ (List.mem_singleton_self _))

theorem operate_ensures {state : State}
    (next : ∀ after, Next subroutines state after → invariant after)
    (called : ∀ index, Attempt.Ensures expected (call index state) invariant)
    (bytes : Bytes) (op : Type2Op) :
    Attempt.Ensures expected (operate call subroutines bytes state op)
      fun result => invariant result.1 := by
  have calling (index : Index) (op : Type2Op)
      (plain : index.isEmpty = true → Plain subroutines op) :
      Attempt.Ensures expected (callOrAdd call index state op) fun result => invariant result.1 := by
    unfold callOrAdd
    split
    · rename_i absent
      exact Attempt.ensures_pure (next _ (.added op (plain absent)))
    · exact Attempt.ensures_bind (called index) fun _ _ after => Attempt.ensures_pure after
  have masking (op : Type2Op) (takes : op.takesMask = true) :
      Attempt.Ensures expected (addMask bytes op state) fun result => invariant result.1 := by
    intro _ result done
    obtain ⟨mask, rest, taken, same, -⟩ := add_mask_ok done
    rw [same]
    exact next _ (.masked op takes mask (Reader.take_ok taken).1)
  cases op with
  | callsubr => exact calling _ .callsubr fun absent => ⟨⟨rfl, rfl⟩, nofun, fun _ => absent, nofun⟩
  | callgsubr =>
      exact calling _ .callgsubr fun absent => ⟨⟨rfl, rfl⟩, nofun, nofun, fun _ => absent⟩
  | hstem => exact Attempt.ensures_pure (next _ (.declared .hstem rfl))
  | hstemhm => exact Attempt.ensures_pure (next _ (.declared .hstemhm rfl))
  | vstem => exact Attempt.ensures_pure (next _ (.declared .vstem rfl))
  | vstemhm => exact Attempt.ensures_pure (next _ (.declared .vstemhm rfl))
  | hintmask => exact masking .hintmask rfl
  | cntrmask => exact masking .cntrmask rfl
  | endchar => exact Attempt.ensures_pure (next _ .ended)
  | _ => exact Attempt.ensures_pure (next _ (.added _ ⟨⟨rfl, rfl⟩, nofun, nofun, nofun⟩))

theorem step_ensures (kept : Kept subroutines expected invariant)
    (called : ∀ index state, invariant state → state.ended = false →
      Attempt.Ensures expected (call index state) invariant)
    (bytes : Bytes) {state : State} (lexeme : Lexeme Number) (holds : invariant state)
    (running : state.ended = false) :
    Attempt.Ensures expected (step call subroutines bytes state lexeme)
      fun result => invariant result.1 := by
  have next (after : State) (steps : Next subroutines state after) : invariant after :=
    kept.next state after holds running steps
  cases lexeme with
  | number value =>
      intro _ result done
      obtain ⟨tokens, pushed, added⟩ := Attempt.bind_ok done
      cases added
      have done : Token.push value state.tokens = .ok tokens := pushed
      obtain ⟨room, rfl⟩ := Token.push_ok done
      exact next _ (.pushed value room)
  | command key =>
      simp only [step]
      split
      · rename_i op known
        exact operate_ensures call subroutines next
          (fun index => called index state holds running) bytes op
      · exact Attempt.ensures_report fun _ => holds

theorem run_ensures (kept : Kept subroutines expected invariant)
    (called : ∀ index state, invariant state → state.ended = false →
      Attempt.Ensures expected (call index state) invariant)
    (bytes : Bytes) (state : State) (holds : invariant state) :
    Attempt.Ensures expected (run call subroutines bytes state) invariant := by
  fun_induction run call subroutines bytes state with
  | case1 bytes state stopped => exact Attempt.ensures_pure holds
  | case2 bytes state more error failed => exact Attempt.ensures_throw _
  | case3 bytes state more lexeme rest found ih =>
      have stepped := step_ensures call subroutines kept called rest lexeme holds
        (running_of_more more)
      exact Attempt.ensures_bind stepped fun result _ next => ih result.1 result.2 next

theorem decode_nested_ensures (kept : Kept subroutines expected invariant) (nesting : Nat) (bytes : Bytes)
    (state : State) (holds : invariant state) :
    Attempt.Ensures expected (decodeNested subroutines nesting bytes state) invariant := by
  induction nesting generalizing bytes state with
  | zero =>
      refine run_ensures _ subroutines kept (fun index state holds running => ?_) bytes state holds
      exact call_ensures subroutines kept (fun _ _ _ => Attempt.ensures_throw _) index holds running
  | succ nesting ih =>
      refine run_ensures _ subroutines kept (fun index state holds running => ?_) bytes state holds
      exact call_ensures subroutines kept ih index holds running

end Invariant

end CompactFont.Type2
