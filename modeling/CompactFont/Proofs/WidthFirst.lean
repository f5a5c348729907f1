import CompactFont.Proofs.LoweredCommands
import CompactFont.Proofs.MaskLength
import CompactFont.Proofs.ProgramLowering
import Mathlib.Data.List.Induction

set_option autoImplicit false

namespace CompactFont

open Lowering

inductive CarriesWidth : Type2Op → Nat → Prop
  | hints {op : Type2Op} {count : Nat} (hints : op.declaresStems = true ∨ op.takesMask = true)
      (odd : count % 2 = 1) : CarriesWidth op count
  | along {op : Type2Op} {count : Nat} (axis : op = .hmoveto ∨ op = .vmoveto) (more : 1 < count) :
      CarriesWidth op count
  | both {count : Nat} (more : 2 < count) : CarriesWidth .rmoveto count
  | ending {count : Nat} (one : count = 1 ∨ count = 5) : CarriesWidth .endchar count

theorem carries_width_iff {op : Type2Op} {hasWidth : Nat → Bool}
    (rule : widthRule? op = some hasWidth) (count : Nat) :
    hasWidth count = true ↔ CarriesWidth op count := by
  constructor
  · intro given
    cases op with
    | hstem | hstemhm | vstem | vstemhm =>
        cases rule
        exact .hints (.inl rfl) (of_decide_eq_true given)
    | hintmask | cntrmask =>
        cases rule
        exact .hints (.inr rfl) (of_decide_eq_true given)
    | hmoveto =>
        cases rule
        exact .along (.inl rfl) (of_decide_eq_true given)
    | vmoveto =>
        cases rule
        exact .along (.inr rfl) (of_decide_eq_true given)
    | rmoveto =>
        cases rule
        exact .both (of_decide_eq_true given)
    | endchar =>
        cases rule
        exact .ending (of_decide_eq_true given)
    | _ => cases rule
  · intro carries
    cases carries with
    | hints hints odd =>
        cases op with
        | hstem | hstemhm | vstem | vstemhm | hintmask | cntrmask =>
            cases rule
            exact decide_eq_true odd
        | _ => rcases hints with hints | hints <;> cases hints
    | along axis more =>
        rcases axis with rfl | rfl <;> cases rule <;> exact decide_eq_true more
    | both more =>
        cases rule
        exact decide_eq_true more
    | ending one =>
        cases rule
        exact decide_eq_true one

theorem not_carries_width_zero (op : Type2Op) : ¬ CarriesWidth op 0 := by
  intro carries
  cases carries with
  | hints _ odd => cases odd
  | along _ more => cases more
  | both more => cases more
  | ending one => rcases one with one | one <;> cases one

variable {N : Type}

section Tokens

-- The tokens that are left before an operator that clears the stack when it takes the width from
-- them, and the width. It takes the first of the numbers that no other operator has taken.
inductive TakesWidth [Add N] (widths : Widths N) (op : Type2Op) :
    List (Token Type2Op N) → List (Token Type2Op N) → N → Prop
  | given {start rest : List (Token Type2Op N)} {delta : N} (first : waitingAfter [] start = [])
      (own : ∀ other, .operator other ∉ rest)
      (carries : CarriesWidth op (waitingAfter [] (start ++ .number delta :: rest)).length) :
      TakesWidth widths op (start ++ .number delta :: rest) (start ++ rest) (delta + widths.nominal)
  | absent {earlier : List (Token Type2Op N)}
      (none : ¬ CarriesWidth op (waitingAfter [] earlier).length) :
      TakesWidth widths op earlier earlier widths.default

theorem exists_first_clearing {tokens : List (Token Type2Op N)}
    (clears : ∃ op, op.clearsStack = true ∧ .operator op ∈ tokens) :
    ∃ earlier op after, tokens = earlier ++ .operator op :: after ∧ op.clearsStack = true ∧
      ∀ other, .operator other ∈ earlier → other.clearsStack = false := by
  induction tokens with
  | nil =>
      obtain ⟨op, -, member⟩ := clears
      cases member
  | cons token rest ih =>
      by_cases now : ∃ op, token = .operator op ∧ op.clearsStack = true
      · obtain ⟨op, rfl, own⟩ := now
        exact ⟨[], op, rest, rfl, own, nofun⟩
      · obtain ⟨op, own, member⟩ := clears
        have later : .operator op ∈ rest :=
          (List.mem_cons.mp member).resolve_left fun same => now ⟨op, same.symm, own⟩
        obtain ⟨earlier, first, after, split, clears, none⟩ := ih ⟨op, own, later⟩
        refine ⟨token :: earlier, first, after, congrArg _ split, clears, fun other member => ?_⟩
        rcases List.mem_cons.mp member with same | among
        · exact Bool.eq_false_iff.mpr fun clears => now ⟨other, same.symm, clears⟩
        · exact none other among

theorem exists_first_waiting {tokens : List (Token Type2Op N)} (some : waitingAfter [] tokens ≠ []) :
    ∃ start delta rest, tokens = start ++ .number delta :: rest ∧ waitingAfter [] start = [] ∧
      ∀ op, .operator op ∉ rest := by
  induction tokens using List.reverseRecOn with
  | nil => exact absurd rfl some
  | append_singleton tokens token ih =>
      rw [waiting_after_append] at some
      have onward (plain : ∀ op, token ≠ .operator op) (some : waitingAfter [] tokens ≠ []) :
          ∃ start delta rest, tokens ++ [token] = start ++ .number delta :: rest ∧
            waitingAfter [] start = [] ∧ ∀ op, .operator op ∉ rest := by
        obtain ⟨start, delta, rest, rfl, first, none⟩ := ih some
        refine ⟨start, delta, rest ++ [token], List.append_assoc .., first, fun op member => ?_⟩
        rcases List.mem_append.mp member with early | last
        · exact none op early
        · exact plain op (List.mem_singleton.mp last).symm
      cases token with
      | number value =>
          by_cases first : waitingAfter [] tokens = []
          · exact ⟨tokens, value, [], rfl, first, nofun⟩
          · exact onward nofun first
      | operator op => exact absurd rfl some
      | mask bytes => exact onward nofun some

structure DecidesFirst [Add N] (widths : Widths N) (tokens earlier without : List (Token Type2Op N))
    (op : Type2Op) (after : List (Token Type2Op N)) (width : N) : Prop where
  split : tokens = earlier ++ .operator op :: after
  clears : op.clearsStack = true
  none : ∀ other, .operator other ∈ earlier → other.clearsStack = false
  takes : TakesWidth widths op earlier without width

theorem exists_takes_width [Add N] (widths : Widths N) (op : Type2Op)
    (earlier : List (Token Type2Op N)) :
    ∃ without width, TakesWidth widths op earlier without width := by
  by_cases carries : CarriesWidth op (waitingAfter [] earlier).length
  · have some : waitingAfter [] earlier ≠ [] := by
      intro none
      rw [none] at carries
      exact not_carries_width_zero op carries
    obtain ⟨start, delta, rest, rfl, first, own⟩ := exists_first_waiting some
    exact ⟨_, _, .given first own carries⟩
  · exact ⟨_, _, .absent carries⟩

theorem exists_decides_first [Add N] (widths : Widths N) {tokens : List (Token Type2Op N)}
    (clears : ∃ op, op.clearsStack = true ∧ .operator op ∈ tokens) :
    ∃ earlier without op after width, DecidesFirst widths tokens earlier without op after width := by
  obtain ⟨earlier, op, after, split, own, none⟩ := exists_first_clearing clears
  obtain ⟨without, width, takes⟩ := exists_takes_width widths op earlier
  exact ⟨earlier, without, op, after, width, split, own, none, takes⟩

theorem group_after_plain {tokens : List (Token Type2Op N)} (plain : ∀ op, .operator op ∉ tokens)
    (waiting : List N) :
    Command.groupAfter waiting tokens = [] ∧
      waitingAfter waiting tokens = waitingAfter [] tokens ++ waiting := by
  induction tokens generalizing waiting with
  | nil => exact ⟨rfl, rfl⟩
  | cons token rest ih =>
      have later (op : Type2Op) : .operator op ∉ rest := fun member =>
        plain op (List.mem_cons_of_mem _ member)
      cases token with
      | number value =>
          obtain ⟨none, waits⟩ := ih later (value :: waiting)
          obtain ⟨-, alone⟩ := ih later [value]
          refine ⟨none, ?_⟩
          rw [waitingAfter, waitingAfter, waits, alone, List.append_assoc]
          rfl
      | operator op => exact absurd List.mem_cons_self (plain op)
      | mask bytes => exact ih later waiting

theorem group_operator (earlier after : List (Token Type2Op N)) (op : Type2Op) :
    Command.group (earlier ++ .operator op :: after) =
      Command.group earlier ++ ⟨(waitingAfter [] earlier).reverse, op⟩ :: Command.group after := by
  rw [Command.group, group_after_append]
  rfl

theorem operator_of_mem_group {waiting : List N} {tokens : List (Token Type2Op N)}
    {command : Command Type2Op N} (member : command ∈ Command.groupAfter waiting tokens) :
    .operator command.op ∈ tokens := by
  induction tokens generalizing waiting with
  | nil => cases member
  | cons token rest ih =>
      cases token with
      | number value => exact List.mem_cons_of_mem _ (ih member)
      | operator op =>
          rcases List.mem_cons.mp member with rfl | later
          · exact List.mem_cons_self
          · exact List.mem_cons_of_mem _ (ih later)
      | mask bytes => exact List.mem_cons_of_mem _ (ih member)

theorem decides_of_takes_width [Add N] {widths : Widths N} {op : Type2Op} {hasWidth : Nat → Bool}
    (rule : widthRule? op = some hasWidth) {earlier without : List (Token Type2Op N)} {width : N}
    (takes : TakesWidth widths op earlier without width) {state : State N}
    (undecided : state.width? = none) :
    Command.group without = Command.group earlier ∧
      Decides widths state (hasWidth (waitingAfter [] earlier).reverse.length)
        (waitingAfter [] earlier).reverse width (waitingAfter [] without).reverse := by
  cases takes with
  | @given start rest delta first own carries =>
      have whole : waitingAfter [] (start ++ .number delta :: rest) =
          waitingAfter [] rest ++ [delta] := by
        rw [waiting_after_append, first]
        exact (group_after_plain own [delta]).2
      have left : waitingAfter [] (start ++ rest) = waitingAfter [] rest := by
        rw [waiting_after_append, first]
      have given := (carries_width_iff rule _).mpr carries
      constructor
      · rw [Command.group, Command.group, group_after_append, group_after_append, first,
          Command.groupAfter, (group_after_plain own []).1, (group_after_plain own [delta]).1]
      · rw [List.length_reverse, given, whole, left, List.reverse_append]
        exact .given undecided rfl
  | absent none =>
      refine ⟨rfl, .absent undecided (.inr ?_)⟩
      rw [List.length_reverse]
      exact Bool.eq_false_iff.mpr fun given => none ((carries_width_iff rule _).mp given)

end Tokens

def Lowering.State.withWidth (state : State N) (width : N) : State N :=
  { state with width? := some width }

variable [Zero N] [Add N] [Neg N] [Magnitude N] (widths : Widths N)

def lowerDecided (width : N) (tokens : List (Token Type2Op N)) : Report (List (Token Type1Op N)) := do
  let state ← (Command.group tokens).foldlM (State.step widths) (decided width)
  pure (state.reversed.reverse.flatMap Command.tokens)

section Steps

theorem step_leaving {command : Command Type2Op N} (leaves : command.op.clearsStack = false)
    (state : State N) :
    State.step widths state command = state.add <$> draw command.op command.arguments := by
  unfold State.step
  split
  · rename_i hasWidth rule
    rw [clears_stack_of_rule rule] at leaves
    cases leaves
  · rfl

-- Until an operator clears the stack, it is all the same whether the width is known.
theorem run_leaving {commands : List (Command Type2Op N)}
    (leaves : ∀ command ∈ commands, command.op.clearsStack = false) (state : State N) :
    (∀ width, commands.foldlM (State.step widths) (state.withWidth width) =
        (State.withWidth · width) <$> commands.foldlM (State.step widths) state) ∧
      (commands.foldlM (State.step widths) state).value.width? = state.width? := by
  induction commands generalizing state with
  | nil => exact ⟨fun _ => (map_pure _ _).symm, rfl⟩
  | cons command rest ih =>
      obtain ⟨first, others⟩ := List.forall_mem_cons.mp leaves
      constructor
      · intro width
        rw [List.foldlM_cons, List.foldlM_cons, step_leaving widths first, step_leaving widths first,
          bind_map_left, bind_map_left, map_bind]
        exact bind_congr fun commands => (ih others (state.add commands)).1 width
      · rw [List.foldlM_cons, Report.value_bind, (ih others _).2, step_leaving widths first]
        rfl

theorem step_undecided {state : State N} {op : Type2Op} {hasWidth : Nat → Bool}
    (rule : widthRule? op = some hasWidth) {arguments left : List N} {width : N}
    (decides : Decides widths state (hasWidth arguments.length) arguments width left) :
    State.step widths state ⟨arguments, op⟩ =
      State.step widths (state.withWidth width) ⟨left, op⟩ := by
  have known : (state.withWidth width).width? = some width := rfl
  rw [step_decided widths known ⟨left, op⟩ hasWidth rule]
  simp only [State.step, rule, decide_width_of_decides decides]
  rfl

variable {widths}

theorem width_run {width : N} (commands : List (Command Type2Op N)) {state : State N}
    (known : state.width? = some width) :
    (commands.foldlM (State.step widths) state).value.width? = some width := by
  induction commands generalizing state with
  | nil => exact known
  | cons command rest ih =>
      rw [List.foldlM_cons, Report.value_bind]
      exact ih (width_of_advances (advances_step widths state command) known)

end Steps

section Lowered

variable {widths} {tokens earlier without after : List (Token Type2Op N)} {op : Type2Op} {width : N}

theorem run_decides_first (first : DecidesFirst widths tokens earlier without op after width) :
    (Command.group tokens).foldlM (State.step widths) State.start =
      (Command.group (without ++ .operator op :: after)).foldlM (State.step widths)
        (decided width) := by
  obtain ⟨rfl, clears, none, takes⟩ := first
  obtain ⟨hasWidth, rule⟩ := rule_of_clears_stack clears
  have leaves (command : Command Type2Op N) (member : command ∈ Command.group earlier) :
      command.op.clearsStack = false := none _ (operator_of_mem_group member)
  obtain ⟨known, undecided⟩ := run_leaving widths leaves State.start
  obtain ⟨same, decides⟩ := decides_of_takes_width rule takes undecided
  have start : decided width = State.start.withWidth width := rfl
  rw [group_operator, group_operator, same, List.foldlM_append, List.foldlM_append, start, known,
    bind_map_left]
  apply Report.bind_congr_of_value
  rw [List.foldlM_cons, List.foldlM_cons, step_undecided widths rule decides]

theorem lower_decides_first (first : DecidesFirst widths tokens earlier without op after width) :
    lower widths tokens = ([.number 0, .number width, .operator .hsbw] ++ ·) <$>
      lowerDecided widths width (without ++ .operator op :: after) := by
  rw [lower, run_decides_first first, lowerDecided, map_bind]
  apply Report.bind_congr_of_value
  have known : (decided width).width? = some width := rfl
  rw [State.commands, width_run _ known]
  rfl

theorem no_hsbw_run (commands : List (Command Type2Op N)) {state : State N}
    (start : state.reversed = []) :
    .operator .hsbw ∉
      (commands.foldlM (State.step widths) state).value.reversed.reverse.flatMap Command.tokens := by
  intro member
  obtain ⟨written, among, hsbw⟩ := operator_mem_tokens.mp member
  rcases written_of_run commands state (List.mem_reverse.mp among) with ⟨_, _, fits⟩ | earlier
  · exact written_ne_hsbw fits hsbw
  · rw [start] at earlier
    cases earlier

theorem no_hsbw_undecided (leaves : ∀ op, .operator op ∈ tokens → op.clearsStack = false) :
    .operator .hsbw ∉ (lower widths tokens).value := by
  have others (command : Command Type2Op N) (member : command ∈ Command.group tokens) :
      command.op.clearsStack = false := leaves _ (operator_of_mem_group member)
  rw [lower, Report.value_bind, Report.value_pure, State.commands, (run_leaving widths others _).2]
  exact no_hsbw_run _ rfl

theorem width_comes_first (widths : Widths N) (tokens : List (Token Type2Op N)) :
    (.operator .hsbw ∈ (lower widths tokens).value ↔
        ∃ op, op.clearsStack = true ∧ .operator op ∈ tokens) ∧
      ((∃ op, op.clearsStack = true ∧ .operator op ∈ tokens) →
        ∃ earlier without op after width, DecidesFirst widths tokens earlier without op after width ∧
          lower widths tokens = ([.number 0, .number width, .operator .hsbw] ++ ·) <$>
            lowerDecided widths width (without ++ .operator op :: after) ∧
          .operator .hsbw ∉
            (lowerDecided widths width (without ++ .operator op :: after)).value) := by
  refine ⟨⟨fun member => ?_, fun clears => ?_⟩, fun clears => ?_⟩
  · by_contra none
    refine no_hsbw_undecided (fun op among => ?_) member
    exact Bool.eq_false_iff.mpr fun clears => none ⟨op, clears, among⟩
  · obtain ⟨earlier, without, op, after, width, first⟩ := exists_decides_first widths clears
    rw [lower_decides_first first]
    exact List.mem_append_left _ (by simp)
  · obtain ⟨earlier, without, op, after, width, first⟩ := exists_decides_first widths clears
    exact ⟨earlier, without, op, after, width, first, lower_decides_first first, no_hsbw_run _ rfl⟩

theorem width_after_dotsection :
    ∃ rest, (lower (⟨500, 600⟩ : Widths Float) [.number 5, .operator .dotsection, .number 100,
        .number 3, .number 4, .operator .rmoveto, .operator .endchar]).value =
      [.number 0, .number 700, .operator .hsbw] ++ rest ∧ .operator .hsbw ∉ rest := by
  have lowered : (lower (⟨500, 600⟩ : Widths Float) [.number 5, .operator .dotsection, .number 100,
        .number 3, .number 4, .operator .rmoveto, .operator .endchar]).value =
      [.number 0, .number 700, .operator .hsbw, .number 5, .operator .dotsection, .number 3,
        .number 4, .operator .rmoveto, .operator .closepath, .operator .endchar] := by
    decide +kernel
  obtain ⟨_, _, _, _, width, -, same, none⟩ := (width_comes_first (⟨500, 600⟩ : Widths Float)
    [.number 5, .operator .dotsection, .number 100, .number 3, .number 4, .operator .rmoveto,
      .operator .endchar]).2 ⟨.rmoveto, rfl, by simp⟩
  refine ⟨_, ?_, none⟩
  rw [same] at lowered ⊢
  obtain rfl : width = 700 := by
    have opening := congrArg (List.take 2) lowered
    simpa using opening
  rfl

end Lowered

end CompactFont
