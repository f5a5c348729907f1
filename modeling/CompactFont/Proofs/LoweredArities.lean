import CompactFont.Proofs.LoweredCommands
import CompactFont.Proofs.PenRun
import Mathlib.Data.List.Forall2
import Mathlib.Data.List.Induction

set_option autoImplicit false

namespace CompactFont

open Lowering

namespace Type1Op

-- How many arguments the pen needs to carry out an operator. It takes a `div` for a part of the numbers
-- and asks nothing of it here.
def required : Type1Op → Nat
  | .hmoveto | .vmoveto | .hlineto | .vlineto | .callothersubr => 1
  | .rmoveto | .rlineto | .hsbw | .setcurrentpoint | .hstem | .vstem => 2
  | .vhcurveto | .hvcurveto | .sbw => 4
  | .seac => 5
  | .rrcurveto | .hstem3 | .vstem3 => 6
  | _ => 0

theorem required_of_arity {op : Type1Op} {count : Nat} (arity : op.arity? = some count) :
    op.required = count ∧ op.startsSubpath = false := by
  cases op <;> cases arity <;> exact ⟨rfl, rfl⟩

theorem required_of_passed_on {op : Type2Op} {same : Type1Op} (passed : op.passedOn? = some same) :
    same.required = 0 ∧ same.startsSubpath = false := by
  cases op <;> cases passed <;> exact ⟨rfl, rfl⟩

end Type1Op

variable {N : Type}

section Moves

-- A move that lowering has written for another one. What it leaves out is the width, which a move
-- only has besides all that the pen needs.
structure MovedAs (command : Command Type2Op N) (written : Type1Command N) : Prop where
  moves : command.op.moveAs? = some written.op
  whole : written.arguments = command.arguments ∨ written.op.required ≤ written.arguments.length

def movesOf (commands : List (Command Type2Op N)) : List (Command Type2Op N) :=
  commands.filter fun command => command.op.startsSubpath

def movesIn (written : List (Type1Command N)) : List (Type1Command N) :=
  written.filter fun command => command.op.startsSubpath

theorem moves_of_append (first second : List (Command Type2Op N)) :
    movesOf (first ++ second) = movesOf first ++ movesOf second :=
  List.filter_append ..

theorem moves_in_append (first second : List (Type1Command N)) :
    movesIn (first ++ second) = movesIn first ++ movesIn second :=
  List.filter_append ..

theorem moves_in_none {written : List (Type1Command N)}
    (none : ∀ command ∈ written, command.op.startsSubpath = false) : movesIn written = [] :=
  List.filter_eq_nil_iff.mpr fun command member => Bool.eq_false_iff.mp (none command member)

theorem moves_in_exact {written : List (Type1Command N)} (all : ∀ command ∈ written, Exact command) :
    movesIn written = [] :=
  moves_in_none fun command member => (Type1Op.required_of_arity (all command member)).2

theorem moves_in_draws {op : Type2Op} {arguments : List N} {commands : List (Type1Command N)}
    (draws : Draws op arguments commands) : movesIn commands = [] := by
  cases draws with
  | strokes _ strokes => exact moves_in_exact fun command member => (strokes command member).2
  | passedOn passed =>
      exact moves_in_none (List.forall_mem_singleton.mpr (Type1Op.required_of_passed_on passed).2)
  | leftOut => rfl

theorem moves_in_close (state : State N) :
    movesIn state.close.reversed.reverse = movesIn state.reversed.reverse := by
  rcases close_cases state with same | closed
  · rw [same]
  · rw [closed, reverse_reversed_add, moves_in_append]
    exact List.append_nil _

theorem moved_as_of_decides [Add N] {widths : Widths N} {state : State N} {op : Type2Op}
    {move : Type1Op} {hasWidth : Nat → Bool} {arguments left : List N} {width : N}
    (moves : op.moveAs? = some move) (rule : widthRule? op = some hasWidth)
    (decides : Decides widths state (hasWidth arguments.length) arguments width left) :
    MovedAs ⟨arguments, op⟩ ⟨left, move⟩ := by
  refine ⟨moves, ?_⟩
  cases decides with
  | before | absent => exact .inl rfl
  | @given delta rest _ carried =>
      right
      cases op <;> cases moves <;> cases rule <;> exact Nat.le_of_lt_succ (of_decide_eq_true carried)

def MovesFollow (earlier : List (Command Type2Op N)) (state : State N) : Prop :=
  List.Forall₂ MovedAs (movesOf earlier) (movesIn state.reversed.reverse)

theorem moves_follow_still {earlier : List (Command Type2Op N)} {state next : State N}
    (follow : MovesFollow earlier state) {command : Command Type2Op N}
    (still : command.op.startsSubpath = false)
    (same : movesIn next.reversed.reverse = movesIn state.reversed.reverse) :
    MovesFollow (earlier ++ [command]) next := by
  have none : movesOf [command] = [] := List.filter_eq_nil_iff.mpr
    (List.forall_mem_singleton.mpr (Bool.eq_false_iff.mp still))
  rw [MovesFollow, moves_of_append, none, List.append_nil, same]
  exact follow

variable [Zero N]

theorem moves_follow_clears {earlier : List (Command Type2Op N)} {state next : State N}
    (follow : MovesFollow earlier state) {op : Type2Op} {arguments left : List N}
    (clears : Clears state left op next)
    (movedAs : ∀ move, op.moveAs? = some move → MovedAs ⟨arguments, op⟩ ⟨left, move⟩) :
    MovesFollow (earlier ++ [⟨arguments, op⟩]) next := by
  cases clears with
  | hinted hints stems =>
      refine moves_follow_still follow (still_of_hints hints) ?_
      rw [reverse_reversed_add, moves_in_append,
        moves_in_exact fun command member => (stems command member).2, List.append_nil]
  | @moved _ move moves =>
      obtain ⟨starts, started⟩ := starts_subpath_of_move_as moves
      have own : movesOf [(⟨arguments, op⟩ : Command Type2Op N)] = [⟨arguments, op⟩] :=
        List.filter_eq_self.mpr (List.forall_mem_singleton.mpr started)
      have written : movesIn [(⟨left, move⟩ : Type1Command N)] = [⟨left, move⟩] :=
        List.filter_eq_self.mpr (List.forall_mem_singleton.mpr starts)
      have before : movesIn (state.move ⟨left, move⟩).reversed.reverse =
          movesIn state.reversed.reverse ++ [⟨left, move⟩] := by
        rw [State.move, reverse_reversed_add, moves_in_append, written]
        exact congrArg (· ++ _) (moves_in_close state)
      rw [MovesFollow, moves_of_append, own, before]
      exact List.rel_append follow (.cons (movedAs move moves) .nil)
  | ended =>
      refine moves_follow_still follow rfl ?_
      rw [reverse_reversed_add, moves_in_append, moves_in_close,
        moves_in_exact fun command member => (exact_ending left command member).1, List.append_nil]

variable [Add N] {widths : Widths N}

theorem moves_follow_advances {earlier : List (Command Type2Op N)} {state next : State N}
    (follow : MovesFollow earlier state) {command : Command Type2Op N}
    (advances : Advances widths state command next) :
    MovesFollow (earlier ++ [command]) next := by
  cases advances with
  | added leaves draws =>
      refine moves_follow_still follow (still_of_leaving leaves) ?_
      rw [reverse_reversed_add, moves_in_append, moves_in_draws draws, List.append_nil]
  | @cleared _ _ _ _ width _ rule decides clears =>
      have decided : MovesFollow earlier { state with width? := some width } := follow
      exact moves_follow_clears decided clears fun move moves => moved_as_of_decides moves rule decides

variable [Neg N] [Magnitude N]

theorem moves_follow_run (commands earlier : List (Command Type2Op N)) (state : State N)
    (follow : MovesFollow earlier state) :
    MovesFollow (earlier ++ commands) (commands.foldlM (State.step widths) state).value := by
  induction commands generalizing earlier state with
  | nil => exact (List.append_nil earlier).symm ▸ follow
  | cons command rest ih =>
      have next := ih (earlier ++ [command]) _
        (moves_follow_advances follow (advances_step widths state command))
      rw [List.append_assoc] at next
      rw [List.foldlM_cons, Report.value_bind]
      exact next

end Moves

section Places

theorem operator_of_command {command : Type1Command N} {op : Type1Op}
    {before last : List (Token Type1Op N)} (split : command.tokens = before ++ .operator op :: last) :
    before = command.arguments.map .number ∧ op = command.op := by
  rcases List.append_eq_append_iff.mp split with ⟨middle, rfl, rest⟩ | ⟨middle, numbers, rest⟩
  · cases middle with
    | nil =>
        obtain ⟨same, -⟩ := List.cons.inj rest
        exact ⟨List.append_nil _, (Token.operator.inj same).symm⟩
    | cons token tokens => simp at rest
  · cases middle with
    | nil =>
        obtain ⟨same, -⟩ := List.cons.inj rest
        exact ⟨by rw [numbers, List.append_nil], Token.operator.inj same⟩
    | cons token tokens =>
        obtain ⟨rfl, -⟩ := List.cons.inj rest
        have among : .operator op ∈ (command.arguments.map .number : List (Token Type1Op N)) := by
          rw [numbers]
          simp
        simp at among

theorem operator_place {commands : List (Type1Command N)} {op : Type1Op}
    {before after : List (Token Type1Op N)}
    (place : commands.flatMap Command.tokens = before ++ .operator op :: after) :
    ∃ earlier arguments later, commands = earlier ++ ⟨arguments, op⟩ :: later ∧
      before = earlier.flatMap Command.tokens ++ arguments.map .number := by
  induction commands generalizing before with
  | nil => simp at place
  | cons command rest ih =>
      have onward {middle : List (Token Type1Op N)} (split : before = command.tokens ++ middle)
          (further : rest.flatMap Command.tokens = middle ++ .operator op :: after) :
          ∃ earlier arguments later, command :: rest = earlier ++ ⟨arguments, op⟩ :: later ∧
            before = earlier.flatMap Command.tokens ++ arguments.map .number := by
        obtain ⟨earlier, arguments, later, rfl, rfl⟩ := ih further
        exact ⟨command :: earlier, arguments, later, rfl, by simp [split]⟩
      rw [List.flatMap_cons] at place
      rcases List.append_eq_append_iff.mp place with ⟨middle, split, further⟩ | ⟨last, split, further⟩
      · exact onward split further
      · cases last with
        | nil =>
            rw [List.append_nil] at split
            exact onward (split.symm.trans (List.append_nil _).symm) further.symm
        | cons token last =>
            obtain ⟨rfl, -⟩ := List.cons.inj further
            obtain ⟨rfl, rfl⟩ := operator_of_command split
            exact ⟨[], command.arguments, rest, rfl, rfl⟩

theorem pending_numbers (numbers : List N) (stack : List (Token Type1Op N)) :
    Token.pending (numbers.map Token.number ++ stack) = numbers.length + Token.pending stack := by
  induction numbers with
  | nil => exact (Nat.zero_add _).symm
  | cons number rest ih =>
      rw [List.map_cons, List.cons_append, Token.pending_number, ih, List.length_cons]
      omega

theorem pending_place (earlier : List (Type1Command N)) (arguments : List N) :
    Token.pending (earlier.flatMap Command.tokens ++ arguments.map Token.number).reverse =
      arguments.length := by
  have none : Token.pending (earlier.flatMap Command.tokens).reverse = 0 := by
    rcases List.eq_nil_or_concat earlier with rfl | ⟨first, last, rfl⟩
    · rfl
    · simp [Command.tokens]
  rw [List.reverse_append, ← List.map_reverse, pending_numbers, none, List.length_reverse,
    Nat.add_zero]

theorem count_p_place (earlier : List (Type1Command N)) (arguments : List N) :
    (earlier.flatMap Command.tokens ++ arguments.map Token.number).countP
        (Token.isOperator Type1Op.startsSubpath) = (movesIn earlier).length := by
  rw [List.countP_append, count_p_tokens, count_p_numbers, Nat.add_zero, List.countP_eq_length_filter]
  rfl

end Places

section Pens

variable {C : Type} {notice : Notice}

def Notice.missesArguments : Notice → Bool
  | .glyphTooFewArguments _ _ _ => true
  | _ => false

def Satisfied {α : Type} (report : Report α) : Prop :=
  ∀ notice ∈ report.notices, notice.missesArguments = false

theorem satisfied_pure {α : Type} (value : α) : Satisfied (pure value) := List.forall_mem_nil _

theorem satisfied_note {made : Notice} (other : made.missesArguments = false) :
    Satisfied (Report.note made) :=
  List.forall_mem_singleton.mpr other

theorem satisfied_bind {α β : Type} {report : Report α} {next : α → Report β}
    (first : Satisfied report) (last : Satisfied (next report.value)) : Satisfied (report >>= next) :=
  List.forall_mem_append.mpr ⟨first, last⟩

theorem satisfied_ensure_open (glyph : Nat) (pen : Pen C) : Satisfied (pen.ensureOpen glyph) := by
  unfold Pen.ensureOpen
  split
  · exact satisfied_pure pen
  · split
    · exact satisfied_bind (satisfied_note rfl) (satisfied_pure _)
    · exact satisfied_pure _

theorem satisfied_close (glyph : Nat) (pen : Pen C) : Satisfied (pen.close glyph) := by
  unfold Pen.close
  split
  · exact satisfied_pure _
  · exact satisfied_bind (satisfied_note rfl) (satisfied_pure _)

variable [Coordinate C] {setting : Setting C}

theorem satisfied_divide (glyph : Nat) (numbers : List C) : Satisfied (Pen.divide glyph numbers) := by
  unfold Pen.divide
  split
  · split
    · exact satisfied_bind (satisfied_note rfl) (satisfied_pure _)
    · exact satisfied_pure _
  · exact satisfied_bind (satisfied_note rfl) (satisfied_pure _)

theorem satisfied_line_by (glyph : Nat) (pen : Pen C) (delta : Point C) :
    Satisfied (pen.lineBy glyph delta) :=
  satisfied_bind (satisfied_ensure_open glyph pen) (satisfied_pure _)

theorem satisfied_curve_by (glyph : Nat) (pen : Pen C) (delta₁ delta₂ delta₃ : Point C) :
    Satisfied (pen.curveBy glyph delta₁ delta₂ delta₃) :=
  satisfied_bind (satisfied_ensure_open glyph pen) (satisfied_pure _)

theorem satisfied_othersubr (glyph : Nat) (pen : Pen C) (number : Int) :
    Satisfied (pen.othersubr glyph number) := by
  unfold Pen.othersubr
  split
  · unfold Pen.endFlex
    split
    · exact satisfied_bind (satisfied_curve_by _ _ _ _ _) (satisfied_curve_by _ _ _ _ _)
    · exact satisfied_bind (satisfied_note rfl) (satisfied_pure _)
  · exact satisfied_pure _
  · exact satisfied_bind (satisfied_note rfl) (satisfied_pure _)

def FromComponent (setting : Setting C) (notice : Notice) : Prop :=
  ∃ component code, setting.component? = some component ∧ notice ∈ (component code).notices

theorem from_component_of_compose {pen : Pen C} {accentBearing dx dy base accent : C}
    (made : notice ∈ (pen.compose setting accentBearing dx dy base accent).notices)
    (misses : notice.missesArguments = true) : FromComponent setting notice := by
  unfold Pen.compose at made
  split at made
  · obtain rfl := List.mem_singleton.mp made
    cases misses
  · rename_i component present
    rcases List.mem_append.mp made with drawn | later
    · exact ⟨component, base, present, drawn⟩
    · rcases List.mem_append.mp later with drawn | nothing
      · exact ⟨component, accent, present, drawn⟩
      · cases nothing

theorem from_component_of_enough {pen : Pen C} {op : Type1Op} {arguments : List C}
    (enough : op.required ≤ arguments.length)
    (made : notice ∈ (pen.operate setting op arguments).notices)
    (misses : notice.missesArguments = true) : FromComponent setting notice := by
  have none {report : Report (Pen C)} (satisfied : Satisfied report)
      (made : notice ∈ report.notices) : FromComponent setting notice := by
    rw [satisfied notice made] at misses
    cases misses
  cases op with
  | closepath => exact none (satisfied_close _ pen) made
  | dotsection | endchar => exact none (satisfied_pure _) made
  | callsubr | subrReturn | pop | div =>
      exact none (satisfied_bind (satisfied_note rfl) (satisfied_pure _)) made
  | hmoveto | vmoveto =>
      match arguments, enough with
      | _ :: _, _ => exact none (satisfied_pure _) made
  | hlineto | vlineto =>
      match arguments, enough with
      | _ :: _, _ => exact none (satisfied_line_by _ _ _) made
  | callothersubr =>
      match arguments, enough with
      | _ :: _, _ => exact none (satisfied_othersubr _ _ _) made
  | rmoveto | hsbw | setcurrentpoint | hstem | vstem =>
      match arguments, enough with
      | _ :: _ :: _, _ => exact none (satisfied_pure _) made
  | rlineto =>
      match arguments, enough with
      | _ :: _ :: _, _ => exact none (satisfied_line_by _ _ _) made
  | vhcurveto | hvcurveto =>
      match arguments, enough with
      | _ :: _ :: _ :: _ :: _, _ => exact none (satisfied_curve_by _ _ _ _ _) made
  | sbw =>
      match arguments, enough with
      | _ :: _ :: _ :: _ :: _, _ => exact none (satisfied_pure _) made
  | seac =>
      match arguments, enough with
      | _ :: _ :: _ :: _ :: _ :: _, _ => exact from_component_of_compose made misses
  | rrcurveto =>
      match arguments, enough with
      | _ :: _ :: _ :: _ :: _ :: _ :: _, _ => exact none (satisfied_curve_by _ _ _ _ _) made
  | hstem3 | vstem3 =>
      match arguments, enough with
      | _ :: _ :: _ :: _ :: _ :: _ :: _, _ => exact none (satisfied_pure _) made

theorem from_component_of_step {waiting : Pen.Waiting C} {op : Type1Op}
    (enough : waiting.pen.ended = false → op.required ≤ waiting.numbers.length)
    (made : notice ∈ (Pen.step setting waiting (.operator op)).notices)
    (misses : notice.missesArguments = true) : FromComponent setting notice := by
  unfold Pen.step at made
  by_cases ended : waiting.pen.ended = true
  · rw [if_pos ended] at made
    cases made
  · rw [if_neg ended] at made
    have needs := enough (Bool.eq_false_iff.mpr ended)
    have operated (made : notice ∈
          (waiting.pen.operate setting op waiting.numbers.reverse).notices ++ []) :
        FromComponent setting notice := by
      rw [List.append_nil] at made
      exact from_component_of_enough (by rwa [List.length_reverse]) made misses
    cases op with
    | div =>
        have divided := satisfied_bind (satisfied_divide setting.glyph waiting.numbers)
          (satisfied_pure _) notice made
        rw [divided] at misses
        cases misses
    | _ => exact operated made

def penBefore (setting : Setting C) (convert : N → C) (tokens : List (Token Type1Op N)) :
    Pen.Waiting C :=
  ((tokens.map (Token.mapNumber convert)).foldlM (Pen.step setting) ⟨Pen.start, []⟩).value

theorem waits_pen_before (convert : N → C) (earlier : List (Token Type1Op N)) (arguments : List N)
    (drawing : (penBefore setting convert (earlier ++ arguments.map .number)).pen.ended = false) :
    arguments.length ≤
      (penBefore setting convert (earlier ++ arguments.map .number)).numbers.length := by
  have onward : penBefore setting convert (earlier ++ arguments.map .number) =
      (((arguments.map Token.number).map (Token.mapNumber convert)).foldlM (Pen.step setting)
        (penBefore setting convert earlier)).value := by
    rw [penBefore, List.map_append, List.foldlM_append]
    rfl
  rw [onward] at drawing ⊢
  by_cases ended : (penBefore setting convert earlier).pen.ended = true
  · rw [foldl_m_ended setting _ ended, Report.value_pure, ended] at drawing
    cases drawing
  · have awaited := step_numbers setting convert (penBefore setting convert earlier).pen
      (Bool.eq_false_iff.mpr ended) arguments (penBefore setting convert earlier).numbers []
    rw [List.append_nil] at awaited
    rw [awaited, List.foldlM_nil, Report.value_pure, List.length_append, List.length_reverse,
      List.length_map]
    omega

theorem step_of_notice {α σ : Type} (step : σ → α → Report σ) (start : σ) {items : List α}
    (made : notice ∈ (items.foldlM step start).notices) :
    ∃ before item after, items = before ++ item :: after ∧
      notice ∈ (step (before.foldlM step start).value item).notices := by
  induction items using List.reverseRecOn with
  | nil => cases made
  | append_singleton items item ih =>
      rw [List.foldlM_append] at made
      rcases List.mem_append.mp made with early | last
      · obtain ⟨before, place, after, rfl, there⟩ := ih early
        exact ⟨before, place, after ++ [item], List.append_assoc .., there⟩
      · have there : notice ∈ ([item].foldlM step (items.foldlM step start).value).notices := last
        simp only [List.foldlM_cons, List.foldlM_nil, bind_pure] at there
        exact ⟨items, item, [], rfl, there⟩

theorem operator_of_notice {convert : N → C} {tokens : List (Token Type1Op N)}
    (made : notice ∈ (Pen.run setting (tokens.map (Token.mapNumber convert))).notices) :
    ∃ before op after, tokens = before ++ .operator op :: after ∧
      notice ∈ (Pen.step setting (penBefore setting convert before) (.operator op)).notices := by
  have along : notice ∈ ((tokens.map (Token.mapNumber convert)).foldlM (Pen.step setting)
      ⟨Pen.start, []⟩).notices := by
    rw [Pen.run] at made
    exact (List.mem_append.mp made).resolve_right (List.not_mem_nil)
  obtain ⟨drawn, item, after, split, there⟩ := step_of_notice _ _ along
  obtain ⟨before, place, rfl, rfl, items⟩ := List.map_eq_append_iff.mp split
  obtain ⟨token, later, rfl, rfl, -⟩ := List.map_eq_cons_iff.mp items
  have plain {result : Pen.Waiting C} (waiting : Pen.Waiting C)
      (made : notice ∈
        (if waiting.pen.ended then pure waiting else pure result : Report (Pen.Waiting C)).notices) :
      False := by
    split at made <;> cases made
  cases token with
  | number value => exact absurd there (plain _)
  | operator op => exact ⟨before, op, later, rfl, there⟩
  | mask bytes => exact absurd there (plain _)

end Pens

section Lowered

variable [Zero N] [Add N] [Neg N] [Magnitude N] (widths : Widths N) (tokens : List (Token Type2Op N))

-- The operator after some lowered tokens has the arguments it takes, or is a move, or is one of the
-- charstring's own with those that it had there.
inductive Suits (before : List (Token Type1Op N)) (op : Type1Op) : Prop
  | exact (arity : op.arity? = some (Token.pending before.reverse))
  | move {move : Type2Op} (moves : move.moveAs? = some op)
  | passedOn {command : Command Type2Op N} (member : command ∈ Command.group tokens)
      (passed : command.op.passedOn? = some op)
      (own : ∃ earlier, before = earlier ++ command.arguments.map .number)
      (all : Token.pending before.reverse = command.arguments.length)

def loweredCommands : List (Type1Command N) :=
  ((Command.group tokens).foldlM (State.step widths) State.start).value.commands

variable {widths tokens}

theorem written_lowered {written : Type1Command N}
    (member : written ∈ loweredCommands widths tokens) :
    Exact written ∨ ∃ command ∈ Command.group tokens, Written command written := by
  rcases List.mem_append.mp member with opening | later
  · obtain ⟨width, -, rfl⟩ := Option.map_eq_some_iff.mp (Option.mem_toList.mp opening)
    exact .inl rfl
  · rcases written_of_run _ _ (List.mem_reverse.mp later) with among | earlier
    · exact .inr among
    · cases earlier

theorem moves_lowered :
    List.Forall₂ MovedAs (movesOf (Command.group tokens))
      (movesIn (loweredCommands widths tokens)) := by
  have start : MovesFollow [] (State.start : State N) := .nil
  have follow : MovesFollow ([] ++ Command.group tokens)
      ((Command.group tokens).foldlM (State.step widths) State.start).value :=
    moves_follow_run _ [] _ start
  have opening (width? : Option N) :
      movesIn (width?.map fun width => (⟨[0, width], .hsbw⟩ : Type1Command N)).toList = [] := by
    cases width? <;> rfl
  rw [loweredCommands, State.commands, moves_in_append, opening]
  exact follow

theorem move_lowered {earlier later : List (Type1Command N)} {arguments : List N} {op : Type1Op}
    (split : loweredCommands widths tokens = earlier ++ ⟨arguments, op⟩ :: later)
    (starts : op.startsSubpath = true) :
    ∃ command, (movesOf (Command.group tokens))[(movesIn earlier).length]? = some command ∧
      MovedAs command ⟨arguments, op⟩ := by
  have related : List.Forall₂ MovedAs (movesOf (Command.group tokens))
      (movesIn (loweredCommands widths tokens)) := moves_lowered
  have own : movesIn (⟨arguments, op⟩ :: later) = ⟨arguments, op⟩ :: movesIn later :=
    List.filter_cons_of_pos starts
  rw [split, moves_in_append, own] at related
  have from' := List.forall₂_drop_append _ _ _ related
  rw [← Nat.add_zero (movesIn earlier).length, ← List.getElem?_drop]
  cases rest : (movesOf (Command.group tokens)).drop (movesIn earlier).length with
  | nil =>
      rw [rest] at from'
      cases from'
  | cons command others =>
      rw [rest] at from'
      obtain ⟨movedAs, -⟩ := List.forall₂_cons.mp from'
      exact ⟨command, rfl, movedAs⟩

theorem suits_lowered {before after : List (Token Type1Op N)} {op : Type1Op}
    (place : (lower widths tokens).value = before ++ .operator op :: after) :
    Suits tokens before op := by
  have lowered : (loweredCommands widths tokens).flatMap Command.tokens =
      before ++ .operator op :: after := place
  obtain ⟨earlier, arguments, later, split, rfl⟩ := operator_place lowered
  have count := pending_place earlier arguments
  have member : ⟨arguments, op⟩ ∈ loweredCommands widths tokens := by
    rw [split]
    exact List.mem_append_right _ List.mem_cons_self
  rcases written_lowered member with exact' | ⟨command, among, written⟩
  · exact .exact (exact'.trans (congrArg some count.symm))
  · cases written with
    | exact exact' => exact .exact (exact'.trans (congrArg some count.symm))
    | moved moves => exact .move moves
    | passedOn passed => exact .passedOn among passed ⟨_, rfl⟩ count

variable {C : Type} [Coordinate C] {setting : Setting C} {convert : N → C}

theorem moved_of_misses_arguments {before after : List (Token Type1Op N)} {op : Type1Op}
    (place : (lower widths tokens).value = before ++ .operator op :: after) {notice : Notice}
    (made : notice ∈
      (Pen.step setting (penBefore setting convert before) (.operator op)).notices)
    (misses : notice.missesArguments = true) :
    FromComponent setting notice ∨
      ∃ command, (movesOf (Command.group tokens))[before.countP
          (Token.isOperator Type1Op.startsSubpath)]? = some command ∧
        command.op.moveAs? = some op ∧ command.arguments.length < op.required := by
  have lowered : (loweredCommands widths tokens).flatMap Command.tokens =
      before ++ .operator op :: after := place
  obtain ⟨earlier, arguments, later, split, rfl⟩ := operator_place lowered
  by_cases enough : op.required ≤ arguments.length
  · left
    refine from_component_of_step (fun drawing => ?_) made misses
    exact Nat.le_trans enough (waits_pen_before convert _ arguments drawing)
  · right
    have starts : op.startsSubpath = true := by
      cases suits_lowered place with
      | exact arity =>
          rw [pending_place] at arity
          exact absurd (Nat.le_of_eq (Type1Op.required_of_arity arity).1) enough
      | move moves => exact (starts_subpath_of_move_as moves).1
      | passedOn _ passed =>
          rw [(Type1Op.required_of_passed_on passed).1] at enough
          exact absurd (Nat.zero_le _) enough
    obtain ⟨command, there, moves, whole⟩ := move_lowered split starts
    rw [count_p_place]
    refine ⟨command, there, moves, ?_⟩
    rw [← whole.resolve_right enough]
    exact Nat.lt_of_not_le enough

end Lowered

end CompactFont
