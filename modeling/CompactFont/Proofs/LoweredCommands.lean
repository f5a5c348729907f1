import CompactFont.Charstring.Lowering
import Mathlib.Tactic.Common

set_option autoImplicit false

namespace CompactFont

open Lowering

namespace Type2Op

def draws : Type2Op → Bool
  | .rlineto | .hlineto | .vlineto | .rrcurveto | .rcurveline | .rlinecurve | .vvcurveto
  | .hhcurveto | .vhcurveto | .hvcurveto | .hflex | .flex | .hflex1 | .flex1 => true
  | _ => false

def clearsStack (op : Type2Op) : Bool :=
  op.declaresStems || op.takesMask || op.startsSubpath || op == .endchar

def passedOn? : Type2Op → Option Type1Op
  | .callsubr => some .callsubr
  | .subrReturn => some .subrReturn
  | .dotsection => some .dotsection
  | .div => some .div
  | _ => none

def moveAs? : Type2Op → Option Type1Op
  | .rmoveto => some .rmoveto
  | .hmoveto => some .hmoveto
  | .vmoveto => some .vmoveto
  | _ => none

end Type2Op

namespace Type1Op

def drawsStroke : Type1Op → Bool
  | .rlineto | .hlineto | .vlineto | .rrcurveto => true
  | _ => false

def startsSubpath : Type1Op → Bool
  | .rmoveto | .hmoveto | .vmoveto => true
  | _ => false

def arity? : Type1Op → Option Nat
  | .hsbw | .hstem | .vstem | .rlineto => some 2
  | .hlineto | .vlineto => some 1
  | .rrcurveto => some 6
  | .seac => some 5
  | .closepath | .endchar => some 0
  | _ => none

end Type1Op

variable {N : Type}

def Exact (command : Type1Command N) : Prop := command.op.arity? = some command.arguments.length

def Strokes (commands : List (Type1Command N)) : Prop :=
  ∀ command ∈ commands, command.op.drawsStroke = true ∧ Exact command

inductive Draws (op : Type2Op) (arguments : List N) : List (Type1Command N) → Prop
  | strokes {commands : List (Type1Command N)} (draws : op.draws = true) (strokes : Strokes commands) :
      Draws op arguments commands
  | passedOn {same : Type1Op} (passed : op.passedOn? = some same) :
      Draws op arguments [⟨arguments, same⟩]
  | leftOut (plain : op.draws = false) : Draws op arguments []

section Strokes

theorem strokes_nil : Strokes ([] : List (Type1Command N)) := List.forall_mem_nil _

theorem strokes_cons {command : Type1Command N} {commands : List (Type1Command N)}
    (first : command.op.drawsStroke = true ∧ Exact command) (rest : Strokes commands) :
    Strokes (command :: commands) :=
  List.forall_mem_cons.mpr ⟨first, rest⟩

theorem strokes_append {first second : List (Type1Command N)} (head : Strokes first)
    (tail : Strokes second) : Strokes (first ++ second) :=
  List.forall_mem_append.mpr ⟨head, tail⟩

theorem strokes_lines (arguments : List N) : Strokes (lines arguments) := by
  fun_induction lines arguments with
  | case1 dx dy rest ih => exact strokes_cons ⟨rfl, rfl⟩ ih
  | case2 => exact strokes_nil

theorem strokes_alternating_lines (horizontal : Bool) (arguments : List N) :
    Strokes (alternatingLines horizontal arguments) := by
  fun_induction alternatingLines horizontal arguments with
  | case1 => exact strokes_nil
  | case2 horizontal delta rest ih =>
      cases horizontal <;> exact strokes_cons ⟨rfl, rfl⟩ ih

theorem strokes_curves (arguments : List N) : Strokes (curves arguments) := by
  fun_induction curves arguments with
  | case1 dx₁ dy₁ dx₂ dy₂ dx₃ dy₃ rest ih => exact strokes_cons ⟨rfl, rfl⟩ ih
  | case2 => exact strokes_nil

theorem strokes_last {arguments : List N} {count : Nat} {op : Type1Op}
    (stroke : op.drawsStroke = true) (takes : op.arity? = some count)
    (enough : count ≤ arguments.length) :
    Strokes [(⟨arguments.drop (arguments.length - count), op⟩ : Type1Command N)] := by
  refine strokes_cons ⟨stroke, ?_⟩ strokes_nil
  rw [Exact, takes, List.length_drop]
  exact congrArg some (by omega)

variable [Zero N]

theorem strokes_alternating_curves (horizontal : Bool) (arguments : List N) :
    Strokes (alternatingCurves horizontal arguments) := by
  fun_induction alternatingCurves horizontal arguments with
  | case1 horizontal => cases horizontal <;> exact strokes_cons ⟨rfl, rfl⟩ strokes_nil
  | case2 horizontal start dx dy finish rest _ ih =>
      cases horizontal <;> exact strokes_cons ⟨rfl, rfl⟩ ih
  | case3 => exact strokes_nil

theorem strokes_parallel_curves (horizontal : Bool) (cross : N) (arguments : List N) :
    Strokes (parallelCurves horizontal cross arguments) := by
  fun_induction parallelCurves horizontal cross arguments with
  | case1 cross start dx dy finish rest ih =>
      cases horizontal <;> exact strokes_cons ⟨rfl, rfl⟩ ih
  | case2 => exact strokes_nil

theorem strokes_parallel (horizontal : Bool) (arguments : List N) :
    Strokes (parallel horizontal arguments) := by
  cases arguments with
  | nil => exact strokes_nil
  | cons cross rest =>
      rw [parallel]
      split <;> exact strokes_parallel_curves _ _ _

variable [Add N] [Neg N] [Magnitude N]

theorem strokes_flex (op : Type2Op) (arguments : List N) :
    Strokes ((flex? op arguments).elim (tooFew op arguments) pure).value := by
  fun_cases flex? op arguments with
  | case4 =>
      rename_i finish
      have last : finish.length = 2 := by
        simp only [finish]
        split <;> rfl
      refine strokes_cons ⟨rfl, rfl⟩ (strokes_cons ⟨rfl, ?_⟩ strokes_nil)
      rw [Exact, curve, List.length_append, last]
      rfl
  | case5 => exact strokes_nil
  | _ => exact strokes_cons ⟨rfl, rfl⟩ (strokes_cons ⟨rfl, rfl⟩ strokes_nil)

theorem draws_draw {op : Type2Op} (leaves : op.clearsStack = false) (arguments : List N) :
    Draws op arguments (draw op arguments).value := by
  have flex := strokes_flex op arguments
  cases op with
  | rlineto => exact .strokes rfl (strokes_lines arguments)
  | hlineto => exact .strokes rfl (strokes_alternating_lines true arguments)
  | vlineto => exact .strokes rfl (strokes_alternating_lines false arguments)
  | rrcurveto => exact .strokes rfl (strokes_curves arguments)
  | hvcurveto => exact .strokes rfl (strokes_alternating_curves true arguments)
  | vhcurveto => exact .strokes rfl (strokes_alternating_curves false arguments)
  | hhcurveto => exact .strokes rfl (strokes_parallel true arguments)
  | vvcurveto => exact .strokes rfl (strokes_parallel false arguments)
  | rcurveline =>
      simp only [draw]
      split
      · exact .strokes rfl strokes_nil
      · rename_i enough
        exact .strokes rfl
          (strokes_append (strokes_curves _) (strokes_last rfl rfl (Nat.le_of_not_lt enough)))
  | rlinecurve =>
      simp only [draw]
      split
      · exact .strokes rfl strokes_nil
      · rename_i enough
        exact .strokes rfl
          (strokes_append (strokes_lines _) (strokes_last rfl rfl (Nat.le_of_not_lt enough)))
  | hflex | flex | hflex1 | flex1 => exact .strokes rfl flex
  | callsubr | subrReturn | dotsection | div => exact .passedOn rfl
  | hstem | vstem | vmoveto | endchar | hstemhm | hintmask | cntrmask | rmoveto | hmoveto
  | vstemhm => cases leaves
  | _ => exact .leftOut rfl

end Strokes

inductive Decides [Add N] (widths : Widths N) (state : State N) (given : Bool) :
    List N → N → List N → Prop
  | before {arguments : List N} {width : N} (known : state.width? = some width) :
      Decides widths state given arguments width arguments
  | given {delta : N} {rest : List N} (undecided : state.width? = none) (carried : given = true) :
      Decides widths state given (delta :: rest) (delta + widths.nominal) rest
  | absent {arguments : List N} (undecided : state.width? = none)
      (none : arguments = [] ∨ given = false) :
      Decides widths state given arguments widths.default arguments

theorem exists_decides [Add N] (widths : Widths N) (state : State N) (given : Bool)
    (arguments : List N) : ∃ width left, Decides widths state given arguments width left := by
  cases known : state.width? with
  | some width => exact ⟨width, arguments, .before known⟩
  | none =>
      cases arguments with
      | nil => exact ⟨_, _, .absent known (.inl rfl)⟩
      | cons delta rest =>
          cases carried : given with
          | true => exact ⟨_, _, .given known rfl⟩
          | false => exact ⟨_, _, .absent known (.inr rfl)⟩

theorem decide_width_of_decides [Add N] {widths : Widths N} {state : State N} {given : Bool}
    {arguments left : List N} {width : N}
    (decides : Decides widths state given arguments width left) :
    state.decideWidth widths given arguments = ({ state with width? := some width }, left) := by
  cases decides with
  | before known =>
      obtain ⟨width?, subpaths, reversed⟩ := state
      cases known
      rfl
  | given undecided carried => simp [State.decideWidth, undecided, carried]
  | absent undecided none =>
      rcases none with rfl | none
      · simp [State.decideWidth, undecided]
      · cases arguments <;> simp [State.decideWidth, undecided, none]

-- The commands at the end of a glyph. Four arguments stand for two components.
def ending [Zero N] (arguments : List N) : List (Type1Command N) :=
  (if arguments.length = 4 then [⟨0 :: arguments, .seac⟩] else []) ++ [⟨[], .endchar⟩]

theorem exact_ending [Zero N] (arguments : List N) :
    ∀ command ∈ ending arguments, Exact command ∧ command.op ≠ .hsbw := by
  have last : Exact (⟨[], .endchar⟩ : Type1Command N) ∧ Type1Op.endchar ≠ .hsbw := ⟨rfl, nofun⟩
  unfold ending
  split
  · rename_i four
    refine List.forall_mem_cons.mpr ⟨⟨?_, nofun⟩, List.forall_mem_singleton.mpr last⟩
    rw [Exact, List.length_cons, four]
    rfl
  · exact List.forall_mem_singleton.mpr last

inductive Clears [Zero N] (state : State N) (arguments : List N) : Type2Op → State N → Prop
  | hinted {op : Type2Op} {commands : List (Type1Command N)}
      (hints : op.declaresStems = true ∨ op.takesMask = true)
      (stems : ∀ command ∈ commands, (command.op = .hstem ∨ command.op = .vstem) ∧ Exact command) :
      Clears state arguments op (state.add commands)
  | moved {op : Type2Op} {move : Type1Op} (moves : op.moveAs? = some move) :
      Clears state arguments op (state.move ⟨arguments, move⟩)
  | ended : Clears state arguments .endchar (state.close.add (ending arguments))

-- All that one command can do to the state of lowering.
inductive Advances [Zero N] [Add N] (widths : Widths N) (state : State N) :
    Command Type2Op N → State N → Prop
  | added {op : Type2Op} {arguments : List N} {commands : List (Type1Command N)}
      (leaves : op.clearsStack = false) (draws : Draws op arguments commands) :
      Advances widths state ⟨arguments, op⟩ (state.add commands)
  | cleared {op : Type2Op} {hasWidth : Nat → Bool} {arguments left : List N} {width : N}
      {next : State N} (rule : widthRule? op = some hasWidth)
      (decides : Decides widths state (hasWidth arguments.length) arguments width left)
      (clears : Clears { state with width? := some width } left op next) :
      Advances widths state ⟨arguments, op⟩ next

theorem exact_stems [Add N] {op : Type1Op} (stem : op = .hstem ∨ op = .vstem) (lastEnd : N)
    (arguments : List N) :
    ∀ command ∈ stems op lastEnd arguments,
      (command.op = .hstem ∨ command.op = .vstem) ∧ Exact command := by
  fun_induction stems op lastEnd arguments with
  | case1 lastEnd distance width rest position ih =>
      refine List.forall_mem_cons.mpr ⟨⟨stem, ?_⟩, ih⟩
      rcases stem with rfl | rfl <;> rfl
  | case2 => exact List.forall_mem_nil _

theorem starts_subpath_of_move_as {op : Type2Op} {move : Type1Op} (moves : op.moveAs? = some move) :
    move.startsSubpath = true ∧ op.startsSubpath = true := by
  cases op <;> cases moves <;> exact ⟨rfl, rfl⟩

theorem still_of_leaving {op : Type2Op} (leaves : op.clearsStack = false) :
    op.startsSubpath = false := by
  cases op <;> first | rfl | cases leaves

theorem still_of_hints {op : Type2Op} (hints : op.declaresStems = true ∨ op.takesMask = true) :
    op.startsSubpath = false := by
  cases op <;> first | rfl | rcases hints with hints | hints <;> cases hints

theorem clears_stack_of_rule {op : Type2Op} {hasWidth : Nat → Bool}
    (rule : widthRule? op = some hasWidth) : op.clearsStack = true := by
  cases op <;> first | rfl | cases rule

theorem rule_of_clears_stack {op : Type2Op} (clears : op.clearsStack = true) :
    ∃ hasWidth, widthRule? op = some hasWidth := by
  cases op <;> first | exact ⟨_, rfl⟩ | cases clears

theorem leaves_of_no_rule {op : Type2Op} (none : widthRule? op = none) : op.clearsStack = false := by
  cases op <;> first | rfl | cases none

section Advances

variable [Zero N] [Add N]

theorem clears_clear (state : State N) (arguments : List N) {op : Type2Op}
    (clears : op.clearsStack = true) : Clears state arguments op (state.clear arguments op) := by
  cases op with
  | hstem | hstemhm => exact .hinted (.inl rfl) (exact_stems (.inl rfl) 0 arguments)
  | vstem | vstemhm => exact .hinted (.inl rfl) (exact_stems (.inr rfl) 0 arguments)
  | hintmask | cntrmask => exact .hinted (.inr rfl) (exact_stems (.inr rfl) 0 arguments)
  | hmoveto | vmoveto | rmoveto => exact .moved rfl
  | endchar => exact .ended
  | _ => cases clears

variable [Neg N] [Magnitude N]

theorem advances_step (widths : Widths N) (state : State N) (command : Command Type2Op N) :
    Advances widths state command (State.step widths state command).value := by
  obtain ⟨arguments, op⟩ := command
  cases rule : widthRule? op with
  | none =>
      have stepped : (State.step widths state ⟨arguments, op⟩).value =
          state.add (draw op arguments).value := by
        simp only [State.step, rule]
        rfl
      rw [stepped]
      exact .added (leaves_of_no_rule rule) (draws_draw (leaves_of_no_rule rule) arguments)
  | some hasWidth =>
      obtain ⟨width, left, decides⟩ :=
        exists_decides widths state (hasWidth arguments.length) arguments
      have stepped : (State.step widths state ⟨arguments, op⟩).value =
          { state with width? := some width }.clear left op := by
        simp only [State.step, rule, decide_width_of_decides decides]
        rfl
      rw [stepped]
      exact .cleared rule decides (clears_clear _ left (clears_stack_of_rule rule))

end Advances

def Token.isOperator (kind : Type1Op → Bool) : Token Type1Op N → Bool
  | .operator op => kind op
  | _ => false

theorem count_p_numbers (kind : Type1Op → Bool) (numbers : List N) :
    (numbers.map Token.number).countP (Token.isOperator kind) = 0 := by
  rw [List.countP_eq_zero]
  intro token member
  obtain ⟨number, -, rfl⟩ := List.mem_map.mp member
  exact Bool.false_ne_true

theorem count_p_tokens (kind : Type1Op → Bool) (commands : List (Type1Command N)) :
    (commands.flatMap Command.tokens).countP (Token.isOperator kind) =
      commands.countP fun command => kind command.op := by
  induction commands with
  | nil => rfl
  | cons command rest ih =>
      have operator : [(.operator command.op : Token Type1Op N)].countP (Token.isOperator kind) =
          if kind command.op then 1 else 0 :=
        List.countP_singleton
      rw [List.flatMap_cons, List.countP_append, ih, Command.tokens, List.countP_append,
        count_p_numbers, operator, List.countP_cons]
      omega

inductive Written (command : Command Type2Op N) : Type1Command N → Prop
  | exact {written : Type1Command N} (arguments : Exact written) (own : written.op ≠ .hsbw) :
      Written command written
  | moved {move : Type1Op} {left : List N} (moves : command.op.moveAs? = some move) :
      Written command ⟨left, move⟩
  | passedOn {same : Type1Op} (passed : command.op.passedOn? = some same) :
      Written command ⟨command.arguments, same⟩

section Written

variable {state next : State N} {command : Command Type2Op N} {written : Type1Command N}

theorem written_ne_hsbw (written' : Written command written) : written.op ≠ .hsbw := by
  cases written' with
  | exact _ own => exact own
  | moved moves =>
      rintro rfl
      cases op : command.op <;> rw [op] at moves <;> cases moves
  | passedOn passed =>
      rintro rfl
      cases op : command.op <;> rw [op] at passed <;> cases passed

theorem written_of_draws {op : Type2Op} {arguments : List N} {commands : List (Type1Command N)}
    (draws : Draws op arguments commands) (member : written ∈ commands) :
    Written ⟨arguments, op⟩ written := by
  cases draws with
  | strokes _ strokes =>
      obtain ⟨stroke, exact'⟩ := strokes written member
      refine .exact exact' ?_
      intro same
      rw [same] at stroke
      cases stroke
  | passedOn passed =>
      obtain rfl := List.mem_singleton.mp member
      exact .passedOn passed
  | leftOut => cases member

theorem operator_mem_tokens {op : Type1Op} {commands : List (Type1Command N)} :
    .operator op ∈ commands.flatMap Command.tokens ↔ ∃ command ∈ commands, command.op = op := by
  simp [Command.tokens, eq_comm]

theorem reverse_reversed_add (state : State N) (commands : List (Type1Command N)) :
    (state.add commands).reversed.reverse = state.reversed.reverse ++ commands := by
  simp [State.add]

theorem close_cases (state : State N) :
    state.close = state ∨ state.close = state.add [⟨[], .closepath⟩] := by
  simp only [State.close]
  split
  · exact .inr rfl
  · exact .inl rfl

theorem width_close (state : State N) : state.close.width? = state.width? := by
  rcases close_cases state with same | closed
  · rw [same]
  · rw [closed]
    rfl

theorem subpaths_close (state : State N) : state.close.subpaths = state.subpaths := by
  rcases close_cases state with same | closed
  · rw [same]
  · rw [closed]
    rfl

theorem mem_add {commands : List (Type1Command N)}
    (member : written ∈ (state.add commands).reversed) :
    written ∈ commands ∨ written ∈ state.reversed := by
  rcases List.mem_append.mp member with added | earlier
  · exact .inl (List.mem_reverse.mp added)
  · exact .inr earlier

theorem mem_close (member : written ∈ state.close.reversed) :
    written = ⟨[], .closepath⟩ ∨ written ∈ state.reversed := by
  rcases close_cases state with same | closed
  · rw [same] at member
    exact .inr member
  · rw [closed] at member
    exact (mem_add member).imp_left List.mem_singleton.mp

variable [Zero N]

theorem written_of_clears {op : Type2Op} {arguments left : List N}
    (clears : Clears state left op next) (member : written ∈ next.reversed) :
    Written ⟨arguments, op⟩ written ∨ written ∈ state.reversed := by
  have closed (member : written ∈ state.close.reversed) :
      Written ⟨arguments, op⟩ written ∨ written ∈ state.reversed := by
    refine (mem_close member).imp_left ?_
    rintro rfl
    exact .exact rfl nofun
  cases clears with
  | hinted _ stems =>
      refine (mem_add member).imp_left fun added => ?_
      obtain ⟨stem, exact'⟩ := stems written added
      refine .exact exact' ?_
      intro same
      rw [same] at stem
      rcases stem with stem | stem <;> cases stem
  | moved moves =>
      rcases mem_add member with added | earlier
      · obtain rfl := List.mem_singleton.mp added
        exact .inl (.moved moves)
      · exact closed earlier
  | ended =>
      rcases mem_add member with added | earlier
      · obtain ⟨exact', own⟩ := exact_ending left written added
        exact .inl (.exact exact' own)
      · exact closed earlier

theorem width_of_clears {op : Type2Op} {arguments : List N}
    (clears : Clears state arguments op next) : next.width? = state.width? := by
  cases clears with
  | hinted => rfl
  | moved => exact width_close state
  | ended => exact width_close state

theorem subpaths_of_clears {op : Type2Op} {arguments : List N}
    (clears : Clears state arguments op next) :
    state.subpaths ≤ next.subpaths ∧ (op.startsSubpath = true → 0 < next.subpaths) := by
  cases clears with
  | hinted hints =>
      refine ⟨Nat.le_refl _, fun starts => ?_⟩
      rw [still_of_hints hints] at starts
      cases starts
  | moved =>
      refine ⟨?_, fun _ => Nat.succ_pos _⟩
      change state.subpaths ≤ state.close.subpaths + 1
      rw [subpaths_close]
      exact Nat.le_succ _
  | ended => exact ⟨Nat.le_of_eq (subpaths_close state).symm, nofun⟩

variable [Add N] {widths : Widths N}

theorem width_of_advances {width : N}
    (advances : Advances widths state command next) (known : state.width? = some width) :
    next.width? = some width := by
  cases advances with
  | added => exact known
  | cleared _ decides clears =>
      rw [width_of_clears clears]
      cases decides with
      | before same => exact same.symm.trans known
      | given undecided | absent undecided =>
          rw [undecided] at known
          cases known

theorem subpaths_of_advances (advances : Advances widths state command next) :
    state.subpaths ≤ next.subpaths ∧ (command.op.startsSubpath = true → 0 < next.subpaths) := by
  cases advances with
  | added leaves =>
      refine ⟨Nat.le_refl _, fun starts => ?_⟩
      rw [still_of_leaving leaves] at starts
      cases starts
  | cleared _ _ clears =>
      have same := subpaths_of_clears clears
      exact same

theorem written_of_advances (advances : Advances widths state command next)
    (member : written ∈ next.reversed) : Written command written ∨ written ∈ state.reversed := by
  cases advances with
  | added _ draws => exact (mem_add member).imp_left (written_of_draws draws)
  | @cleared op _ arguments _ width _ _ _ clears =>
      have either : Written ⟨arguments, op⟩ written ∨
          written ∈ State.reversed { state with width? := some width } :=
        written_of_clears clears member
      exact either

variable [Neg N] [Magnitude N]

theorem written_of_run (commands : List (Command Type2Op N)) (state : State N)
    (member : written ∈ (commands.foldlM (State.step widths) state).value.reversed) :
    (∃ command ∈ commands, Written command written) ∨ written ∈ state.reversed := by
  induction commands generalizing state with
  | nil => exact .inr member
  | cons command rest ih =>
      rw [List.foldlM_cons, Report.value_bind] at member
      rcases ih _ member with ⟨later, among, written⟩ | earlier
      · exact .inl ⟨later, List.mem_cons_of_mem _ among, written⟩
      · rcases written_of_advances (advances_step widths state command) earlier with own | before
        · exact .inl ⟨command, List.mem_cons_self, own⟩
        · exact .inr before

end Written

end CompactFont
