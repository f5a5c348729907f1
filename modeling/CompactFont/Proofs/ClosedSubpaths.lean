import CompactFont.Proofs.Quotients
import CompactFont.Proofs.Subpaths
import CompactFont.Proofs.WidthFirst

set_option autoImplicit false

namespace CompactFont

open Lowering

variable {N C : Type}

def Type1Op.isStill : Type1Op → Bool
  | .hsbw | .hstem | .vstem | .callsubr | .subrReturn | .dotsection | .div => true
  | _ => false

namespace Path

-- A path, the latest command first, whose subpaths are all closed, or all but an open one at its end.
inductive ClosedUpTo : Bool → Path C → Prop
  | nil : ClosedUpTo false []
  | move {path : Path C} (target : Point C) (closed : ClosedUpTo false path) :
      ClosedUpTo true (.move target :: path)
  | stroke {path : Path C} (stroke : Stroke C) (opened : ClosedUpTo true path) :
      ClosedUpTo true (stroke.command :: path)
  | close {path : Path C} (opened : ClosedUpTo true path) : ClosedUpTo false (.close :: path)

-- By induction on the commands. Each one starts, continues or ends the subpath at the end.
theorem subpaths_of_closed_up_to {isOpen : Bool} {path : Path C} (closed : ClosedUpTo isOpen path) :
    ∃ subpaths : List (Subpath C), (∀ subpath ∈ subpaths, subpath.closed = true) ∧
      if isOpen then
        ∃ start strokes, path.reverse =
          subpaths.flatMap Subpath.commands ++ Subpath.commands ⟨start, strokes, false⟩
      else path.reverse = subpaths.flatMap Subpath.commands := by
  induction closed with
  | nil => exact ⟨[], nofun, rfl⟩
  | move target _ ih =>
      obtain ⟨subpaths, all, same⟩ := ih
      have before : List.reverse _ = subpaths.flatMap Subpath.commands := same
      exact ⟨subpaths, all, target, [], by rw [List.reverse_cons, before]; rfl⟩
  | stroke stroke _ ih =>
      obtain ⟨subpaths, all, start, strokes, same⟩ := ih
      refine ⟨subpaths, all, start, strokes ++ [stroke], ?_⟩
      rw [List.reverse_cons, same, List.append_assoc]
      simp [Subpath.commands, Subpath.rest]
  | close _ ih =>
      obtain ⟨subpaths, all, start, strokes, same⟩ := ih
      refine ⟨subpaths ++ [⟨start, strokes, true⟩], ?_, ?_⟩
      · exact List.forall_mem_append.mpr ⟨all, List.forall_mem_singleton.mpr rfl⟩
      · have split : List.reverse _ = subpaths.flatMap Subpath.commands ++
            Subpath.commands ⟨start, strokes, false⟩ := same
        simp [split, Subpath.commands, Subpath.rest]

end Path

namespace Pen

structure Steady (pen : Pen C) : Prop where
  drawing : pen.ended = false
  plain : pen.flex? = none
  closed : Path.ClosedUpTo pen.isOpen pen.reversed

theorem steady_ensure_open {pen : Pen C} (steady : pen.Steady) (glyph : Nat) :
    (pen.ensureOpen glyph).value.Steady ∧ (pen.ensureOpen glyph).value.isOpen = true := by
  rw [value_ensure_open]
  by_cases opened : pen.isOpen = true
  · rw [if_pos opened]
    exact ⟨steady, opened⟩
  · rw [if_neg opened]
    have closed := steady.closed
    rw [Bool.eq_false_iff.mpr opened] at closed
    exact ⟨⟨steady.drawing, steady.plain, .move _ closed⟩, rfl⟩

theorem steady_close {pen : Pen C} (steady : pen.Steady) (glyph : Nat) :
    (pen.close glyph).value.Steady ∧ (pen.close glyph).value.isOpen = false := by
  unfold close
  by_cases opened : pen.isOpen = true
  · rw [if_pos opened]
    have closed := steady.closed
    rw [opened] at closed
    exact ⟨⟨steady.drawing, steady.plain, .close closed⟩, rfl⟩
  · rw [if_neg opened]
    exact ⟨steady, Bool.eq_false_iff.mpr opened⟩

theorem steady_stroke {pen : Pen C} (steady : pen.Steady) (opened : pen.isOpen = true)
    (stroke : Stroke C) (current : Point C) :
    Steady ({ pen with current }.add stroke.command) := by
  have path := steady.closed
  rw [opened] at path
  refine ⟨steady.drawing, steady.plain, ?_⟩
  change Path.ClosedUpTo pen.isOpen (stroke.command :: pen.reversed)
  rw [opened]
  exact .stroke stroke path

variable [Coordinate C]

theorem steady_start : (start : Pen C).Steady := ⟨rfl, rfl, .nil⟩

theorem steady_move_by {pen : Pen C} (steady : pen.Steady) (closed : pen.isOpen = false)
    (delta : Point C) : (pen.moveBy delta).Steady := by
  have path := steady.closed
  rw [closed] at path
  unfold moveBy
  split
  · rename_i points flex
    rw [steady.plain] at flex
    cases flex
  · exact ⟨steady.drawing, steady.plain, .move _ path⟩

theorem steady_line_by {pen : Pen C} (steady : pen.Steady) (glyph : Nat) (delta : Point C) :
    (pen.lineBy glyph delta).value.Steady := by
  obtain ⟨ready, opened⟩ := steady_ensure_open steady glyph
  exact steady_stroke ready opened (.line _) _

theorem steady_curve_by {pen : Pen C} (steady : pen.Steady) (glyph : Nat)
    (delta₁ delta₂ delta₃ : Point C) :
    (pen.curveBy glyph delta₁ delta₂ delta₃).value.Steady := by
  obtain ⟨ready, opened⟩ := steady_ensure_open steady glyph
  exact steady_stroke ready opened (.curve _ _ _) _

section Operate

variable (setting : Setting C) {pen : Pen C} (steady : pen.Steady) {op : Type1Op}
  (arguments : List C)

include steady

theorem steady_draws (draws : op.drawsStroke = true) :
    (pen.operate setting op arguments).value.Steady := by
  fun_cases pen.operate setting op arguments with
  | case4 | case5 | case6 => exact steady_line_by steady _ _
  | case7 => exact steady_curve_by steady _ _ _ _
  | case26 => exact steady
  | _ => cases draws

theorem steady_moves (moves : op.startsSubpath = true) (closed : pen.isOpen = false) :
    (pen.operate setting op arguments).value.Steady := by
  fun_cases pen.operate setting op arguments with
  | case1 | case2 | case3 => exact steady_move_by steady closed _
  | case26 => exact steady
  | _ => cases moves

theorem steady_still (still : op.isStill = true) :
    (pen.operate setting op arguments).value.Steady ∧
      (pen.operate setting op arguments).value.isOpen = pen.isOpen := by
  fun_cases pen.operate setting op arguments with
  | case11 | case14 | case15 => exact ⟨⟨steady.drawing, steady.plain, steady.closed⟩, rfl⟩
  | case20 | case22 | case23 | case25 | case26 => exact ⟨steady, rfl⟩
  | _ => cases still

end Operate

end Pen

section Pairs

variable [Coordinate C] (setting : Setting C) (convert : N → C)

-- What the pen has open, lowering is going to close.
structure Pairs (state : State N) (pen : Pen C) : Prop where
  steady : pen.Steady
  closes : pen.isOpen = true →
    0 < state.subpaths ∧ state.reversed.head?.map Command.op ≠ some .closepath

theorem pen_performed (command : Type1Command N) (waiting : Pen.Waiting C)
    (drawing : waiting.pen.ended = false) :
    ∃ arguments, (performed setting convert [command] waiting).value.pen =
      if command.op = .div then waiting.pen
      else (waiting.pen.operate setting command.op arguments).value := by
  obtain ⟨numbers, op⟩ := command
  have running : ¬ waiting.pen.ended = true := by simp [drawing]
  have split := performed_numbers setting convert numbers [] op waiting
  rw [List.append_nil, awaited, if_neg running] at split
  rw [split]
  refine ⟨((numbers.map convert).reverse ++ waiting.numbers).reverse, ?_⟩
  have alone : performed setting convert [⟨[], op⟩]
      { waiting with numbers := (numbers.map convert).reverse ++ waiting.numbers } =
        Pen.step setting { waiting with numbers := (numbers.map convert).reverse ++ waiting.numbers }
          (.operator op) :=
    bind_pure _
  rw [alone]
  by_cases divides : op = .div
  · subst divides
    rw [if_pos rfl]
    unfold Pen.step
    rw [if_neg running]
    rfl
  · rw [if_neg divides, step_operator setting waiting.pen drawing _ op divides]
    rfl

variable {setting convert}

theorem pairs_performed {state : State N} {waiting : Pen.Waiting C} (pairs : Pairs state waiting.pen)
    {command : Type1Command N}
    (fits : command.op.isStill = true ∨ command.op.drawsStroke = true ∧ 0 < state.subpaths) :
    Pairs (state.add [command]) (performed setting convert [command] waiting).value.pen := by
  obtain ⟨arguments, after⟩ := pen_performed setting convert command waiting pairs.steady.drawing
  have last : command.op ≠ .closepath := by
    intro closes
    rw [closes] at fits
    rcases fits with still | ⟨draws, -⟩
    · cases still
    · cases draws
  have unclosed : (state.add [command]).reversed.head?.map Command.op ≠ some .closepath :=
    fun same => last (Option.some.inj same)
  rw [after]
  split
  · exact ⟨pairs.steady, fun opened => ⟨(pairs.closes opened).1, unclosed⟩⟩
  · rcases fits with still | ⟨draws, started⟩
    · obtain ⟨steady, same⟩ := Pen.steady_still setting pairs.steady arguments still
      refine ⟨steady, fun opened => ⟨?_, unclosed⟩⟩
      rw [same] at opened
      exact (pairs.closes opened).1
    · exact ⟨Pen.steady_draws setting pairs.steady arguments draws, fun _ => ⟨started, unclosed⟩⟩

theorem fits_of_draws {op : Type2Op} {arguments : List N} {commands : List (Type1Command N)}
    (draws : Draws op arguments commands) :
    ∀ command ∈ commands,
      command.op.isStill = true ∨ command.op.drawsStroke = true ∧ op.draws = true := by
  cases draws with
  | strokes draws strokes => exact fun command member => .inr ⟨(strokes command member).1, draws⟩
  | passedOn passed =>
      refine List.forall_mem_singleton.mpr (.inl ?_)
      cases op <;> cases passed <;> rfl
  | leftOut => exact List.forall_mem_nil _

def Continues (setting : Setting C) (convert : N → C) (state next : State N) : Prop :=
  ∃ commands, next.reversed.reverse = state.reversed.reverse ++ commands ∧
    ∀ waiting : Pen.Waiting C, Pairs state waiting.pen →
      Pairs next (performed setting convert commands waiting).value.pen

theorem continues_add {state : State N} {commands : List (Type1Command N)}
    (fits : ∀ command ∈ commands,
      command.op.isStill = true ∨ command.op.drawsStroke = true ∧ 0 < state.subpaths) :
    Continues setting convert state (state.add commands) := by
  refine ⟨commands, reverse_reversed_add state commands, fun waiting pairs => ?_⟩
  induction commands generalizing state waiting with
  | nil => exact pairs
  | cons command rest ih =>
      obtain ⟨first, others⟩ := List.forall_mem_cons.mp fits
      have split : state.add (command :: rest) = (state.add [command]).add rest := by
        simp [State.add]
      have parts := performed_append setting convert [command] rest waiting
      rw [List.singleton_append] at parts
      rw [split, parts, Report.value_bind]
      have later : ∀ command ∈ rest, command.op.isStill = true ∨
          command.op.drawsStroke = true ∧ 0 < (state.add [command]).subpaths := others
      exact @ih (state.add [command]) later _ (pairs_performed pairs first)

theorem closed_of_close (setting : Setting C) (convert : N → C) (state : State N) :
    ∃ commands, state.close.reversed.reverse = state.reversed.reverse ++ commands ∧
      ∀ waiting : Pen.Waiting C, Pairs state waiting.pen →
        (performed setting convert commands waiting).value.pen.Steady ∧
          (performed setting convert commands waiting).value.pen.isOpen = false := by
  simp only [State.close]
  split
  · refine ⟨[⟨[], .closepath⟩], reverse_reversed_add _ _, fun waiting pairs => ?_⟩
    obtain ⟨arguments, after⟩ :=
      pen_performed setting convert ⟨[], .closepath⟩ waiting pairs.steady.drawing
    have plain : Type1Op.closepath ≠ .div := by decide
    rw [after, if_neg plain]
    exact Pen.steady_close pairs.steady setting.glyph
  · rename_i idle
    refine ⟨[], (List.append_nil _).symm, fun waiting pairs => ⟨pairs.steady, ?_⟩⟩
    exact Bool.eq_false_iff.mpr fun opened => idle (pairs.closes opened)

theorem continues_move (state : State N) {move : Type1Op} (moves : move.startsSubpath = true)
    (arguments : List N) : Continues setting convert state (state.move ⟨arguments, move⟩) := by
  obtain ⟨closing, split, closes⟩ := closed_of_close setting convert state
  refine ⟨closing ++ [⟨arguments, move⟩], ?_, fun waiting pairs => ?_⟩
  · rw [State.move, reverse_reversed_add, ← List.append_assoc, ← split]
  · obtain ⟨steady, closed⟩ := closes waiting pairs
    obtain ⟨operands, after⟩ :=
      pen_performed setting convert ⟨arguments, move⟩ _ steady.drawing
    have plain : move ≠ .div ∧ move ≠ .closepath := by
      constructor <;> rintro rfl <;> cases moves
    rw [performed_append, Report.value_bind, after, if_neg plain.1]
    refine ⟨Pen.steady_moves setting steady operands moves closed, fun _ => ⟨Nat.succ_pos _, ?_⟩⟩
    exact fun same => plain.2 (Option.some.inj same)

variable [Zero N]

theorem continues_clears {state next : State N} {op : Type2Op} {arguments : List N}
    (clears : Clears state arguments op next) (goesOn : op ≠ .endchar) :
    Continues setting convert state next := by
  cases clears with
  | hinted _ stems =>
      refine continues_add fun command member => .inl ?_
      rcases (stems command member).1 with stem | stem <;> rw [stem] <;> rfl
  | moved moves => exact continues_move state (starts_subpath_of_move_as moves).1 arguments
  | ended => exact absurd rfl goesOn

variable [Add N] {widths : Widths N}

theorem continues_advances {state next : State N} {command : Command Type2Op N}
    (advances : Advances widths state command next) (goesOn : command.op ≠ .endchar)
    (started : command.op.draws = true → 0 < state.subpaths) :
    Continues setting convert state next := by
  cases advances with
  | added _ draws =>
      refine continues_add fun written member => ?_
      exact (fits_of_draws draws written member).imp_right fun ⟨stroke, draws⟩ =>
        ⟨stroke, started draws⟩
  | @cleared _ _ _ _ width _ _ _ clears =>
      have decided : Continues setting convert { state with width? := some width } next :=
        continues_clears clears goesOn
      obtain ⟨commands, split, keeps⟩ := decided
      exact ⟨commands, split, fun waiting pairs => keeps waiting ⟨pairs.steady, pairs.closes⟩⟩

end Pairs

section Closed

def EndsAccented (body : List (Token Type2Op N)) : Prop :=
  (waitingAfter [] body).length = 4 ∨ (waitingAfter [] body).length = 5 ∧
    ∀ op, .operator op ∈ body → op.clearsStack = false

def MovesFirst (body : List (Token Type2Op N)) : Prop :=
  ∀ before op after, body = before ++ .operator op :: after → op.draws = true →
    ∃ move, move.startsSubpath = true ∧ .operator move ∈ before

theorem moves_first_init {body : List (Token Type2Op N)} {token : Token Type2Op N}
    (moved : MovesFirst (body ++ [token])) : MovesFirst body := by
  rintro before op after rfl
  exact moved before op (after ++ [token]) (List.append_assoc ..)

variable [Coordinate C] {setting : Setting C} {convert : N → C}

def Drawable (setting : Setting C) (convert : N → C) (state : State N) : Prop :=
  ∀ waiting : Pen.Waiting C, waiting.pen.Steady → waiting.pen.isOpen = false →
    Pairs state (performed setting convert state.reversed.reverse waiting).value.pen

theorem drawable_start : Drawable setting convert (State.start : State N) := by
  intro waiting steady closed
  refine ⟨steady, fun opened => ?_⟩
  have still : waiting.pen.isOpen = true := opened
  rw [closed] at still
  cases still

theorem drawable_continues {state next : State N} (drawable : Drawable setting convert state)
    (continues : Continues setting convert state next) : Drawable setting convert next := by
  obtain ⟨commands, split, keeps⟩ := continues
  intro waiting steady closed
  rw [split, performed_append, Report.value_bind]
  exact keeps _ (drawable waiting steady closed)

variable [Zero N]

theorem steady_opening (setting : Setting C) (convert : N → C) (width? : Option N) :
    (performed setting convert
        (width?.map fun width => (⟨[0, width], .hsbw⟩ : Type1Command N)).toList
        ⟨Pen.start, []⟩).value.pen.Steady ∧
      (performed setting convert
        (width?.map fun width => (⟨[0, width], .hsbw⟩ : Type1Command N)).toList
        ⟨Pen.start, []⟩).value.pen.isOpen = false := by
  cases width? with
  | none => exact ⟨Pen.steady_start, rfl⟩
  | some width =>
      have single : (some width).map (fun width => (⟨[0, width], .hsbw⟩ : Type1Command N)) =
          some ⟨[0, width], .hsbw⟩ := rfl
      obtain ⟨arguments, after⟩ := pen_performed setting convert
        (⟨[0, width], .hsbw⟩ : Type1Command N) ⟨Pen.start, []⟩ rfl
      have plain : Type1Op.hsbw ≠ .div := by decide
      rw [single, Option.toList_some, after, if_neg plain]
      exact Pen.steady_still setting Pen.steady_start arguments rfl

theorem closed_of_ending {state : State N} (drawable : Drawable setting convert state) :
    Path.ClosedUpTo false
      (penAfter setting convert (state.close.add [⟨[], .endchar⟩])).reversed := by
  obtain ⟨closing, split, closes⟩ := closed_of_close setting convert state
  have width : (state.close.add [⟨[], .endchar⟩]).width? = state.width? := width_close state
  rw [penAfter, State.commands, width, reverse_reversed_add, split, performed_append,
    Report.value_bind, performed_append, Report.value_bind, performed_append, Report.value_bind]
  obtain ⟨steady, closed⟩ := steady_opening setting convert state.width?
  obtain ⟨settled, nothing⟩ := closes _ (drawable _ steady closed)
  obtain ⟨operands, after⟩ := pen_performed setting convert ⟨[], .endchar⟩ _ settled.drawing
  have plain : Type1Op.endchar ≠ .div := by decide
  rw [after, if_neg plain]
  have path := settled.closed
  rw [nothing] at path
  exact path

variable [Add N] [Neg N] [Magnitude N] (widths : Widths N)

theorem state_after_operator (body : List (Token Type2Op N)) (op : Type2Op) :
    stateAfter widths (body ++ [.operator op]) =
      (State.step widths (stateAfter widths body) ⟨(waitingAfter [] body).reverse, op⟩).value := by
  rw [state_after_append]
  rfl

-- By induction on the tokens from the first on. The count of subpaths is what the first move leaves behind
-- for the operators that draw.
theorem drawable_state_after {body : List (Token Type2Op N)} (goesOn : .operator .endchar ∉ body)
    (moved : MovesFirst body) :
    Drawable setting convert (stateAfter widths body) ∧
      ((∃ move, move.startsSubpath = true ∧ .operator move ∈ body) →
        0 < (stateAfter widths body).subpaths) := by
  induction body using List.reverseRecOn with
  | nil => exact ⟨drawable_start, fun ⟨_, _, member⟩ => nomatch member⟩
  | append_singleton body token ih =>
      obtain ⟨drawable, started⟩ := ih (fun member => goesOn (List.mem_append_left _ member))
        (moves_first_init moved)
      have idle (plain : ∀ op, token ≠ .operator op)
          (same : stateAfter widths (body ++ [token]) = stateAfter widths body) :
          Drawable setting convert (stateAfter widths (body ++ [token])) ∧
            ((∃ move, move.startsSubpath = true ∧ .operator move ∈ body ++ [token]) →
              0 < (stateAfter widths (body ++ [token])).subpaths) := by
        rw [same]
        refine ⟨drawable, fun ⟨move, starts, member⟩ => started ⟨move, starts, ?_⟩⟩
        refine (List.mem_append.mp member).resolve_right fun last => ?_
        exact plain move (List.mem_singleton.mp last).symm
      cases token with
      | number value => exact idle nofun (by rw [state_after_append]; rfl)
      | mask bytes => exact idle nofun (by rw [state_after_append]; rfl)
      | operator op =>
          have advances := advances_step widths (stateAfter widths body)
            ⟨(waitingAfter [] body).reverse, op⟩
          obtain ⟨more, starts⟩ := subpaths_of_advances advances
          rw [state_after_operator]
          constructor
          · refine drawable_continues drawable (continues_advances advances ?_ fun draws => ?_)
            · rintro rfl
              exact goesOn (List.mem_append_right _ List.mem_cons_self)
            · exact started (moved body op [] rfl draws)
          · rintro ⟨move, moves, member⟩
            rcases List.mem_append.mp member with earlier | last
            · exact Nat.lt_of_lt_of_le (started ⟨move, moves, earlier⟩) more
            · obtain rfl := Token.operator.inj (List.mem_singleton.mp last)
              exact starts moves

variable {widths}

theorem not_four_of_decides {body : List (Token Type2Op N)} (plain : ¬ EndsAccented body)
    {width : N} {left : List N}
    (decides : Decides widths (stateAfter widths body)
      ((waitingAfter [] body).reverse.length = 1 ∨ (waitingAfter [] body).reverse.length = 5)
      (waitingAfter [] body).reverse width left) :
    left.length ≠ 4 := by
  have none (undecided : (stateAfter widths body).width? = none) (op : Type2Op)
      (member : .operator op ∈ body) : op.clearsStack = false := by
    refine Bool.eq_false_iff.mpr fun clears => ?_
    obtain ⟨_, _, _, _, width, first⟩ := exists_decides_first widths ⟨op, clears, member⟩
    have known : (stateAfter widths body).width? = some width := by
      rw [stateAfter, run_decides_first first]
      exact width_run _ rfl
    rw [undecided] at known
    cases known
  intro four
  generalize shape : (waitingAfter [] body).reverse = arguments at decides
  have count : (waitingAfter [] body).length = arguments.length := by
    rw [← shape, List.length_reverse]
  cases decides with
  | before | absent => exact plain (.inl (count.trans four))
  | given undecided =>
      refine plain (.inr ⟨?_, none undecided⟩)
      rw [count, List.length_cons, four]

theorem closed_at_end {body : List (Token Type2Op N)} (plain : ¬ EndsAccented body)
    (drawable : Drawable setting convert (stateAfter widths body)) :
    Path.ClosedUpTo false
      (penAfter setting convert (stateAfter widths (body ++ [.operator .endchar]))).reversed := by
  have advances := advances_step widths (stateAfter widths body)
    ⟨(waitingAfter [] body).reverse, .endchar⟩
  rw [← state_after_operator] at advances
  generalize stateAfter widths (body ++ [.operator .endchar]) = next at advances
  cases advances with
  | added leaves => cases leaves
  | @cleared _ _ _ left width _ rule decides clears =>
      cases rule
      cases clears with
      | hinted hints => rcases hints with hints | hints <;> cases hints
      | moved moves => cases moves
      | ended =>
          have last : ending left = [⟨[], .endchar⟩] := by
            rw [ending, if_neg (not_four_of_decides plain decides), List.nil_append]
          have decided : Drawable setting convert
              { stateAfter widths body with width? := some width } := by
            intro waiting steady closed
            obtain ⟨ready, closes⟩ := drawable waiting steady closed
            exact ⟨ready, closes⟩
          rw [last]
          exact closed_of_ending decided

theorem subpaths_are_closed_once (setting : Setting C) (convert : N → C) (widths : Widths N)
    [LT C] [DecidableRel (fun a b : C => a < b)] (body : List (Token Type2Op N))
    (goesOn : .operator .endchar ∉ body) (moved : MovesFirst body) (plain : ¬ EndsAccented body) :
    ∃ subpaths : List (Subpath C),
      (drawn setting convert widths (body ++ [.operator .endchar])).value.path =
          subpaths.flatMap Subpath.commands ∧
        ∀ subpath ∈ subpaths, subpath.closed = true := by
  have drawable : Drawable setting convert (stateAfter widths body) :=
    (drawable_state_after widths goesOn moved).1
  obtain ⟨subpaths, closed, path⟩ := Path.subpaths_of_closed_up_to (closed_at_end plain drawable)
  exact ⟨subpaths, path, closed⟩

end Closed

-- The second move has too few arguments, so that only lowering takes it for one.
def halfMoved : List (Token Type2Op Float) :=
  [.number 3, .operator .hmoveto, .number 1, .number 2, .operator .rlineto, .number 4,
    .operator .rmoveto, .operator .add, .number 5, .operator .hlineto]

theorem half_moved_closes_twice :
    (drawn ⟨0, none⟩ single ⟨0, 0⟩ (halfMoved ++ [.operator .endchar])).value.path =
        [.move ⟨3, 0⟩, .line ⟨4, 2⟩, .close, .move ⟨4, 2⟩, .line ⟨9, 2⟩, .close] ∧
      ∃ subpaths : List (Subpath Float32),
        (drawn ⟨0, none⟩ single ⟨0, 0⟩ (halfMoved ++ [.operator .endchar])).value.path =
            subpaths.flatMap Subpath.commands ∧
          ∀ subpath ∈ subpaths, subpath.closed = true := by
  have goesOn : .operator .endchar ∉ halfMoved := by simp [halfMoved]
  have moved : MovesFirst halfMoved := by
    rintro (_ | ⟨first, _ | ⟨second, before⟩⟩) op after split draws
    · cases split
    · cases split
      cases draws
    · obtain ⟨-, onward⟩ := List.cons.inj split
      obtain ⟨rfl, -⟩ := List.cons.inj onward
      exact ⟨.hmoveto, rfl, by simp⟩
  have plain : ¬ EndsAccented halfMoved := by
    rintro (four | ⟨five, -⟩)
    · cases four
    · cases five
  refine ⟨by decide +kernel, ?_⟩
  exact subpaths_are_closed_once ⟨0, none⟩ single ⟨0, 0⟩ halfMoved goesOn moved plain

end CompactFont
