import CompactFont.Charstring.Command
import CompactFont.Report

set_option autoImplicit false

namespace CompactFont

class Magnitude (N : Type) where
  exceeds : N → N → Bool

namespace Lowering

-- For the operators that may carry the width, whether so many arguments include one.
def widthRule? : Type2Op → Option (Nat → Bool)
  | .hstem => some fun count => count % 2 = 1
  | .hstemhm => some fun count => count % 2 = 1
  | .vstem => some fun count => count % 2 = 1
  | .vstemhm => some fun count => count % 2 = 1
  | .hintmask => some fun count => count % 2 = 1
  | .cntrmask => some fun count => count % 2 = 1
  | .hmoveto => some fun count => 1 < count
  | .vmoveto => some fun count => 1 < count
  | .rmoveto => some fun count => 2 < count
  | .endchar => some fun count => count = 1 ∨ count = 5
  | _ => none

structure Widths (N : Type) where
  default : N
  nominal : N

abbrev Type1Command (N : Type) := Command Type1Op N

variable {N : Type} [Zero N] [Add N] [Neg N] [Magnitude N]

def stems (op : Type1Op) : N → List N → List (Type1Command N)
  | lastEnd, distance :: width :: rest =>
      let position := lastEnd + distance
      ⟨[position, width], op⟩ :: stems op (position + width) rest
  | _, _ => []

omit [Zero N] [Neg N] [Magnitude N] in
theorem stems_op (op : Type1Op) (lastEnd : N) (arguments : List N) :
    ∀ command ∈ stems op lastEnd arguments, command.op = op := by
  fun_induction stems op lastEnd arguments with
  | case1 lastEnd distance width rest position ih =>
      intro command member
      rcases List.mem_cons.mp member with rfl | later
      · rfl
      · exact ih command later
  | case2 =>
      intro command member
      cases member

omit [Zero N] [Neg N] [Magnitude N] in
theorem length_stems (op : Type1Op) (lastEnd : N) (arguments : List N) :
    (stems op lastEnd arguments).length = arguments.length / 2 := by
  fun_induction stems op lastEnd arguments with
  | case1 lastEnd distance width rest position ih =>
      rw [List.length_cons, ih, List.length_cons, List.length_cons]
      omega
  | case2 arguments _ short =>
      match arguments, short with
      | [], _ => exact Nat.zero_div 2 |>.symm
      | [argument], _ => exact (Nat.div_eq_of_lt Nat.one_lt_two).symm
      | distance :: width :: rest, short => exact absurd rfl (short distance width rest)

def lines : List N → List (Type1Command N)
  | dx :: dy :: rest => ⟨[dx, dy], .rlineto⟩ :: lines rest
  | _ => []

def alternatingLines : Bool → List N → List (Type1Command N)
  | _, [] => []
  | horizontal, delta :: rest =>
      ⟨[delta], if horizontal then .hlineto else .vlineto⟩ :: alternatingLines (!horizontal) rest

def curve (arguments : List N) : Type1Command N := ⟨arguments, .rrcurveto⟩

def curves : List N → List (Type1Command N)
  | dx₁ :: dy₁ :: dx₂ :: dy₂ :: dx₃ :: dy₃ :: rest =>
      curve [dx₁, dy₁, dx₂, dy₂, dx₃, dy₃] :: curves rest
  | _ => []

def quarterCurve (horizontal : Bool) (start dx dy finish cross : N) : Type1Command N :=
  curve (if horizontal then [start, 0, dx, dy, cross, finish] else [0, start, dx, dy, finish, cross])

def alternatingCurves : Bool → List N → List (Type1Command N)
  | horizontal, [start, dx, dy, finish, cross] => [quarterCurve horizontal start dx dy finish cross]
  | horizontal, start :: dx :: dy :: finish :: rest =>
      quarterCurve horizontal start dx dy finish 0 :: alternatingCurves (!horizontal) rest
  | _, _ => []

def parallelCurves (horizontal : Bool) : N → List N → List (Type1Command N)
  | cross, start :: dx :: dy :: finish :: rest =>
      curve (if horizontal then [start, cross, dx, dy, finish, 0] else [cross, start, dx, dy, 0, finish])
        :: parallelCurves horizontal 0 rest
  | _, _ => []

def parallel (horizontal : Bool) : List N → List (Type1Command N)
  | cross :: rest =>
      if rest.length % 4 = 0 then parallelCurves horizontal cross rest
      else parallelCurves horizontal 0 (cross :: rest)
  | [] => []

def flex? : Type2Op → List N → Option (List (Type1Command N))
  | .hflex, dx₁ :: dx₂ :: dy₂ :: dx₃ :: dx₄ :: dx₅ :: dx₆ :: _ =>
      some [curve [dx₁, 0, dx₂, dy₂, dx₃, 0], curve [dx₄, 0, dx₅, -dy₂, dx₆, 0]]
  | .flex, dx₁ :: dy₁ :: dx₂ :: dy₂ :: dx₃ :: dy₃ ::
      dx₄ :: dy₄ :: dx₅ :: dy₅ :: dx₆ :: dy₆ :: _ =>
      some [curve [dx₁, dy₁, dx₂, dy₂, dx₃, dy₃], curve [dx₄, dy₄, dx₅, dy₅, dx₆, dy₆]]
  | .hflex1, dx₁ :: dy₁ :: dx₂ :: dy₂ :: dx₃ :: dx₄ :: dx₅ :: dy₅ :: dx₆ :: _ =>
      some [curve [dx₁, dy₁, dx₂, dy₂, dx₃, 0], curve [dx₄, 0, dx₅, dy₅, dx₆, -(dy₁ + dy₂ + dy₅)]]
  | .flex1, dx₁ :: dy₁ :: dx₂ :: dy₂ :: dx₃ :: dy₃ :: dx₄ :: dy₄ :: dx₅ :: dy₅ :: last :: _ =>
      let dx := dx₁ + dx₂ + dx₃ + dx₄ + dx₅
      let dy := dy₁ + dy₂ + dy₃ + dy₄ + dy₅
      let finish := if Magnitude.exceeds dx dy then [last, -dy] else [-dx, last]
      some [curve [dx₁, dy₁, dx₂, dy₂, dx₃, dy₃], curve ([dx₄, dy₄, dx₅, dy₅] ++ finish)]
  | _, _ => none

def tooFew (op : Type2Op) (arguments : List N) : Report (List (Type1Command N)) := do
  Report.note (.tooFewArguments op arguments.length)
  pure []

def keep (op : Type2Op) (arguments : List N) : Report (List (Type1Command N)) :=
  match Type1Op.ofKey? op.key with
  | some same => pure [⟨arguments, same⟩]
  | none => do
      Report.note (.droppedOperator op)
      pure []

def draw (op : Type2Op) (arguments : List N) : Report (List (Type1Command N)) :=
  match op with
  | .rlineto => pure (lines arguments)
  | .hlineto => pure (alternatingLines true arguments)
  | .vlineto => pure (alternatingLines false arguments)
  | .rrcurveto => pure (curves arguments)
  | .hvcurveto => pure (alternatingCurves true arguments)
  | .vhcurveto => pure (alternatingCurves false arguments)
  | .hhcurveto => pure (parallel true arguments)
  | .vvcurveto => pure (parallel false arguments)
  | .rcurveline =>
      let curvesEnd := arguments.length - 2
      if arguments.length < 2 then tooFew op arguments
      else pure (curves (arguments.take curvesEnd) ++ [⟨arguments.drop curvesEnd, .rlineto⟩])
  | .rlinecurve =>
      let linesEnd := arguments.length - 6
      if arguments.length < 6 then tooFew op arguments
      else pure (lines (arguments.take linesEnd) ++ [curve (arguments.drop linesEnd)])
  | .hflex => (flex? op arguments).elim (tooFew op arguments) pure
  | .flex => (flex? op arguments).elim (tooFew op arguments) pure
  | .hflex1 => (flex? op arguments).elim (tooFew op arguments) pure
  | .flex1 => (flex? op arguments).elim (tooFew op arguments) pure
  | .callgsubr => do
      Report.note .droppedGlobalCall
      pure []
  | _ => keep op arguments

structure State (N : Type) where
  width? : Option N
  subpaths : Nat
  reversed : List (Type1Command N)

namespace State

def start : State N := ⟨none, 0, []⟩

def add (state : State N) (commands : List (Type1Command N)) : State N :=
  { state with reversed := commands.reverse ++ state.reversed }

def close (state : State N) : State N :=
  let closed := (state.reversed.head?.map Command.op) = some .closepath
  if 0 < state.subpaths ∧ ¬ closed then state.add [⟨[], .closepath⟩] else state

def move (state : State N) (command : Type1Command N) : State N :=
  let ended := state.close
  { ended with subpaths := ended.subpaths + 1 }.add [command]

-- Lets the first operator that may carry the width decide it: the state, and the arguments
-- without the width.
def decideWidth (state : State N) (widths : Widths N) (given : Bool) (arguments : List N) :
    State N × List N :=
  match state.width?, arguments with
  | some _, _ => (state, arguments)
  | none, delta :: rest =>
      if given then ({ state with width? := some (delta + widths.nominal) }, rest)
      else ({ state with width? := some widths.default }, arguments)
  | none, [] => ({ state with width? := some widths.default }, arguments)

def clear (state : State N) (arguments : List N) : Type2Op → State N
  | .hstem => state.add (stems .hstem 0 arguments)
  | .hstemhm => state.add (stems .hstem 0 arguments)
  | .vstem => state.add (stems .vstem 0 arguments)
  | .vstemhm => state.add (stems .vstem 0 arguments)
  | .hintmask => state.add (stems .vstem 0 arguments)
  | .cntrmask => state.add (stems .vstem 0 arguments)
  | .hmoveto => state.move ⟨arguments, .hmoveto⟩
  | .vmoveto => state.move ⟨arguments, .vmoveto⟩
  | .rmoveto => state.move ⟨arguments, .rmoveto⟩
  | .endchar =>
      let accented : List (Type1Command N) :=
        if arguments.length = 4 then [⟨0 :: arguments, .seac⟩] else []
      state.close.add (accented ++ [⟨[], .endchar⟩])
  | _ => state

def step (widths : Widths N) (state : State N) (command : Command Type2Op N) : Report (State N) :=
  match widthRule? command.op with
  | some hasWidth =>
      let (state, arguments) :=
        state.decideWidth widths (hasWidth command.arguments.length) command.arguments
      pure (state.clear arguments command.op)
  | none => state.add <$> draw command.op command.arguments

def commands (state : State N) : List (Type1Command N) :=
  (state.width?.map fun width => (⟨[0, width], .hsbw⟩ : Type1Command N)).toList ++
    state.reversed.reverse

end State

def lower (widths : Widths N) (tokens : List (Token Type2Op N)) :
    Report (List (Token Type1Op N)) := do
  let state ← (Command.group tokens).foldlM (State.step widths) State.start
  pure (state.commands.flatMap Command.tokens)

end Lowering

instance : Magnitude Float where
  exceeds a b := b.abs < a.abs

end CompactFont
