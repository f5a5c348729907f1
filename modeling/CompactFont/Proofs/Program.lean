import CompactFont.Charstring.Lowering
import CompactFont.Outline.Pen
import Mathlib.Algebra.Group.Hom.Defs

set_option autoImplicit false

namespace CompactFont

namespace Point

variable {N C : Type}

def map (f : N → C) (point : Point N) : Point C := ⟨f point.x, f point.y⟩

def coordinates (point : Point N) : List N := [point.x, point.y]

def oriented (horizontal : Bool) (main cross : N) : Point N :=
  if horizontal then ⟨main, cross⟩ else ⟨cross, main⟩

end Point

namespace Type2

structure Bend (N : Type) where
  first : Point N
  second : Point N
  third : Point N

structure Quarter (N : Type) where
  start : N
  middle : Point N
  finish : N

inductive Segment (N : Type) where
  | line (delta : Point N)
  | curve (bend : Bend N)

-- An operator that draws, with its arguments. The argument `cross?` belongs to one curve only and
-- takes its first or last vector off the axis.
inductive Figure (N : Type) where
  | lines (deltas : List (Point N))
  | alternatingLines (horizontal : Bool) (deltas : List N)
  | curves (bends : List (Bend N))
  | parallelCurves (horizontal : Bool) (cross? : Option N) (quarters : List (Quarter N))
  | alternatingCurves (horizontal : Bool) (quarters : List (Quarter N)) (cross? : Option N)
  | curvesThenLine (bends : List (Bend N)) (delta : Point N)
  | linesThenCurve (deltas : List (Point N)) (bend : Bend N)
  | flex (first second : Bend N) (depth : N)
  | hflex (dx₁ : N) (delta₂ : Point N) (dx₃ dx₄ dx₅ dx₆ : N)
  | hflex1 (delta₁ delta₂ : Point N) (dx₃ dx₄ : N) (delta₅ : Point N) (dx₆ : N)
  | flex1 (delta₁ delta₂ delta₃ delta₄ delta₅ : Point N) (last : N)

variable {N C : Type}

def Bend.arguments (bend : Bend N) : List N :=
  bend.first.coordinates ++ bend.second.coordinates ++ bend.third.coordinates

def Quarter.arguments (quarter : Quarter N) : List N :=
  [quarter.start, quarter.middle.x, quarter.middle.y, quarter.finish]

theorem Quarter.length_arguments (quarters : List (Quarter N)) :
    (quarters.flatMap Quarter.arguments).length = 4 * quarters.length := by
  induction quarters with
  | nil => rfl
  | cons quarter rest ih =>
      rw [List.flatMap_cons, List.length_append, ih, List.length_cons]
      simp only [Quarter.arguments, List.length_cons, List.length_nil]
      omega

namespace Figure

def op : Figure N → Type2Op
  | .lines _ => .rlineto
  | .alternatingLines horizontal _ => if horizontal then .hlineto else .vlineto
  | .curves _ => .rrcurveto
  | .parallelCurves horizontal _ _ => if horizontal then .hhcurveto else .vvcurveto
  | .alternatingCurves horizontal _ _ => if horizontal then .hvcurveto else .vhcurveto
  | .curvesThenLine _ _ => .rcurveline
  | .linesThenCurve _ _ => .rlinecurve
  | .flex _ _ _ => .flex
  | .hflex _ _ _ _ _ _ => .hflex
  | .hflex1 _ _ _ _ _ _ => .hflex1
  | .flex1 _ _ _ _ _ _ => .flex1

def arguments : Figure N → List N
  | .lines deltas => deltas.flatMap Point.coordinates
  | .alternatingLines _ deltas => deltas
  | .curves bends => bends.flatMap Bend.arguments
  | .parallelCurves _ cross? quarters => cross?.toList ++ quarters.flatMap Quarter.arguments
  | .alternatingCurves _ quarters cross? => quarters.flatMap Quarter.arguments ++ cross?.toList
  | .curvesThenLine bends delta => bends.flatMap Bend.arguments ++ delta.coordinates
  | .linesThenCurve deltas bend => deltas.flatMap Point.coordinates ++ bend.arguments
  | .flex first second depth => first.arguments ++ second.arguments ++ [depth]
  | .hflex dx₁ delta₂ dx₃ dx₄ dx₅ dx₆ => [dx₁] ++ delta₂.coordinates ++ [dx₃, dx₄, dx₅, dx₆]
  | .hflex1 delta₁ delta₂ dx₃ dx₄ delta₅ dx₆ =>
      delta₁.coordinates ++ delta₂.coordinates ++ [dx₃, dx₄] ++ delta₅.coordinates ++ [dx₆]
  | .flex1 delta₁ delta₂ delta₃ delta₄ delta₅ last =>
      [delta₁, delta₂, delta₃, delta₄, delta₅].flatMap Point.coordinates ++ [last]

variable [Zero N] [Add N] [Neg N] [Magnitude N]

def segments : Figure N → List (Segment N)
  | .lines deltas => deltas.map .line
  | .alternatingLines horizontal deltas =>
      deltas.zipIdx.map fun (delta, place) =>
        .line (.oriented (horizontal == (place % 2 == 0)) delta 0)
  | .curves bends => bends.map .curve
  | .parallelCurves horizontal cross? quarters =>
      quarters.zipIdx.map fun (quarter, place) =>
        let cross := if place = 0 then cross?.getD 0 else 0
        .curve
          { first := .oriented horizontal quarter.start cross
            second := quarter.middle
            third := .oriented horizontal quarter.finish 0 }
  | .alternatingCurves horizontal quarters cross? =>
      quarters.zipIdx.map fun (quarter, place) =>
        let axis := horizontal == (place % 2 == 0)
        let cross := if place + 1 = quarters.length then cross?.getD 0 else 0
        .curve
          { first := .oriented axis quarter.start 0
            second := quarter.middle
            third := .oriented (!axis) quarter.finish cross }
  | .curvesThenLine bends delta => bends.map .curve ++ [.line delta]
  | .linesThenCurve deltas bend => deltas.map .line ++ [.curve bend]
  | .flex first second _ => [.curve first, .curve second]
  -- The second curve comes back to the height at which the first one started.
  | .hflex dx₁ delta₂ dx₃ dx₄ dx₅ dx₆ =>
      [.curve ⟨⟨dx₁, 0⟩, delta₂, ⟨dx₃, 0⟩⟩, .curve ⟨⟨dx₄, 0⟩, ⟨dx₅, -delta₂.y⟩, ⟨dx₆, 0⟩⟩]
  | .hflex1 delta₁ delta₂ dx₃ dx₄ delta₅ dx₆ =>
      [.curve ⟨delta₁, delta₂, ⟨dx₃, 0⟩⟩,
        .curve ⟨⟨dx₄, 0⟩, delta₅, ⟨dx₆, -(delta₁.y + delta₂.y + delta₅.y)⟩⟩]
  -- So it does here, or else to the same distance along the other axis.
  | .flex1 delta₁ delta₂ delta₃ delta₄ delta₅ last =>
      let total := delta₁ + delta₂ + delta₃ + delta₄ + delta₅
      let delta₆ : Point N :=
        if Magnitude.exceeds total.x total.y then ⟨last, -total.y⟩ else ⟨-total.x, last⟩
      [.curve ⟨delta₁, delta₂, delta₃⟩, .curve ⟨delta₄, delta₅, delta₆⟩]

end Figure

inductive Hint (N : Type) where
  | stems (vertical replaced : Bool) (pairs : List (N × N))
  | mask (counters : Bool) (pairs : List (N × N)) (bytes : Bytes)

namespace Hint

def op : Hint N → Type2Op
  | .stems vertical replaced _ =>
      if vertical then if replaced then .vstemhm else .vstem
      else if replaced then .hstemhm else .hstem
  | .mask counters _ _ => if counters then .cntrmask else .hintmask

def pairs : Hint N → List (N × N)
  | .stems _ _ pairs => pairs
  | .mask _ pairs _ => pairs

def isVertical : Hint N → Bool
  | .stems vertical _ _ => vertical
  | .mask _ _ _ => true

def arguments (hint : Hint N) : List N :=
  hint.pairs.flatMap fun (distance, width) => [distance, width]

theorem length_arguments (hint : Hint N) : hint.arguments.length = 2 * hint.pairs.length := by
  rw [Hint.arguments]
  induction hint.pairs with
  | nil => rfl
  | cons pair rest ih =>
      rw [List.flatMap_cons, List.length_append, ih, List.length_cons]
      simp only [List.length_cons, List.length_nil]
      omega

def edges [Add N] : N → List (N × N) → List (Stem N)
  | _, [] => []
  | lastEnd, (distance, width) :: rest =>
      ⟨lastEnd + distance, width⟩ :: edges (lastEnd + distance + width) rest

end Hint

inductive Move (N : Type) where
  | both (delta : Point N)
  | along (horizontal : Bool) (delta : N)

namespace Move

def op : Move N → Type2Op
  | .both _ => .rmoveto
  | .along horizontal _ => if horizontal then .hmoveto else .vmoveto

def arguments : Move N → List N
  | .both delta => delta.coordinates
  | .along _ delta => [delta]

def vector [Zero N] : Move N → Point N
  | .both delta => delta
  | .along horizontal delta => .oriented horizontal delta 0

end Move

inductive Item (N : Type) where
  | declares (hint : Hint N)
  | moves (move : Move N)
  | draws (figure : Figure N)

namespace Item

def command : Item N → Command Type2Op N
  | .declares hint => ⟨hint.arguments, hint.op⟩
  | .moves move => ⟨move.arguments, move.op⟩
  | .draws figure => ⟨figure.arguments, figure.op⟩

def maskTokens : Item N → List (Token Type2Op N)
  | .declares (.mask _ _ bytes) => [.mask bytes]
  | _ => []

def tokens (item : Item N) : List (Token Type2Op N) := item.command.tokens ++ item.maskTokens

def Drawable : Bool → List (Item N) → Prop
  | _, [] => True
  | inSubpath, .declares _ :: rest => Drawable inSubpath rest
  | _, .moves _ :: rest => Drawable true rest
  | inSubpath, .draws _ :: rest => inSubpath = true ∧ Drawable inSubpath rest

end Item

structure Program (N : Type) where
  width? : Option N
  items : List (Item N)
  drawable : Item.Drawable false items

namespace Program

def tokens (program : Program N) : List (Token Type2Op N) :=
  program.width?.toList.map .number ++ program.items.flatMap Item.tokens ++ [.operator .endchar]

def commands (program : Program N) : List (Command Type2Op N) :=
  program.items.map Item.command ++ [⟨[], .endchar⟩]

def advanceWidth [Add N] (program : Program N) (widths : Lowering.Widths N) : N :=
  match program.width? with
  | some delta => delta + widths.nominal
  | none => widths.default

end Program

structure Plotter (C : Type) where
  path : Path C
  current : Point C
  isOpen : Bool
  horizontalStems : List (Stem C)
  verticalStems : List (Stem C)

namespace Plotter

variable [Zero C] [Add C]

def start : Plotter C := ⟨[], 0, false, [], []⟩

def close (plotter : Plotter C) : Plotter C :=
  if plotter.isOpen then { plotter with path := plotter.path ++ [.close], isOpen := false }
  else plotter

def moveBy (plotter : Plotter C) (delta : Point C) : Plotter C :=
  let closed := plotter.close
  let target := closed.current + delta
  { closed with path := closed.path ++ [.move target], current := target, isOpen := true }

variable (convert : N → C)

def draw (plotter : Plotter C) : Segment N → Plotter C
  | .line delta =>
      let target := plotter.current + delta.map convert
      { plotter with path := plotter.path ++ [.line target], current := target }
  | .curve bend =>
      let control₁ := plotter.current + bend.first.map convert
      let control₂ := control₁ + bend.second.map convert
      let target := control₂ + bend.third.map convert
      { plotter with path := plotter.path ++ [.curve control₁ control₂ target], current := target }

-- Stems are positions in the outline, so they count from where the plotter starts.
def placeStem (stem : Stem N) : Stem C := ⟨0 + convert stem.position, convert stem.width⟩

def declare (plotter : Plotter C) (vertical : Bool) (stems : List (Stem N)) : Plotter C :=
  let placed := stems.map (placeStem convert)
  if vertical then { plotter with verticalStems := plotter.verticalStems ++ placed }
  else { plotter with horizontalStems := plotter.horizontalStems ++ placed }

variable [Zero N] [Add N] [Neg N] [Magnitude N]

def perform (plotter : Plotter C) : Item N → Plotter C
  | .declares hint => plotter.declare convert hint.isVertical (Hint.edges 0 hint.pairs)
  | .moves move => plotter.moveBy (move.vector.map convert)
  | .draws figure => figure.segments.foldl (draw convert) plotter

end Plotter

namespace Program

variable [Zero N] [Add N] [Neg N] [Magnitude N] [Zero C] [Add C] (convert : N → C)

def plot (program : Program N) : Plotter C :=
  (program.items.foldl (Plotter.perform convert) Plotter.start).close

def glyph [LT C] [DecidableRel (fun a b : C => a < b)] (program : Program N)
    (widths : Lowering.Widths N) : Glyph C :=
  let plotted := program.plot convert
  { path := plotted.path
    advanceWidth := convert (program.advanceWidth widths)
    bearing := 0
    box := Path.bounds plotted.path
    horizontalStems := plotted.horizontalStems
    verticalStems := plotted.verticalStems }

end Program

end Type2

end CompactFont
