import CompactFont.Outline.Glyph
import CompactFont.Report

set_option autoImplicit false

namespace CompactFont

class Coordinate (C : Type) extends Zero C, Add C, Sub C, Div C where
  isZero : C → Bool
  isWhole : C → Bool
  truncate : C → Int
  text : C → String

structure Pen (C : Type) where
  -- The path so far, the latest command first.
  reversed : Path C
  current : Point C
  bearing : Point C
  width : Point C
  isOpen : Bool
  flex? : Option (List (Point C))
  horizontalStems : List (Stem C)
  verticalStems : List (Stem C)
  ended : Bool

structure Setting (C : Type) where
  glyph : Nat
  -- The outline of a component of a composite glyph, by its code. Glyphs without names have no
  -- components.
  component? : Option (C → Report (Option (Path C)))

namespace Pen

variable {C : Type} [Coordinate C]

def start : Pen C :=
  { reversed := [], current := 0, bearing := 0, width := 0, isOpen := false, flex? := none
    horizontalStems := [], verticalStems := [], ended := false }

def add (pen : Pen C) (command : PathCommand C) : Pen C :=
  { pen with reversed := command :: pen.reversed }

def moveBy (pen : Pen C) (delta : Point C) : Pen C :=
  match pen.flex? with
  | some points => { pen with flex? := some (delta :: points) }
  | none =>
      let target := pen.current + delta
      { pen with current := target, isOpen := true }.add (.move target)

def ensureOpen (glyph : Nat) (pen : Pen C) : Report (Pen C) :=
  if pen.isOpen then pure pen
  else do
    if pen.reversed.isEmpty then Report.note (.drawingBeforeMove glyph)
    pure ({ pen with isOpen := true }.add (.move pen.current))

def lineBy (glyph : Nat) (pen : Pen C) (delta : Point C) : Report (Pen C) := do
  let pen ← pen.ensureOpen glyph
  let target := pen.current + delta
  pure ({ pen with current := target }.add (.line target))

def curveBy (glyph : Nat) (pen : Pen C) (delta₁ delta₂ delta₃ : Point C) : Report (Pen C) := do
  let pen ← pen.ensureOpen glyph
  let control₁ := pen.current + delta₁
  let control₂ := control₁ + delta₂
  let target := control₂ + delta₃
  pure ({ pen with current := target }.add (.curve control₁ control₂ target))

def close (glyph : Nat) (pen : Pen C) : Report (Pen C) :=
  if pen.isOpen then pure ({ pen with isOpen := false }.add .close)
  else do
    Report.note (.closingNothing glyph)
    pure pen

-- Draws the two curves of a flex. The first point is the reference point, from which the second
-- one counts.
def endFlex (glyph : Nat) (pen : Pen C) : Report (Pen C) :=
  let left := { pen with flex? := none }
  match (pen.flex?.getD []).reverse with
  | reference :: p₁ :: p₂ :: p₃ :: p₄ :: p₅ :: p₆ :: _ => do
      let half ← left.curveBy glyph (reference + p₁) p₂ p₃
      half.curveBy glyph p₄ p₅ p₆
  | points => do
      Report.note (.shortFlex points.length glyph)
      pure left

def othersubr (glyph : Nat) (pen : Pen C) (number : Int) : Report (Pen C) :=
  match number with
  | 0 => pen.endFlex glyph
  | 1 => pure { pen with flex? := some [] }
  | other => do
      Report.note (.unexpectedOthersubr other glyph)
      pure pen

def compose (setting : Setting C) (pen : Pen C) (accentBearing dx dy base accent : C) :
    Report (Pen C) :=
  match setting.component? with
  | none => do
      Report.note (.seacWithoutNames setting.glyph)
      pure pen
  | some component => do
      let basePath ← component base
      let accentPath ← component accent
      let offset : Point C := ⟨pen.bearing.x + dx - accentBearing, pen.bearing.y + dy⟩
      let added := basePath.getD [] ++ (accentPath.getD []).translate offset
      pure { pen with reversed := added.reverse ++ pen.reversed, isOpen := false }

def addHorizontalStems (pen : Pen C) (stems : List (C × C)) : Pen C :=
  { pen with
    horizontalStems := (stems.map fun (position, width) =>
      ⟨pen.bearing.y + position, width⟩).reverse ++ pen.horizontalStems }

def addVerticalStems (pen : Pen C) (stems : List (C × C)) : Pen C :=
  { pen with
    verticalStems := (stems.map fun (position, width) =>
      ⟨pen.bearing.x + position, width⟩).reverse ++ pen.verticalStems }

def setBearing (pen : Pen C) (bearing width : Point C) : Pen C :=
  { pen with bearing, width, current := bearing }

def operate (setting : Setting C) (pen : Pen C) : Type1Op → List C → Report (Pen C)
  | .rmoveto, dx :: dy :: _ => pure (pen.moveBy ⟨dx, dy⟩)
  | .hmoveto, dx :: _ => pure (pen.moveBy ⟨dx, 0⟩)
  | .vmoveto, dy :: _ => pure (pen.moveBy ⟨0, dy⟩)
  | .rlineto, dx :: dy :: _ => pen.lineBy setting.glyph ⟨dx, dy⟩
  | .hlineto, dx :: _ => pen.lineBy setting.glyph ⟨dx, 0⟩
  | .vlineto, dy :: _ => pen.lineBy setting.glyph ⟨0, dy⟩
  | .rrcurveto, dx₁ :: dy₁ :: dx₂ :: dy₂ :: dx₃ :: dy₃ :: _ =>
      pen.curveBy setting.glyph ⟨dx₁, dy₁⟩ ⟨dx₂, dy₂⟩ ⟨dx₃, dy₃⟩
  | .vhcurveto, dy₁ :: dx₂ :: dy₂ :: dx₃ :: _ =>
      pen.curveBy setting.glyph ⟨0, dy₁⟩ ⟨dx₂, dy₂⟩ ⟨dx₃, 0⟩
  | .hvcurveto, dx₁ :: dx₂ :: dy₂ :: dy₃ :: _ =>
      pen.curveBy setting.glyph ⟨dx₁, 0⟩ ⟨dx₂, dy₂⟩ ⟨0, dy₃⟩
  | .closepath, _ => pen.close setting.glyph
  | .hsbw, sbx :: wx :: _ => pure (pen.setBearing ⟨sbx, 0⟩ ⟨wx, 0⟩)
  | .sbw, sbx :: sby :: wx :: wy :: _ => pure (pen.setBearing ⟨sbx, sby⟩ ⟨wx, wy⟩)
  | .setcurrentpoint, x :: y :: _ => pure { pen with current := ⟨x, y⟩ }
  | .hstem, y :: dy :: _ => pure (pen.addHorizontalStems [(y, dy)])
  | .vstem, x :: dx :: _ => pure (pen.addVerticalStems [(x, dx)])
  | .hstem3, y₀ :: dy₀ :: y₁ :: dy₁ :: y₂ :: dy₂ :: _ =>
      pure (pen.addHorizontalStems [(y₀, dy₀), (y₁, dy₁), (y₂, dy₂)])
  | .vstem3, x₀ :: dx₀ :: x₁ :: dx₁ :: x₂ :: dx₂ :: _ =>
      pure (pen.addVerticalStems [(x₀, dx₀), (x₁, dx₁), (x₂, dx₂)])
  | .callothersubr, first :: rest =>
      pen.othersubr setting.glyph (Coordinate.truncate ((first :: rest).getLastD first))
  | .seac, asb :: adx :: ady :: bchar :: achar :: _ => pen.compose setting asb adx ady bchar achar
  | .dotsection, _ => pure pen
  | .endchar, _ => pure { pen with ended := true }
  | .callsubr, _ => unexpected .callsubr
  | .subrReturn, _ => unexpected .subrReturn
  | .pop, _ => unexpected .pop
  | .div, _ => unexpected .div
  | op, arguments => do
      Report.note (.glyphTooFewArguments op arguments.length setting.glyph)
      pure pen
where
  unexpected (op : Type1Op) : Report (Pen C) := do
    Report.note (.unexpectedOperator op setting.glyph)
    pure pen

structure Waiting (C : Type) where
  pen : Pen C
  numbers : List C

def divide (glyph : Nat) (numbers : List C) : Report (List C) :=
  match numbers with
  | divisor :: dividend :: rest =>
      if Coordinate.isZero divisor then do
        Report.note (.invalidDivision glyph)
        pure rest
      else pure (dividend / divisor :: rest)
  | _ => do
      Report.note (.invalidDivision glyph)
      pure []

def step (setting : Setting C) (waiting : Waiting C) (token : Token Type1Op C) :
    Report (Waiting C) :=
  if waiting.pen.ended then pure waiting
  else
    match token with
    | .number value => pure { waiting with numbers := value :: waiting.numbers }
    | .mask _ => pure waiting
    | .operator .div => do
        let numbers ← divide setting.glyph waiting.numbers
        pure { waiting with numbers }
    | .operator op => do
        let pen ← waiting.pen.operate setting op waiting.numbers.reverse
        pure { pen, numbers := [] }

def run (setting : Setting C) (tokens : List (Token Type1Op C)) : Report (Pen C) := do
  let waiting ← tokens.foldlM (step setting) ⟨start, []⟩
  pure waiting.pen

variable [LT C] [DecidableRel (fun a b : C => a < b)]

def finish (pen : Pen C) : Glyph C :=
  let path := pen.reversed.reverse
  { path
    advanceWidth := pen.width.x
    bearing := pen.bearing
    box := Path.bounds path
    horizontalStems := pen.horizontalStems.reverse
    verticalStems := pen.verticalStems.reverse }

end Pen

-- The nearest coordinate to a number of a charstring, the even one of two.
def single (number : Float) : Float32 :=
  let rounded : Float.Model.UnpackedFloat :=
    match number.toModel.unpack with
    | .finite sign mantissa exponent _ => .round .binary32 sign mantissa exponent
    | special => special
  .ofModel (.pack rounded)

theorem single_zero : single 0 = 0 := by
  decide +kernel

-- Coordinates from here on have no fraction.
def firstAllWhole : Float32 := 8388608

def integerPart (number : Float32) : Int := number.toModel.unpack.toInt32.toInt

instance : Coordinate Float32 where
  isZero number := number == 0
  isWhole number :=
    number.isFinite &&
      (firstAllWhole ≤ number.abs || Float32.ofInt (integerPart number) == number)
  truncate := integerPart
  text := Decimal.ofFloat32

end CompactFont
