set_option autoImplicit false

namespace CompactFont

structure Point (C : Type) where
  x : C
  y : C
deriving DecidableEq, Repr

namespace Point

variable {C : Type}

instance [Zero C] : Zero (Point C) := ⟨⟨0, 0⟩⟩

@[simp] theorem x_zero [Zero C] : (0 : Point C).x = 0 := rfl

@[simp] theorem y_zero [Zero C] : (0 : Point C).y = 0 := rfl

instance [Add C] : Add (Point C) := ⟨fun a b => ⟨a.x + b.x, a.y + b.y⟩⟩

def same [BEq C] (a b : Point C) : Bool := a.x == b.x && a.y == b.y

end Point

inductive PathCommand (C : Type) where
  | move (target : Point C)
  | line (target : Point C)
  | curve (control₁ control₂ target : Point C)
  | close
deriving DecidableEq, Repr

namespace PathCommand

variable {C : Type}

def points : PathCommand C → List (Point C)
  | .move target => [target]
  | .line target => [target]
  | .curve control₁ control₂ target => [control₁, control₂, target]
  | .close => []

def translate [Add C] (offset : Point C) : PathCommand C → PathCommand C
  | .move target => .move (target + offset)
  | .line target => .line (target + offset)
  | .curve control₁ control₂ target => .curve (control₁ + offset) (control₂ + offset) (target + offset)
  | .close => .close

def same [BEq C] : PathCommand C → PathCommand C → Bool
  | .move a, .move b => a.same b
  | .line a, .line b => a.same b
  | .curve a₁ a₂ a₃, .curve b₁ b₂ b₃ => a₁.same b₁ && a₂.same b₂ && a₃.same b₃
  | .close, .close => true
  | _, _ => false

end PathCommand

structure Box (C : Type) where
  least : Point C
  greatest : Point C
deriving DecidableEq, Repr

namespace Box

variable {C : Type} [LT C] [DecidableRel (fun a b : C => a < b)]

def smaller (a b : C) : C := if a < b then a else b

def greater (a b : C) : C := if b < a then a else b

def ofPoint (point : Point C) : Box C := ⟨point, point⟩

def widen (box : Box C) (point : Point C) : Box C where
  least := ⟨smaller box.least.x point.x, smaller box.least.y point.y⟩
  greatest := ⟨greater box.greatest.x point.x, greater box.greatest.y point.y⟩

end Box

abbrev Path (C : Type) := List (PathCommand C)

namespace Path

variable {C : Type}

def points (path : Path C) : List (Point C) := path.flatMap PathCommand.points

def translate [Add C] (offset : Point C) (path : Path C) : Path C :=
  path.map (PathCommand.translate offset)

def same [BEq C] (a b : Path C) : Bool := a.isEqv b PathCommand.same

-- The box around all points. A path without points has an empty box at the origin.
def bounds [Zero C] [LT C] [DecidableRel (fun a b : C => a < b)] (path : Path C) : Box C :=
  match path.points with
  | [] => Box.ofPoint 0
  | point :: rest => rest.foldl Box.widen (Box.ofPoint point)

end Path

end CompactFont
