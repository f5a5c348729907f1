import CompactFont.Outline.Path

set_option autoImplicit false

namespace CompactFont

structure Stem (C : Type) where
  position : C
  width : C
deriving DecidableEq, Repr

structure Glyph (C : Type) where
  path : Path C
  advanceWidth : C
  bearing : Point C
  box : Box C
  horizontalStems : List (Stem C)
  verticalStems : List (Stem C)
deriving DecidableEq, Repr

end CompactFont
