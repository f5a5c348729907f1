import CompactFont.Field

set_option autoImplicit false

namespace CompactFont

structure FontDictRange where
  firstGlyph : Nat
  fontDict : Nat
deriving DecidableEq, Repr

namespace FontDictRange

def field : Field FontDictRange :=
  (Field.u16.pair Field.u8).map fun (firstGlyph, fontDict) => ⟨firstGlyph, fontDict⟩

def find? (sentinel glyph : Nat) : List FontDictRange → Option Nat
  | [] => none
  | range :: rest =>
      let next := (rest.head?.map firstGlyph).getD sentinel
      if range.firstGlyph ≤ glyph ∧ glyph < next then some range.fontDict
      else find? sentinel glyph rest

end FontDictRange

inductive FontDictSelect where
  | perGlyph (fontDicts : Array Nat)
  | ranges (stored : List FontDictRange) (sentinel : Nat)
deriving DecidableEq, Repr

namespace FontDictSelect

def read (glyphs : Nat) : Reader FontDictSelect := do
  match ← Field.u8.read with
  | 0 => (perGlyph ·.toArray) <$> Field.u8.readArray glyphs
  | 3 => do
      let count ← Field.u16.read
      let stored ← FontDictRange.field.readArray count
      let sentinel ← Field.u16.read
      pure (ranges stored sentinel)
  | _ => throw .badValue

def fontDictOf? : FontDictSelect → Nat → Option Nat
  | .perGlyph fontDicts, glyph => fontDicts[glyph]?
  | .ranges stored sentinel, glyph => FontDictRange.find? sentinel glyph stored

end FontDictSelect

end CompactFont
