import CompactFont.Charstring.Lowering
import CompactFont.Charstring.Type1
import CompactFont.Charstring.Type2
import CompactFont.Font.Basic
import CompactFont.Outline.Pen

set_option autoImplicit false

namespace CompactFont

def maxComponentNesting : Nat := 2

structure GlyphCache where
  slots : Array (Option (Glyph Float32))

namespace GlyphCache

def empty (glyphs : Nat) : GlyphCache := ⟨Array.replicate glyphs none⟩

def get? (cache : GlyphCache) (glyph : Nat) : Option (Glyph Float32) :=
  (cache.slots[glyph]?).join

def insert (cache : GlyphCache) (glyph : Nat) (drawn : Glyph Float32) : GlyphCache :=
  ⟨cache.slots.setIfInBounds glyph (some drawn)⟩

end GlyphCache

namespace Font

def resolve (font : Font) (glyph : Nat) : Nat := if glyph < font.glyphCount then glyph else 0

def charstring (font : Font) (glyph : Nat) : Except CharstringError Bytes :=
  match font.charstrings.get? glyph with
  | some charstring => .ok charstring
  | none => .error (.read .badIndex)

def decodeType2 (font : Font) (glyph : Nat) :
    Attempt CharstringError (List (Token Type2Op Float)) := do
  let charstring ← font.charstring glyph
  let subroutines := ⟨font.globalSubrs, (font.privateDataOf glyph).2⟩
  List.map (Token.mapNumber Number.toFloat) <$> Type2.decode subroutines charstring

def type2Tokens (font : Font) (glyph : Nat) :
    Attempt CharstringError (List (Token Type2Op Float)) :=
  match font.dialect with
  | .type1 => throw (.read .wrongKind)
  | .type2 => font.decodeType2 (font.resolve glyph)

def widths (font : Font) (glyph : Nat) : Attempt ReadError (Lowering.Widths Float) :=
  match (font.privateDataOf glyph).1 with
  | none => pure ⟨0, 0⟩
  | some privateDict => do
      let default ← privateDict.number? .defaultWidthX
      let nominal ← privateDict.number? .nominalWidthX
      pure ⟨default.getD 0, nominal.getD 0⟩

def type1Tokens (font : Font) (glyph : Nat) :
    Attempt CharstringError (List (Token Type1Op Float)) := do
  let resolved := font.resolve glyph
  match font.dialect with
  | .type1 =>
      let charstring ← font.charstring resolved
      List.map (Token.mapNumber Float.ofInt) <$>
        Type1.decode (font.privateDataOf resolved).2 charstring
  | .type2 =>
      let tokens ← font.decodeType2 resolved
      let widths ← Attempt.mapError CharstringError.read (font.widths resolved)
      Lowering.lower widths tokens

def drawComponent (draw? : Option (Nat → Attempt CharstringError (Glyph Float32))) (glyph : Nat)
    (name : String) (part : Nat) : Report (Option (Path Float32)) :=
  match draw? with
  | none => do
      Report.note (.componentsTooDeep glyph)
      pure none
  | some draw => do
      match ← (draw part).run with
      | .ok drawn => pure (some drawn.path)
      | .error error => do
          Report.note (.componentFailed name error)
          pure none

def component (font : Font) (draw? : Option (Nat → Attempt CharstringError (Glyph Float32)))
    (glyph : Nat) (code : Float32) : Report (Option (Path Float32)) :=
  let invalid : Report (Option (Path Float32)) := do
    Report.note (.invalidSeacCode (Coordinate.text code) glyph)
    pure none
  let place := Coordinate.truncate code
  if Coordinate.isWhole code ∧ 0 ≤ place then
    match standardEncoding[place.toNat]? with
    | none => invalid
    | some id =>
        let name := font.strings.get id
        let part := (font.glyphOfName name).toOption.getD 0
        if part = 0 ∨ part = glyph then do
          Report.note (.componentNotFound name glyph)
          pure none
        else drawComponent draw? glyph name part
  else invalid

def drawWith (font : Font) (draw? : Option (Nat → Attempt CharstringError (Glyph Float32)))
    (glyph : Nat) : Attempt CharstringError (Glyph Float32) := do
  let tokens ← font.type1Tokens glyph
  let setting : Setting Float32 :=
    { glyph
      component? := if font.isCidKeyed then none else some (font.component draw? glyph) }
  let pen ← Pen.run setting (tokens.map (Token.mapNumber single))
  pure pen.finish

def draw (font : Font) (cache : GlyphCache) : Nat → Nat → Attempt CharstringError (Glyph Float32)
  | 0 => font.drawWith none
  | nesting + 1 =>
      font.drawWith <| some fun glyph =>
        match cache.get? glyph with
        | some drawn => pure drawn
        | none => font.draw cache nesting glyph

def glyph (font : Font) (cache : GlyphCache) (glyph : Nat) :
    Report (Except CharstringError (Glyph Float32) × GlyphCache) :=
  let resolved := font.resolve glyph
  match cache.get? resolved with
  | some drawn => pure (.ok drawn, cache)
  | none => do
      match ← (font.draw cache maxComponentNesting resolved).run with
      | .ok drawn => pure (.ok drawn, cache.insert resolved drawn)
      | .error error => pure (.error error, cache)

def selectedGlyph (font : Font) (cache : GlyphCache) (selected : Except ReadError Nat) :
    Report (Except CharstringError (Glyph Float32) × GlyphCache) :=
  match selected with
  | .ok glyph => font.glyph cache glyph
  | .error error => pure (.error (.read error), cache)

def glyphNamed (font : Font) (cache : GlyphCache) (name : String) :
    Report (Except CharstringError (Glyph Float32) × GlyphCache) :=
  font.selectedGlyph cache (font.glyphOfName name)

def glyphWithCid (font : Font) (cache : GlyphCache) (cid : Nat) :
    Report (Except CharstringError (Glyph Float32) × GlyphCache) :=
  font.selectedGlyph cache (font.glyphOfCid cid)

end Font

end CompactFont
