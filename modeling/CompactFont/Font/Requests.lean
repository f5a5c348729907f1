import CompactFont.Font.Glyphs

set_option autoImplicit false

namespace CompactFont

structure Sink (σ : Type) where
  state : σ
  take : σ → PathCommand Float32 → σ

def Sink.replay {σ : Type} (sink : Sink σ) (path : Path Float32) : σ :=
  path.foldl sink.take sink.state

abbrev Served (α : Type) := Report (Except CharstringError α × GlyphCache)

def Served.map {α β : Type} (f : α → β) : Served α → Served β :=
  Functor.map (f := Report) fun (answer, cache) => (f <$> answer, cache)

inductive Request (σ : Type) where
  | glyph (glyph : Nat)
  | named (name : String)
  | withCid (cid : Nat)
  | advanceWidth (glyph : Nat)
  | boundingBox (glyph : Nat)
  | visit (glyph : Nat) (sink : Sink σ)

inductive Reply (σ : Type) where
  | glyph (drawn : Glyph Float32)
  | width (width : Float32)
  | box (box : Box Float32)
  | visited (state : σ)

namespace Font

def advanceWidth (font : Font) (cache : GlyphCache) (glyph : Nat) : Served Float32 :=
  Served.map Glyph.advanceWidth (font.glyph cache glyph)

def boundingBox (font : Font) (cache : GlyphCache) (glyph : Nat) : Served (Box Float32) :=
  Served.map Glyph.box (font.glyph cache glyph)

def visit {σ : Type} (font : Font) (cache : GlyphCache) (glyph : Nat) (sink : Sink σ) : Served σ :=
  Served.map (fun drawn => sink.replay drawn.path) (font.glyph cache glyph)

def serve {σ : Type} (font : Font) (cache : GlyphCache) : Request σ → Served (Reply σ)
  | .glyph glyph => Served.map .glyph (font.glyph cache glyph)
  | .named name => Served.map .glyph (font.glyphNamed cache name)
  | .withCid cid => Served.map .glyph (font.glyphWithCid cache cid)
  | .advanceWidth glyph => Served.map .width (font.advanceWidth cache glyph)
  | .boundingBox glyph => Served.map .box (font.boundingBox cache glyph)
  | .visit glyph sink => Served.map .visited (font.visit cache glyph sink)

end Font

end CompactFont
