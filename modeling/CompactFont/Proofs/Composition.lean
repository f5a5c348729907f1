import CompactFont.Proofs.GlyphSelection
import CompactFont.Proofs.RequestHistory

set_option autoImplicit false

namespace CompactFont

namespace Pen

variable {C : Type} [Coordinate C]

def path (pen : Pen C) : Path C := pen.reversed.reverse

theorem path_compose {setting : Setting C} {component : C → Report (Option (Path C))}
    (named : setting.component? = some component) (pen : Pen C)
    (accentBearing dx dy base accent : C) :
    (pen.compose setting accentBearing dx dy base accent).value.path =
      pen.path ++ (outlineOf (component base) ++ (outlineOf (component accent)).translate
        ⟨pen.bearing.x + dx - accentBearing, pen.bearing.y + dy⟩) := by
  simp [compose, named, path, outlineOf]

end Pen

structure StandsFor (code : Float32) (id : Nat) : Prop where
  whole : Coordinate.isWhole code = true
  natural : 0 ≤ Coordinate.truncate code
  encoded : standardEncoding[(Coordinate.truncate code).toNat]? = some id

namespace Font

def drawParts (font : Font) (cache : GlyphCache) :
    Nat → Option (Nat → Attempt CharstringError (Glyph Float32))
  | 0 => none
  | nesting + 1 => some (font.drawPart cache nesting)

def setting (font : Font) (cache : GlyphCache) (nesting glyph : Nat) : Setting Float32 where
  glyph
  component? :=
    if font.isCidKeyed then none else some (font.component (font.drawParts cache nesting) glyph)

def componentPath (font : Font) (cache : GlyphCache) (nesting glyph : Nat) (code : Float32) :
    Path Float32 :=
  outlineOf (font.component (font.drawParts cache nesting) glyph code)

variable {font : Font}

theorem component_path_of_code {code : Float32} {id part : Nat} (stands : StandsFor code id)
    (found : font.glyphOfName (font.strings.get id) = .ok part) (cache : GlyphCache)
    (nesting glyph : Nat) :
    font.componentPath cache nesting glyph code =
      if part = 0 ∨ part = glyph then [] else partOutline (font.drawParts cache nesting) part := by
  simp only [componentPath, component, stands.encoded, found, Except.toOption, Option.getD_some]
  rw [if_pos ⟨stands.whole, stands.natural⟩]
  split
  · rfl
  · exact outline_of_draw_component _ _ _ _

theorem type1_tokens_past {glyph : Nat} (past : font.glyphCount ≤ glyph) :
    font.type1Tokens glyph = font.type1Tokens 0 := by
  have first : font.resolve glyph = 0 := if_neg (Nat.not_lt.mpr past)
  have zero : font.resolve 0 = 0 := by
    rw [resolve]
    split <;> rfl
  rw [type1Tokens, type1Tokens, first, zero]

theorem get_cache_after_past (history : List Nat) {glyph : Nat} (past : font.glyphCount ≤ glyph) :
    (font.cacheAfter history).get? glyph = none := by
  cases found : (font.cacheAfter history).get? glyph with
  | none => rfl
  | some drawn =>
      have inside := GlyphCache.lt_size_of_get found
      rw [size_cache_after] at inside
      exact absurd inside (Nat.not_lt.mpr past)

theorem le_glyph_of_name_iff {program : Window} (read : font.ReadFrom program) {name : String}
    {part : Nat} (found : font.glyphOfName name = .ok part) :
    font.glyphCount ≤ part ↔ ∃ id ∈ font.strayIds, font.strings.idOf? name = some id := by
  have nonempty := read.nonempty
  obtain ⟨-, answer⟩ := Charset.glyph_of_name_ok_iff.mp found
  cases named : font.strings.idOf? name with
  | none =>
      rw [named] at answer
      obtain rfl : part = 0 := answer
      exact ⟨fun past => absurd nonempty (Nat.not_lt.mpr past), nofun⟩
  | some id =>
      rw [named, Option.getD_some] at answer
      have small := Strings.id_le_of_id_of named
      rw [answer, Charset.le_glyph_of_iff small nonempty]
      constructor
      · exact fun stray => ⟨id, stray, rfl⟩
      · rintro ⟨_, stray, same⟩
        exact Option.some.inj same ▸ stray

/-- A composite glyph adds the outlines of its components to the path. Where no glyph of the font but
glyph 0 has the name of a component, the component adds nothing if the name is answered with a glyph
of the font, as it is if the charset has an id for each glyph and no more. It is not if the charset
lists the name past the last glyph; then the charstring of glyph 0 is drawn, except within the drawing
of that missing glyph itself. -/
theorem missing_component_skipped_unless_stray {program : Window} {result : FontProgram}
    (loaded : (FontProgram.read program).outcome = .ok result) (member : font ∈ result.fonts)
    (isNames : font.isCidKeyed = false) (history : List Nat) (nesting glyph : Nat) :
    (∀ pen accentBearing dx dy base accent,
      (Pen.compose (font.setting (font.cacheAfter history) nesting glyph) pen accentBearing dx dy
          base accent).value.path =
        pen.path ++ (font.componentPath (font.cacheAfter history) nesting glyph base ++
          (font.componentPath (font.cacheAfter history) nesting glyph accent).translate
            ⟨pen.bearing.x + dx - accentBearing, pen.bearing.y + dy⟩)) ∧
    ((∃ stored, font.charset.custom? = some (.ids stored)) → font.strayIds = []) ∧
    ∀ code id, StandsFor code id →
      (∀ other, 0 < other → other < font.glyphCount →
        font.nameOf? other ≠ .ok (some (font.strings.get id))) →
      ∃ part, font.glyphOfName (font.strings.get id) = .ok part ∧
        (font.glyphCount ≤ part ↔
          ∃ stray ∈ font.strayIds, font.strings.idOf? (font.strings.get id) = some stray) ∧
        (part < font.glyphCount →
          font.componentPath (font.cacheAfter history) nesting glyph code = []) ∧
        (font.glyphCount ≤ part → part ≠ glyph → font.type1Tokens part = font.type1Tokens 0 ∧
          font.componentPath (font.cacheAfter history) nesting glyph code =
            match nesting with
            | 0 => []
            | deeper + 1 =>
                Drawing.outline (font.draw (font.cacheAfter history) deeper part).outcome) := by
  have read := FontProgram.read_from_of_mem loaded member
  refine ⟨?_, fun only => stray_ids_eq_nil read (.inl only), ?_⟩
  · intro pen accentBearing dx dy base accent
    exact Pen.path_compose (by rw [setting, isNames]; rfl) pen accentBearing dx dy base accent
  · intro code id stands missing
    have answered : font.glyphOfName (font.strings.get id) =
        .ok ((font.charset.glyphOf? ((font.strings.idOf? (font.strings.get id)).getD 0)).getD 0) :=
      Charset.glyph_of_name_ok_iff.mpr ⟨read.charset.keyed.trans isNames, rfl⟩
    refine ⟨_, answered, le_glyph_of_name_iff read answered, fun inside => ?_, fun past other => ?_⟩
    · rw [component_path_of_code stands answered, if_pos]
      left
      by_contra positive
      exact missing _ (Nat.pos_of_ne_zero positive) inside
        (Charset.named_of_glyph_of_name (fits_charset read) read.strings answered positive)
    · refine ⟨type1_tokens_past past, ?_⟩
      have positive := Nat.ne_of_gt (Nat.lt_of_lt_of_le read.nonempty past)
      rw [component_path_of_code stands answered, if_neg (not_or_intro positive other)]
      cases nesting with
      | zero => rfl
      | succ deeper =>
          rw [drawParts, partOutline, drawPart, get_cache_after_past history past]

theorem two_letters_skip_third :
    ∃ result font, (FontProgram.read twoLetters).outcome = .ok result ∧ font ∈ result.fonts ∧
      font.componentPath (font.cacheAfter [1, 2]) 2 1 67 = [] := by
  have parts : (FontProgram.read twoLetters).outcome.toOption.map (fun result =>
      result.fonts.map fun font =>
        (font.isCidKeyed, font.strayIds, (List.range font.glyphCount).all fun glyph =>
          (font.nameOf? glyph).toOption != some (some (font.strings.get 36)))) =
      some [(false, [], true)] := by
    decide +kernel
  obtain ⟨result, font, loaded, member, part⟩ := FontProgram.exists_font_of_map parts
  simp only [Prod.mk.injEq] at part
  obtain ⟨isNames, noIds, others⟩ := part
  have stands : StandsFor 67 36 := ⟨by decide +kernel, by decide +kernel, by decide +kernel⟩
  have missing (other : Nat) (_ : 0 < other) (inside : other < font.glyphCount) :
      font.nameOf? other ≠ .ok (some (font.strings.get 36)) := by
    intro same
    have different := List.all_eq_true.mp others other (List.mem_range.mpr inside)
    rw [same] at different
    simp [Except.toOption] at different
  obtain ⟨-, -, skipped⟩ :=
    missing_component_skipped_unless_stray loaded member isNames [1, 2] 2 1
  obtain ⟨part, -, past, nothing, -⟩ := skipped 67 36 stands missing
  refine ⟨result, font, loaded, member, nothing (Nat.not_le.mp fun stray => ?_)⟩
  obtain ⟨id, listed, -⟩ := past.mp stray
  rw [noIds] at listed
  cases listed

-- Glyph 0 is a triangle and glyph 1 is composed of A and B, which ISOAdobe lists for glyphs that the
-- font does not have.
def missingLetters : Window where
  base := 0
  data :=
    [1, 0, 4, 1, 0, 1, 1, 1, 6, 80, 97, 114, 116, 115, 0, 1, 1, 1, 18, 29, 0, 0, 0, 40, 17, 29, 0,
      0, 0, 0, 29, 0, 0, 0, 59, 18, 0, 0, 0, 0, 0, 2, 1, 1, 9, 14, 139, 139, 21, 239, 6, 239, 7, 14,
      139, 139, 204, 205, 14]

theorem missing_letters_draw_triangles :
    ∃ result font, (FontProgram.read missingLetters).outcome = .ok result ∧ font ∈ result.fonts ∧
      font.isCidKeyed = false ∧ StandsFor 65 34 ∧ StandsFor 66 35 ∧
      (∀ other, 0 < other → other < font.glyphCount →
        font.nameOf? other ≠ .ok (some (font.strings.get 34)) ∧
          font.nameOf? other ≠ .ok (some (font.strings.get 35))) ∧
      Drawing.outline (font.fresh 1) =
        [.move ⟨0, 0⟩, .line ⟨100, 0⟩, .line ⟨100, 100⟩, .close,
          .move ⟨0, 0⟩, .line ⟨100, 0⟩, .line ⟨100, 100⟩, .close] := by
  have parts : (FontProgram.read missingLetters).outcome.toOption.map (fun result =>
      result.fonts.map fun font =>
        (font.isCidKeyed, (List.range font.glyphCount).all fun glyph =>
          (font.nameOf? glyph).toOption != some (some (font.strings.get 34)) &&
            (font.nameOf? glyph).toOption != some (some (font.strings.get 35)),
          Drawing.outline (font.fresh 1))) =
      some [(false, true,
        [.move ⟨0, 0⟩, .line ⟨100, 0⟩, .line ⟨100, 100⟩, .close,
          .move ⟨0, 0⟩, .line ⟨100, 0⟩, .line ⟨100, 100⟩, .close])] := by
    decide +kernel
  obtain ⟨result, font, loaded, member, part⟩ := FontProgram.exists_font_of_map parts
  simp only [Prod.mk.injEq] at part
  obtain ⟨isNames, others, drawn⟩ := part
  refine ⟨result, font, loaded, member, isNames,
    ⟨by decide +kernel, by decide +kernel, by decide +kernel⟩,
    ⟨by decide +kernel, by decide +kernel, by decide +kernel⟩, fun other _ inside => ?_, drawn⟩
  have different := List.all_eq_true.mp others other (List.mem_range.mpr inside)
  constructor
  · intro same
    rw [same] at different
    simp [Except.toOption] at different
  · intro same
    rw [same] at different
    simp [Except.toOption] at different

end Font

end CompactFont
