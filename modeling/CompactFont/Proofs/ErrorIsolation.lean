import CompactFont.Proofs.IndexReading
import CompactFont.Proofs.Outcome
import CompactFont.Proofs.RequestSequence

set_option autoImplicit false

namespace CompactFont

namespace Font

variable (font : Font)

def interpret (draw? : Option (Nat → Attempt CharstringError (Glyph Float32))) (glyph : Nat)
    (tokens : List (Token Type1Op Float)) : Glyph Float32 :=
  let setting : Setting Float32 :=
    { glyph
      component? := if font.isCidKeyed then none else some (font.component draw? glyph) }
  (Pen.run setting (tokens.map (Token.mapNumber single))).value.finish

theorem outcome_draw_with (draw? : Option (Nat → Attempt CharstringError (Glyph Float32)))
    (glyph : Nat) :
    (font.drawWith draw? glyph).outcome =
      font.interpret draw? glyph <$> (font.type1Tokens glyph).outcome := by
  rw [drawWith, Attempt.outcome_bind]
  cases (font.type1Tokens glyph).outcome <;> rfl

theorem draw_with_error_iff (draw? : Option (Nat → Attempt CharstringError (Glyph Float32)))
    (glyph : Nat) (error : CharstringError) :
    (font.drawWith draw? glyph).outcome = .error error ↔
      (font.type1Tokens glyph).outcome = .error error := by
  rw [outcome_draw_with]
  exact Attempt.except_map_error_iff

theorem draw_error_iff (cache : GlyphCache) (nesting glyph : Nat) (error : CharstringError) :
    (font.draw cache nesting glyph).outcome = .error error ↔
      (font.type1Tokens glyph).outcome = .error error := by
  cases nesting with
  | zero => exact font.draw_with_error_iff none glyph error
  | succ nesting => exact font.draw_with_error_iff _ glyph error

theorem resolve_resolve (glyph : Nat) : font.resolve (font.resolve glyph) = font.resolve glyph := by
  by_cases inside : glyph < font.glyphCount
  · rw [font.resolve_of_lt inside, font.resolve_of_lt inside]
  · have first : font.resolve glyph = 0 := if_neg inside
    rw [first, resolve, ite_self]

theorem type1_tokens_resolve (glyph : Nat) :
    font.type1Tokens (font.resolve glyph) = font.type1Tokens glyph := by
  rw [type1Tokens, type1Tokens, resolve_resolve]

theorem holds_decoded (history : List Nat) :
    font.Holds (font.cacheAfter history) fun glyph _ =>
      ∃ tokens, (font.type1Tokens glyph).outcome = .ok tokens := by
  refine holds_cache_after (fun history glyph drawn _ missing answered => ?_) history
  rw [font.answer_drawn missing] at answered
  cases decoded : (font.type1Tokens (font.resolve glyph)).outcome with
  | ok tokens => exact ⟨tokens, rfl⟩
  | error error =>
      rw [← font.draw_error_iff (font.cacheAfter history) maxComponentNesting] at decoded
      rw [decoded] at answered
      cases answered

theorem answer_error_iff (history : List Nat) (glyph : Nat) (error : CharstringError) :
    font.answer (font.cacheAfter history) glyph = .error error ↔
      (font.type1Tokens glyph).outcome = .error error := by
  rw [← type1_tokens_resolve]
  cases found : (font.cacheAfter history).get? (font.resolve glyph) with
  | some drawn =>
      obtain ⟨tokens, decoded⟩ := (font.holds_decoded history).drawings _ drawn found
      rw [font.answer_cached found, decoded]
      exact ⟨nofun, nofun⟩
  | none =>
      rw [font.answer_drawn found]
      exact font.draw_error_iff _ _ _ error

structure SameSource (font other : Font) (glyph : Nat) : Prop where
  dialect : other.dialect = font.dialect
  charstring : other.charstring (other.resolve glyph) = font.charstring (font.resolve glyph)
  globalSubrs : other.globalSubrs = font.globalSubrs
  privateData :
    other.privateDataOf (other.resolve glyph) = font.privateDataOf (font.resolve glyph)

variable {font}

theorem type1_tokens_congr {other : Font} {glyph : Nat} (same : font.SameSource other glyph) :
    other.type1Tokens glyph = font.type1Tokens glyph := by
  simp only [type1Tokens, decodeType2, widths, same.dialect, same.charstring, same.globalSubrs,
    same.privateData]

theorem glyph_fails_iff_its_tokens_do {σ : Type} (font : Font) (requests : List (Request σ))
    (glyph : Nat) :
    (∀ error, font.answer (font.cacheAfterAll requests) glyph = .error error ↔
        (font.type1Tokens glyph).outcome = .error error) ∧
      (∀ draw?, (font.drawWith draw? glyph).outcome =
        font.interpret draw? glyph <$> (font.type1Tokens glyph).outcome) ∧
      ∀ other, font.SameSource other glyph → ∀ (others : List (Request σ)) error,
        other.answer (other.cacheAfterAll others) glyph = .error error ↔
          font.answer (font.cacheAfterAll requests) glyph = .error error := by
  refine ⟨fun error => ?_, fun draw? => font.outcome_draw_with draw? glyph,
    fun other same others error => ?_⟩
  · rw [cache_after_all_eq]
    exact font.answer_error_iff _ glyph error
  · rw [cache_after_all_eq, cache_after_all_eq, other.answer_error_iff, font.answer_error_iff,
      type1_tokens_congr same]

def faulty : Font where
  name := "Faulty"
  top := ⟨[]⟩
  charstrings := .ofObjects 1
    [[14], [139, 139, 205, 206, 14], [139, 139, 28], [139, 139, 205, 204, 14]]
  charset := .custom (.ids #[34, 35, 36])
  keying := .names .standard ⟨⟨[]⟩, none⟩
  matrix := .perThousand
  dialect := .type2
  globalSubrs := .empty
  strings := ⟨.empty⟩

theorem faulty_component_fails_alone :
    (∀ error, faulty.answer (faulty.cacheAfterAll [.named "C", .visit 2 ⟨(), fun _ _ => ()⟩]) 1 ≠
        .error error) ∧
      faulty.answer (faulty.cacheAfterAll [.named "C", .visit 1 ⟨(), fun _ _ => ()⟩]) 2 =
        .error (.read .endOfData) := by
  have cut : (faulty.type1Tokens 2).outcome = .error (.read .endOfData) := by
    decide +kernel
  have whole : (faulty.type1Tokens 1).outcome.isOk = true := by
    decide +kernel
  constructor
  · intro error failed
    rw [(faulty.glyph_fails_iff_its_tokens_do _ 1).1] at failed
    rw [failed] at whole
    cases whole
  · exact ((faulty.glyph_fails_iff_its_tokens_do _ 2).1 _).mpr cut

end Font

end CompactFont
