import CompactFont.Font.Glyphs
import CompactFont.Proofs.PenWithin

set_option autoImplicit false

namespace CompactFont

abbrev Drawing := Except CharstringError (Glyph Float32)

-- Two drawings fail alike, or the outline of the second one has all of the first one in it.
inductive DrawnWithin : Drawing → Drawing → Prop where
  | drawn {small large : Glyph Float32} (within : small.Within large) :
      DrawnWithin (.ok small) (.ok large)
  | failed (error : CharstringError) : DrawnWithin (.error error) (.error error)

namespace DrawnWithin

theorem trans {small middle large : Drawing} (first : DrawnWithin small middle)
    (second : DrawnWithin middle large) : DrawnWithin small large := by
  cases first with
  | drawn within =>
      cases second with
      | drawn more => exact .drawn (Glyph.within_trans within more)
  | failed error => exact second

theorem antisymm {one other : Drawing} (first : DrawnWithin one other)
    (second : DrawnWithin other one) : one = other := by
  cases first with
  | drawn within =>
      cases second with
      | drawn back => exact congrArg Except.ok (Glyph.eq_of_within within back)
  | failed error => rfl

end DrawnWithin

def Drawing.outline : Drawing → Path Float32
  | .ok drawn => drawn.path
  | .error _ => []

theorem DrawnWithin.outline {small large : Drawing} (within : DrawnWithin small large) :
    (Drawing.outline small).Sublist (Drawing.outline large) := by
  cases within with
  | drawn within =>
      obtain ⟨path, kept, rfl⟩ := within
      exact kept
  | failed error => exact .refl _

namespace Font

def partOutline (draw? : Option (Nat → Attempt CharstringError (Glyph Float32))) (part : Nat) :
    Path Float32 :=
  match draw? with
  | none => []
  | some draw => Drawing.outline (draw part).outcome

theorem outline_of_draw_component
    (draw? : Option (Nat → Attempt CharstringError (Glyph Float32))) (glyph : Nat) (name : String)
    (part : Nat) : outlineOf (drawComponent draw? glyph name part) = partOutline draw? part := by
  cases draw? with
  | none => rfl
  | some draw =>
      simp only [outlineOf, drawComponent, partOutline, Report.value_bind, Attempt.outcome]
      cases (draw part).run.value <;> rfl

variable (font : Font)

section Components

variable {few many : Option (Nat → Attempt CharstringError (Glyph Float32))}
  (parts : ∀ part, (partOutline few part).Sublist (partOutline many part))

include parts

theorem component_within (glyph : Nat) (code : Float32) :
    (outlineOf (font.component few glyph code)).Sublist
      (outlineOf (font.component many glyph code)) := by
  simp only [component]
  split
  · split
    · exact .refl _
    · split
      · exact .refl _
      · rw [outline_of_draw_component, outline_of_draw_component]
        exact parts _
  · exact .refl _

theorem draw_with_within (glyph : Nat) :
    DrawnWithin (font.drawWith few glyph).outcome (font.drawWith many glyph).outcome := by
  simp only [drawWith, Attempt.outcome_bind]
  cases (font.type1Tokens glyph).outcome with
  | error error => exact .failed error
  | ok tokens =>
      refine .drawn (Pen.within_finish (Pen.within_run ?_ _))
      by_cases cidKeyed : font.isCidKeyed = true
      · rw [if_pos cidKeyed, if_pos cidKeyed]
        refine ⟨rfl, Iff.rfl, ?_⟩
        intro less more code isLess
        cases isLess
      · rw [if_neg cidKeyed, if_neg cidKeyed]
        refine ⟨rfl, iff_of_false (Option.some_ne_none _) (Option.some_ne_none _), ?_⟩
        intro less more code isLess isMore
        obtain rfl := Option.some.inj isLess
        obtain rfl := Option.some.inj isMore
        exact component_within font parts glyph code

end Components

def drawPart (cache : GlyphCache) (nesting part : Nat) : Attempt CharstringError (Glyph Float32) :=
  match cache.get? part with
  | some drawn => pure drawn
  | none => font.draw cache nesting part

theorem draw_within {few many : GlyphCache} {less more : Nat}
    (parts : ∀ part, (Drawing.outline (font.drawPart few less part).outcome).Sublist
      (Drawing.outline (font.drawPart many more part).outcome)) (glyph : Nat) :
    DrawnWithin (font.draw few (less + 1) glyph).outcome
      (font.draw many (more + 1) glyph).outcome := by
  have outlines (part : Nat) :
      (partOutline (some (font.drawPart few less)) part).Sublist
        (partOutline (some (font.drawPart many more)) part) :=
    parts part
  exact font.draw_with_within outlines glyph

theorem draw_within_refl (cache : GlyphCache) (nesting glyph : Nat) :
    DrawnWithin (font.draw cache nesting glyph).outcome (font.draw cache nesting glyph).outcome := by
  cases nesting with
  | zero => exact font.draw_with_within (fun _ => .refl _) glyph
  | succ nesting => exact font.draw_within (fun _ => .refl _) glyph

theorem draw_within_succ (cache : GlyphCache) (nesting glyph : Nat) :
    DrawnWithin (font.draw cache nesting glyph).outcome
      (font.draw cache (nesting + 1) glyph).outcome := by
  induction nesting generalizing glyph with
  | zero =>
      have nothing (part : Nat) :
          (partOutline none part).Sublist (partOutline (some (font.drawPart cache 0)) part) :=
        List.nil_sublist _
      exact font.draw_with_within nothing glyph
  | succ nesting ih =>
      refine font.draw_within (fun part => ?_) glyph
      unfold drawPart
      cases cache.get? part with
      | some drawn => exact .refl _
      | none => exact (ih part).outline

theorem draw_within_deeper (cache : GlyphCache) {few many : Nat} (deeper : few ≤ many)
    (glyph : Nat) :
    DrawnWithin (font.draw cache few glyph).outcome (font.draw cache many glyph).outcome := by
  induction deeper with
  | refl => exact font.draw_within_refl cache few glyph
  | step _ ih => exact ih.trans (font.draw_within_succ cache _ glyph)

theorem draw_congr {one other : GlyphCache} (same : ∀ glyph, one.get? glyph = other.get? glyph)
    (nesting : Nat) : font.draw one nesting = font.draw other nesting := by
  induction nesting with
  | zero => rfl
  | succ nesting ih =>
      have parts : font.drawPart one nesting = font.drawPart other nesting := by
        funext part
        rw [drawPart, drawPart, same, ih]
      exact congrArg (fun draw => font.drawWith (some draw)) parts

end Font

end CompactFont
