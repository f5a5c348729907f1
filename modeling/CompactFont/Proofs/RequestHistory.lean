import CompactFont.Proofs.IndexReading
import CompactFont.Proofs.DrawnWithin
import Mathlib.Data.List.Induction

set_option autoImplicit false

namespace CompactFont

namespace GlyphCache

theorem get_empty (glyphs glyph : Nat) : (empty glyphs).get? glyph = none := by
  simp only [empty, get?, Array.getElem?_replicate]
  split <;> rfl

theorem lt_size_of_get {cache : GlyphCache} {glyph : Nat} {drawn : Glyph Float32}
    (found : cache.get? glyph = some drawn) : glyph < cache.slots.size := by
  by_cases inside : glyph < cache.slots.size
  · exact inside
  · rw [get?, Array.getElem?_eq_none (Nat.not_lt.mp inside)] at found
    cases found

theorem size_insert (cache : GlyphCache) (glyph : Nat) (drawn : Glyph Float32) :
    (cache.insert glyph drawn).slots.size = cache.slots.size :=
  Array.size_setIfInBounds

theorem get_insert_self {cache : GlyphCache} {glyph : Nat} (inside : glyph < cache.slots.size)
    (drawn : Glyph Float32) : (cache.insert glyph drawn).get? glyph = some drawn := by
  rw [get?, insert, Array.getElem?_setIfInBounds_self_of_lt inside]
  rfl

theorem get_insert_other (cache : GlyphCache) {glyph other : Nat} (different : glyph ≠ other)
    (drawn : Glyph Float32) : (cache.insert glyph drawn).get? other = cache.get? other := by
  rw [get?, get?, insert, Array.getElem?_setIfInBounds_ne different]

end GlyphCache

namespace Font

variable (font : Font)

def fresh (glyph : Nat) : Drawing :=
  (font.draw (.empty font.glyphCount) maxComponentNesting glyph).outcome

def answer (cache : GlyphCache) (glyph : Nat) : Drawing := (font.glyph cache glyph).value.1

def cacheAfter (history : List Nat) : GlyphCache :=
  history.foldl (fun cache glyph => (font.glyph cache glyph).value.2) (.empty font.glyphCount)

theorem cache_after_append (history : List Nat) (glyph : Nat) :
    font.cacheAfter (history ++ [glyph]) = (font.glyph (font.cacheAfter history) glyph).value.2 := by
  rw [cacheAfter, List.foldl_append]
  rfl

theorem glyph_cached {cache : GlyphCache} {glyph : Nat} {drawn : Glyph Float32}
    (found : cache.get? (font.resolve glyph) = some drawn) :
    (font.glyph cache glyph).value = (.ok drawn, cache) := by
  simp only [Font.glyph, found]
  rfl

theorem glyph_drawn {cache : GlyphCache} {glyph : Nat}
    (missing : cache.get? (font.resolve glyph) = none) :
    (font.glyph cache glyph).value =
      ((font.draw cache maxComponentNesting (font.resolve glyph)).outcome,
        match (font.draw cache maxComponentNesting (font.resolve glyph)).outcome with
        | .ok drawn => cache.insert (font.resolve glyph) drawn
        | .error _ => cache) := by
  simp only [Font.glyph, missing, Report.value_bind, Attempt.outcome]
  cases (font.draw cache maxComponentNesting (font.resolve glyph)).run.value <;> rfl

theorem answer_cached {cache : GlyphCache} {glyph : Nat} {drawn : Glyph Float32}
    (found : cache.get? (font.resolve glyph) = some drawn) :
    font.answer cache glyph = .ok drawn := by
  rw [answer, font.glyph_cached found]

theorem answer_drawn {cache : GlyphCache} {glyph : Nat}
    (missing : cache.get? (font.resolve glyph) = none) :
    font.answer cache glyph = (font.draw cache maxComponentNesting (font.resolve glyph)).outcome := by
  rw [answer, font.glyph_drawn missing]

theorem resolve_of_lt {glyph : Nat} (inside : glyph < font.glyphCount) :
    font.resolve glyph = glyph :=
  if_pos inside

structure Holds (cache : GlyphCache) (property : Nat → Glyph Float32 → Prop) : Prop where
  size : cache.slots.size = font.glyphCount
  drawings : ∀ glyph drawn, cache.get? glyph = some drawn → property glyph drawn

section Histories

variable {font} {property : Nat → Glyph Float32 → Prop}

theorem holds_empty : font.Holds (.empty font.glyphCount) property where
  size := Array.size_replicate
  drawings glyph drawn found := by
    rw [GlyphCache.get_empty] at found
    cases found

theorem Holds.lt {cache : GlyphCache} (holds : font.Holds cache property) {glyph : Nat}
    {drawn : Glyph Float32} (found : cache.get? glyph = some drawn) : glyph < font.glyphCount :=
  holds.size ▸ GlyphCache.lt_size_of_get found

theorem holds_insert {cache : GlyphCache} (holds : font.Holds cache property) {glyph : Nat}
    {drawn : Glyph Float32} (has : property glyph drawn) :
    font.Holds (cache.insert glyph drawn) property where
  size := (cache.size_insert glyph drawn).trans holds.size
  drawings other found present := by
    by_cases same : glyph = other
    · subst same
      have inside := GlyphCache.lt_size_of_get present
      rw [cache.size_insert] at inside
      rw [GlyphCache.get_insert_self inside] at present
      exact Option.some.inj present ▸ has
    · rw [cache.get_insert_other same] at present
      exact holds.drawings other found present

theorem holds_request {cache : GlyphCache} (holds : font.Holds cache property) (glyph : Nat)
    (has : ∀ drawn, cache.get? (font.resolve glyph) = none → font.answer cache glyph = .ok drawn →
      property (font.resolve glyph) drawn) :
    font.Holds (font.glyph cache glyph).value.2 property := by
  cases found : cache.get? (font.resolve glyph) with
  | some drawn =>
      rw [font.glyph_cached found]
      exact holds
  | none =>
      rw [font.answer_drawn found] at has
      rw [font.glyph_drawn found]
      cases outcome : (font.draw cache maxComponentNesting (font.resolve glyph)).outcome with
      | error error => exact holds
      | ok drawn => exact holds_insert holds (has drawn found outcome)

theorem holds_cache_after
    (kept : ∀ history glyph drawn, font.Holds (font.cacheAfter history) property →
      (font.cacheAfter history).get? (font.resolve glyph) = none →
      font.answer (font.cacheAfter history) glyph = .ok drawn → property (font.resolve glyph) drawn)
    (history : List Nat) : font.Holds (font.cacheAfter history) property := by
  induction history using List.reverseRecOn with
  | nil => exact holds_empty
  | append_singleton history glyph ih =>
      rw [cache_after_append]
      exact holds_request ih glyph fun drawn => kept history glyph drawn ih

end Histories

theorem size_cache_after (history : List Nat) :
    (font.cacheAfter history).slots.size = font.glyphCount := by
  have holds : font.Holds (font.cacheAfter history) fun _ _ => True :=
    holds_cache_after (fun _ _ _ _ _ _ => trivial) history
  exact holds.size

theorem draw_within_succ_of_parts {few many : GlyphCache} {nesting : Nat}
    (kept : ∀ part drawn, few.get? part = some drawn →
      ∃ more, many.get? part = some more ∧ drawn.path.Sublist more.path)
    (gained : ∀ part more, few.get? part = none → many.get? part = some more →
      (Drawing.outline (font.draw few nesting part).outcome).Sublist more.path)
    (deeper : ∀ part, few.get? part = none → many.get? part = none →
      DrawnWithin (font.draw few nesting part).outcome (font.draw many nesting part).outcome)
    (glyph : Nat) :
    DrawnWithin (font.draw few (nesting + 1) glyph).outcome
      (font.draw many (nesting + 1) glyph).outcome := by
  refine font.draw_within (fun part => ?_) glyph
  unfold drawPart
  cases before : few.get? part with
  | some drawn =>
      obtain ⟨more, after, sublist⟩ := kept part drawn before
      rw [after]
      exact sublist
  | none =>
      cases after : many.get? part with
      | some more => exact gained part more before after
      | none => exact (deeper part before after).outline

theorem fresh_within_draw {cache : GlyphCache}
    (holds : font.Holds cache fun glyph drawn => DrawnWithin (font.fresh glyph) (.ok drawn))
    {nesting : Nat} (least : nesting ≤ maxComponentNesting) (glyph : Nat) :
    DrawnWithin (font.draw (.empty font.glyphCount) nesting glyph).outcome
      (font.draw cache nesting glyph).outcome := by
  induction nesting generalizing glyph with
  | zero => exact font.draw_within_refl _ 0 glyph
  | succ nesting ih =>
      have smaller : nesting ≤ maxComponentNesting := Nat.le_of_succ_le least
      refine font.draw_within_succ_of_parts ?_ ?_ (fun part _ _ => ih smaller part) glyph
      · intro part drawn found
        rw [GlyphCache.get_empty] at found
        cases found
      · intro part more _ found
        exact ((font.draw_within_deeper _ smaller part).trans (holds.drawings part more found)).outline

theorem fresh_within_answer {cache : GlyphCache}
    (holds : font.Holds cache fun glyph drawn => DrawnWithin (font.fresh glyph) (.ok drawn))
    (glyph : Nat) : DrawnWithin (font.fresh (font.resolve glyph)) (font.answer cache glyph) := by
  cases found : cache.get? (font.resolve glyph) with
  | some drawn =>
      rw [font.answer_cached found]
      exact holds.drawings _ drawn found
  | none =>
      rw [font.answer_drawn found]
      exact font.fresh_within_draw holds (Nat.le_refl _) _

theorem holds_fresh_within (history : List Nat) :
    font.Holds (font.cacheAfter history) fun glyph drawn =>
      DrawnWithin (font.fresh glyph) (.ok drawn) := by
  refine holds_cache_after (fun history glyph drawn holds _ answered => ?_) history
  rw [← answered]
  exact font.fresh_within_answer holds glyph

def othersDrawn (glyph : Nat) : GlyphCache :=
  ⟨(Array.range font.glyphCount).map fun other =>
    if other = glyph then none else (font.fresh other).toOption⟩

theorem get_others_drawn (glyph other : Nat) :
    (font.othersDrawn glyph).get? other =
      if other < font.glyphCount ∧ other ≠ glyph then (font.fresh other).toOption else none := by
  rw [GlyphCache.get?, othersDrawn]
  by_cases inside : other < font.glyphCount
  · simp only [inside, Array.getElem?_map, Array.getElem?_range, if_true, Option.map_some,
      Option.join_some, true_and, ite_not]
  · simp [inside]

def Consistent (cache : GlyphCache) : Prop :=
  font.Holds cache fun glyph drawn => font.fresh glyph = .ok drawn

theorem consistent_others_drawn (glyph : Nat) : font.Consistent (font.othersDrawn glyph) where
  size := by simp [othersDrawn]
  drawings other drawn found := by
    rw [get_others_drawn] at found
    split at found
    · cases outcome : font.fresh other with
      | error error =>
          rw [outcome] at found
          cases found
      | ok same =>
          rw [outcome] at found
          exact congrArg Except.ok (Option.some.inj found)
    · cases found

theorem others_drawn_of_consistent {cache : GlyphCache} (consistent : font.Consistent cache)
    {glyph : Nat} (missing : cache.get? glyph = none) (other : Nat) (drawn : Glyph Float32)
    (found : cache.get? other = some drawn) :
    (font.othersDrawn glyph).get? other = some drawn := by
  have different : other ≠ glyph := by
    rintro rfl
    rw [missing] at found
    cases found
  rw [get_others_drawn, if_pos ⟨consistent.lt found, different⟩, consistent.drawings _ _ found]
  rfl

theorem answer_others_drawn (glyph : Nat) :
    font.answer (font.othersDrawn (font.resolve glyph)) glyph =
      (font.draw (font.othersDrawn (font.resolve glyph)) maxComponentNesting
        (font.resolve glyph)).outcome := by
  have missing : (font.othersDrawn (font.resolve glyph)).get? (font.resolve glyph) = none := by
    rw [get_others_drawn]
    exact if_neg fun both => both.2 rfl
  rw [font.answer_drawn missing]

section Alike

variable (alike : ∀ glyph,
  font.answer (font.othersDrawn (font.resolve glyph)) glyph = font.fresh (font.resolve glyph))

include alike

-- A glyph that is in the cache has all of a drawing of it at any depth, so a larger cache never
-- takes anything away.
theorem draw_within_of_subset {nesting : Nat} (least : nesting ≤ maxComponentNesting)
    {few many : GlyphCache} (consistentFew : font.Consistent few)
    (consistentMany : font.Consistent many)
    (subset : ∀ glyph drawn, few.get? glyph = some drawn → many.get? glyph = some drawn)
    (glyph : Nat) :
    DrawnWithin (font.draw few nesting glyph).outcome (font.draw many nesting glyph).outcome := by
  induction nesting generalizing few many glyph with
  | zero => exact font.draw_within_refl _ 0 glyph
  | succ nesting ih =>
      have smaller : nesting ≤ maxComponentNesting := Nat.le_of_succ_le least
      have deeper (part : Nat) := ih smaller consistentFew consistentMany subset part
      refine font.draw_within_succ_of_parts ?_ ?_ (fun part _ _ => deeper part) glyph
      · intro part drawn found
        exact ⟨drawn, subset part drawn found, .refl _⟩
      · intro part more missing found
        have inside := font.resolve_of_lt (consistentMany.lt found)
        have others := alike part
        rw [answer_others_drawn, inside, consistentMany.drawings part more found] at others
        have first := ih smaller consistentFew (font.consistent_others_drawn part)
          (font.others_drawn_of_consistent consistentFew missing) part
        have second := font.draw_within_deeper (font.othersDrawn part) smaller part
        rw [others] at second
        exact (first.trans second).outline

theorem answer_of_consistent {cache : GlyphCache} (consistent : font.Consistent cache)
    (glyph : Nat) : font.answer cache glyph = font.fresh (font.resolve glyph) := by
  cases found : cache.get? (font.resolve glyph) with
  | some drawn =>
      rw [font.answer_cached found]
      exact (consistent.drawings _ drawn found).symm
  | none =>
      have grown : font.Holds cache fun glyph drawn => DrawnWithin (font.fresh glyph) (.ok drawn) :=
        { size := consistent.size
          drawings := fun glyph drawn present =>
            consistent.drawings glyph drawn present ▸ font.draw_within_refl _ _ glyph }
      have more := font.draw_within_of_subset alike (Nat.le_refl _) consistent
        (font.consistent_others_drawn (font.resolve glyph))
        (font.others_drawn_of_consistent consistent found) (font.resolve glyph)
      rw [← answer_others_drawn, alike] at more
      rw [font.answer_drawn found]
      exact more.antisymm (font.fresh_within_draw grown (Nat.le_refl _) _)

theorem consistent_cache_after (history : List Nat) : font.Consistent (font.cacheAfter history) := by
  refine holds_cache_after (fun history glyph drawn holds _ answered => ?_) history
  rw [← font.answer_of_consistent alike holds glyph, answered]

end Alike

theorem answer_empty (glyph : Nat) :
    font.answer (.empty font.glyphCount) glyph = font.fresh (font.resolve glyph) := by
  rw [font.answer_drawn (GlyphCache.get_empty _ _)]
  rfl

theorem answer_congr {one other : GlyphCache} (same : ∀ glyph, one.get? glyph = other.get? glyph)
    (glyph : Nat) : font.answer one glyph = font.answer other glyph := by
  rw [answer, answer]
  cases found : one.get? (font.resolve glyph) with
  | some drawn => rw [font.glyph_cached found, font.glyph_cached (same _ ▸ found)]
  | none =>
      rw [font.glyph_drawn found, font.glyph_drawn (same _ ▸ found),
        font.draw_congr same maxComponentNesting]

theorem get_request_of_some {cache : GlyphCache} {glyph : Nat} {drawn : Glyph Float32}
    (found : cache.get? glyph = some drawn) (request : Nat) :
    (font.glyph cache request).value.2.get? glyph = some drawn := by
  cases cached : cache.get? (font.resolve request) with
  | some other =>
      rw [font.glyph_cached cached]
      exact found
  | none =>
      have different : font.resolve request ≠ glyph := by
        rintro rfl
        rw [cached] at found
        cases found
      rw [font.glyph_drawn cached]
      cases (font.draw cache maxComponentNesting (font.resolve request)).outcome with
      | error error => exact found
      | ok added => exact (cache.get_insert_other different added).trans found

theorem get_request_other (cache : GlyphCache) {glyph request : Nat}
    (different : font.resolve request ≠ glyph) :
    (font.glyph cache request).value.2.get? glyph = cache.get? glyph := by
  cases cached : cache.get? (font.resolve request) with
  | some other => rw [font.glyph_cached cached]
  | none =>
      rw [font.glyph_drawn cached]
      cases (font.draw cache maxComponentNesting (font.resolve request)).outcome with
      | error error => rfl
      | ok added => exact cache.get_insert_other different added

theorem get_cache_after_unrequested {glyph : Nat} {history : List Nat}
    (others : ∀ request ∈ history, font.resolve request ≠ glyph) :
    (font.cacheAfter history).get? glyph = none := by
  induction history using List.reverseRecOn with
  | nil => exact GlyphCache.get_empty _ _
  | append_singleton history last ih =>
      have earlier : ∀ request ∈ history, font.resolve request ≠ glyph :=
        fun request member => others request (List.mem_append_left _ member)
      have latest := others last (List.mem_append_right _ (List.mem_singleton_self last))
      rw [cache_after_append, font.get_request_other _ latest]
      exact ih earlier

section Transparent

variable (transparent : ∀ history glyph,
  font.answer (font.cacheAfter history) glyph = font.fresh (font.resolve glyph))

include transparent

theorem consistent_of_transparent (history : List Nat) :
    font.Consistent (font.cacheAfter history) := by
  refine holds_cache_after (fun history glyph drawn _ _ answered => ?_) history
  rw [← transparent history glyph, answered]

theorem get_cache_after_requested {glyph : Nat} (inside : glyph < font.glyphCount)
    {drawn : Glyph Float32} (draws : font.fresh glyph = .ok drawn) {history : List Nat}
    (requested : glyph ∈ history) : (font.cacheAfter history).get? glyph = some drawn := by
  induction history using List.reverseRecOn with
  | nil => cases requested
  | append_singleton history last ih =>
      have consistent := font.consistent_of_transparent transparent history
      rw [cache_after_append]
      rcases List.mem_append.mp requested with earlier | latest
      · exact font.get_request_of_some (ih earlier) last
      · obtain rfl := List.mem_singleton.mp latest
        have resolved := font.resolve_of_lt inside
        cases cached : (font.cacheAfter history).get? (font.resolve glyph) with
        | some other =>
            rw [resolved] at cached
            have same := consistent.drawings glyph other cached
            rw [draws] at same
            rw [Except.ok.inj same]
            exact font.get_request_of_some cached glyph
        | none =>
            have answered := transparent history glyph
            rw [font.answer_drawn cached, resolved, draws] at answered
            rw [font.glyph_drawn cached, resolved]
            dsimp only at answered ⊢
            rw [answered]
            exact GlyphCache.get_insert_self (consistent.size ▸ inside) drawn

theorem get_cache_after_others (glyph other : Nat) :
    (font.cacheAfter ((List.range font.glyphCount).filter (· ≠ glyph))).get? other =
      (font.othersDrawn glyph).get? other := by
  have consistent := font.consistent_of_transparent transparent
    ((List.range font.glyphCount).filter (· ≠ glyph))
  rw [get_others_drawn]
  split
  · rename_i requested
    have member : other ∈ (List.range font.glyphCount).filter (· ≠ glyph) := by
      simpa using requested
    cases outcome : font.fresh other with
    | ok drawn => exact font.get_cache_after_requested transparent requested.1 outcome member
    | error error =>
        cases found : (font.cacheAfter _).get? other with
        | none => rfl
        | some drawn =>
            have drawable := consistent.drawings other drawn found
            rw [outcome] at drawable
            cases drawable
  · rename_i unrequested
    apply font.get_cache_after_unrequested
    intro request member
    obtain ⟨inside, different⟩ : request < font.glyphCount ∧ request ≠ glyph := by
      simpa using member
    rw [font.resolve_of_lt inside]
    rintro rfl
    exact unrequested ⟨inside, different⟩

end Transparent

/-- Earlier requests only ever add to the outline of a glyph. They add nothing at all, whatever they
were, if and only if no glyph gets more when all the others are in the cache as a new font draws
them. -/
theorem requests_repeat_iff :
    (∀ history glyph, DrawnWithin (font.answer (.empty font.glyphCount) glyph)
        (font.answer (font.cacheAfter history) glyph)) ∧
      ((∀ history glyph, font.answer (font.cacheAfter history) glyph =
          font.answer (.empty font.glyphCount) glyph) ↔
        ∀ glyph, font.answer (font.othersDrawn (font.resolve glyph)) glyph =
          font.answer (.empty font.glyphCount) glyph) := by
  simp only [answer_empty]
  refine ⟨fun history glyph => ?_, fun transparent glyph => ?_, fun alike history glyph => ?_⟩
  · exact font.fresh_within_answer (font.holds_fresh_within history) glyph
  · have others := font.get_cache_after_others transparent (font.resolve glyph)
    rw [← font.answer_congr others glyph]
    exact transparent _ glyph
  · exact font.answer_of_consistent alike (font.consistent_cache_after alike history) glyph

-- Glyphs 1, 2 and 3 are each composed of the next one, and glyph 4 is a triangle. One of the
-- components of glyph 1 is nested too deeply to be drawn with it.
def chain : Font where
  name := "Chain"
  top := ⟨[]⟩
  charstrings := .ofObjects 1
    [[14], [139, 139, 205, 139, 14], [139, 139, 206, 139, 14], [139, 139, 207, 139, 14],
      [139, 139, 21, 239, 6, 239, 7, 14]]
  charset := .custom (.ids #[34, 35, 36, 37])
  keying := .names .standard ⟨⟨[]⟩, none⟩
  matrix := .perThousand
  dialect := .type2
  globalSubrs := .empty
  strings := ⟨.empty⟩

theorem chain_requests_differ :
    chain.answer (chain.cacheAfter [2]) 1 ≠ chain.answer (.empty chain.glyphCount) 1 := by
  intro same
  have later : (Drawing.outline (chain.answer (chain.cacheAfter [2]) 1)).length = 4 := by
    decide +kernel
  have first : (Drawing.outline (chain.answer (.empty chain.glyphCount) 1)).length = 0 := by
    decide +kernel
  rw [same, first] at later
  cases later

end Font

end CompactFont
