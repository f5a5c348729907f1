import CompactFont.Proofs.ErrorIsolation

set_option autoImplicit false

namespace CompactFont

-- A request, answered with `reply`, turns the cache `before` into the cache `after`.
structure FillsOwnSlot {σ : Type} (font : Font) (request : Request σ) (before : GlyphCache)
    (reply : Except CharstringError (Reply σ)) (after : GlyphCache) : Prop where
  others : ∀ slot, request.slot? font ≠ some slot → after.get? slot = before.get? slot
  kept : ∀ slot drawn, before.get? slot = some drawn → after.get? slot = some drawn
  filled : ∀ slot drawn, before.get? slot = none → after.get? slot = some drawn →
    reply = .ok (request.replyWith drawn)
  served : ∀ answer, reply = .ok answer → ∃ slot drawn, request.slot? font = some slot ∧
    answer = request.replyWith drawn ∧ after.get? slot = some drawn
  failed : ∀ error, reply = .error error → after = before

namespace Font

variable {font : Font}

theorem cache_of_failed {cache : GlyphCache} {glyph : Nat} {error : CharstringError}
    (failed : font.answer cache glyph = .error error) : (font.glyph cache glyph).value.2 = cache := by
  cases found : cache.get? (font.resolve glyph) with
  | some drawn => rw [font.glyph_cached found]
  | none =>
      rw [font.answer_drawn found] at failed
      rw [font.glyph_drawn found]
      dsimp only
      rw [failed]

theorem resolve_lt_of_answer {cache : GlyphCache} (size : cache.slots.size = font.glyphCount)
    {glyph : Nat} {drawn : Glyph Float32} (answered : font.answer cache glyph = .ok drawn) :
    font.resolve glyph < font.glyphCount := by
  cases found : cache.get? (font.resolve glyph) with
  | some other => exact size ▸ GlyphCache.lt_size_of_get found
  | none =>
      by_contra outside
      have none : font.charstrings.get? (font.resolve (font.resolve glyph)) = none := by
        rw [font.resolve_resolve]
        exact Index.get_of_count_le (Nat.not_lt.mp outside)
      have missing : (font.type1Tokens (font.resolve glyph)).outcome = .error (.read .badIndex) := by
        simp only [type1Tokens, decodeType2, charstring, none]
        cases font.dialect <;> rfl
      rw [← font.draw_error_iff cache maxComponentNesting] at missing
      rw [font.answer_drawn found, missing] at answered
      cases answered

theorem get_of_answer {cache : GlyphCache} (size : cache.slots.size = font.glyphCount)
    {glyph : Nat} {drawn : Glyph Float32} (answered : font.answer cache glyph = .ok drawn) :
    (font.glyph cache glyph).value.2.get? (font.resolve glyph) = some drawn := by
  have inside := resolve_lt_of_answer size answered
  cases found : cache.get? (font.resolve glyph) with
  | some other =>
      rw [font.answer_cached found] at answered
      rw [font.glyph_cached found]
      exact found.trans (congrArg some (Except.ok.inj answered))
  | none =>
      rw [font.answer_drawn found] at answered
      rw [font.glyph_drawn found]
      dsimp only
      rw [answered]
      exact GlyphCache.get_insert_self (size ▸ inside) drawn

theorem size_cache_after_all {σ : Type} (requests : List (Request σ)) :
    (font.cacheAfterAll requests).slots.size = font.glyphCount := by
  rw [cache_after_all_eq]
  exact font.size_cache_after _

section Step

variable {σ : Type} {cache : GlyphCache} {request : Request σ}

theorem fills_own_slot_of_selected (size : cache.slots.size = font.glyphCount) {glyph : Nat}
    (selects : request.selected font = .ok glyph) :
    FillsOwnSlot font request cache ((fun drawn => request.replyWith drawn) <$> font.answer cache glyph)
      (font.glyph cache glyph).value.2 where
  others slot different := by
    rw [Request.slot_of_selected selects] at different
    exact font.get_request_other cache (mt (congrArg some) different)
  kept slot drawn found := font.get_request_of_some found glyph
  filled slot drawn empty found := by
    have own : font.resolve glyph = slot := by
      by_contra different
      rw [font.get_request_other cache different, empty] at found
      cases found
    subst own
    cases answered : font.answer cache glyph with
    | error error =>
        rw [cache_of_failed answered, empty] at found
        cases found
    | ok other =>
        rw [get_of_answer size answered] at found
        rw [Option.some.inj found]
        rfl
  served answer done := by
    obtain ⟨drawn, answered, same⟩ := Attempt.except_map_ok done
    exact ⟨font.resolve glyph, drawn, Request.slot_of_selected selects, same,
      get_of_answer size answered⟩
  failed error fails := cache_of_failed (Attempt.except_map_error_iff.mp fails)

theorem fills_own_slot_serve (size : cache.slots.size = font.glyphCount) :
    FillsOwnSlot font request cache (font.serve cache request).value.1
      (font.serve cache request).value.2 := by
  cases selects : request.selected font with
  | ok glyph =>
      rw [font.serve_selected selects]
      exact fills_own_slot_of_selected size selects
  | error error =>
      rw [font.serve_unselected selects]
      exact ⟨fun _ _ => rfl, fun _ _ found => found,
        fun _ _ empty found => absurd (empty.symm.trans found) (Option.some_ne_none _).symm,
        nofun, fun _ _ => rfl⟩

theorem serve_of_get {slot : Nat} {drawn : Glyph Float32} (found : cache.get? slot = some drawn)
    (has : request.slot? font = some slot) :
    (font.serve cache request).value.1 = .ok (request.replyWith drawn) := by
  obtain ⟨glyph, selects, rfl⟩ := Request.selected_of_slot has
  rw [font.serve_selected selects, font.answer_cached found]
  rfl

end Step

theorem get_cache_after_all_append {σ : Type} {earlier : List (Request σ)} {slot : Nat}
    {drawn : Glyph Float32} (found : (font.cacheAfterAll earlier).get? slot = some drawn)
    (later : List (Request σ)) : (font.cacheAfterAll (earlier ++ later)).get? slot = some drawn := by
  induction later using List.reverseRecOn with
  | nil => rwa [List.append_nil]
  | append_singleton later request ih =>
      rw [← List.append_assoc, cache_after_all_append]
      exact (fills_own_slot_serve (size_cache_after_all _)).kept slot drawn ih

theorem slots_are_filled_once {σ : Type} (font : Font) (earlier : List (Request σ))
    (request : Request σ) :
    FillsOwnSlot font request (font.cacheAfterAll earlier)
        (font.serve (font.cacheAfterAll earlier) request).value.1
        (font.cacheAfterAll (earlier ++ [request])) ∧
      ∀ reply, (font.serve (font.cacheAfterAll earlier) request).value.1 = .ok reply →
        ∃ slot drawn, request.slot? font = some slot ∧ reply = request.replyWith drawn ∧
          ∀ (between : List (Request σ)) (later : Request σ), later.slot? font = some slot →
            (font.serve (font.cacheAfterAll (earlier ++ [request] ++ between)) later).value.1 =
              .ok (later.replyWith drawn) := by
  have size : (font.cacheAfterAll earlier).slots.size = font.glyphCount := size_cache_after_all earlier
  have next : font.cacheAfterAll (earlier ++ [request]) =
      (font.serve (font.cacheAfterAll earlier) request).value.2 :=
    font.cache_after_all_append earlier [request]
  have fills := next ▸ fills_own_slot_serve size
  refine ⟨fills, fun reply served => ?_⟩
  obtain ⟨slot, drawn, has, same, found⟩ := fills.served reply served
  refine ⟨slot, drawn, has, same, fun between later asked => ?_⟩
  exact serve_of_get (get_cache_after_all_append found between) asked

def pastChain : List (Request Unit) := [.glyph 9]

theorem chain_part_fills_no_slot :
    (chain.cacheAfterAll (pastChain ++ [.named "A"])).get? 2 = none ∧
      ∃ drawn,
        (chain.serve (chain.cacheAfterAll pastChain) (.named "A" : Request Unit)).value.1 =
            .ok (.glyph drawn) ∧
          (chain.serve (chain.cacheAfterAll (pastChain ++ [.named "A"] ++ [.boundingBox 2]))
              (.advanceWidth 1 : Request Unit)).value.1 = .ok (.width drawn.advanceWidth) := by
  have first : (.glyph 9 : Request Unit).slot? chain = some 0 := by decide +kernel
  have second : (.named "A" : Request Unit).slot? chain = some 1 := by decide +kernel
  have third : (.advanceWidth 1 : Request Unit).slot? chain = some 1 := by decide +kernel
  have answers : (chain.serve (chain.cacheAfterAll pastChain)
      (.named "A" : Request Unit)).value.1.isOk = true := by
    decide +kernel
  obtain ⟨fillsFirst, -⟩ := slots_are_filled_once chain [] (.glyph 9 : Request Unit)
  obtain ⟨fillsSecond, repeats⟩ := slots_are_filled_once chain pastChain (.named "A")
  constructor
  · have empty := fillsFirst.others 2 (by rw [first]; decide)
    have still := fillsSecond.others 2 (by rw [second]; decide)
    exact (still.trans empty).trans (GlyphCache.get_empty _ 2)
  · cases served : (chain.serve (chain.cacheAfterAll pastChain)
        (.named "A" : Request Unit)).value.1 with
    | error error =>
        rw [served] at answers
        cases answers
    | ok reply =>
        obtain ⟨slot, drawn, has, rfl, later⟩ := repeats reply served
        obtain rfl := Option.some.inj (second.symm.trans has)
        exact ⟨drawn, rfl, later [.boundingBox 2] (.advanceWidth 1) third⟩

end Font

end CompactFont
