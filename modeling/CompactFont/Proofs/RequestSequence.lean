import CompactFont.Font.Requests
import CompactFont.Proofs.RequestHistory

set_option autoImplicit false

namespace CompactFont

theorem Served.value_map {α β : Type} (f : α → β) (served : Served α) :
    (Served.map f served).value = (f <$> served.value.1, served.value.2) := rfl

namespace Request

variable {σ : Type}

def selected (font : Font) : Request σ → Except ReadError Nat
  | .named name => font.glyphOfName name
  | .withCid cid => font.glyphOfCid cid
  | .glyph id | .advanceWidth id | .boundingBox id | .visit id _ => .ok id

def slot? (font : Font) (request : Request σ) : Option Nat :=
  (request.selected font).toOption.map font.resolve

def replyWith (drawn : Glyph Float32) : Request σ → Reply σ
  | .glyph _ | .named _ | .withCid _ => .glyph drawn
  | .advanceWidth _ => .width drawn.advanceWidth
  | .boundingBox _ => .box drawn.box
  | .visit _ sink => .visited (sink.replay drawn.path)

theorem slot_of_selected {font : Font} {request : Request σ} {glyph : Nat}
    (selects : request.selected font = .ok glyph) : request.slot? font = some (font.resolve glyph) := by
  rw [slot?, selects]
  rfl

theorem selected_of_slot {font : Font} {request : Request σ} {slot : Nat}
    (has : request.slot? font = some slot) :
    ∃ glyph, request.selected font = .ok glyph ∧ slot = font.resolve glyph := by
  rw [slot?] at has
  cases selects : request.selected font with
  | error error =>
      rw [selects] at has
      cases has
  | ok glyph =>
      rw [selects] at has
      exact ⟨glyph, rfl, (Option.some.inj has).symm⟩

end Request

namespace Font

variable (font : Font) {σ : Type}

theorem value_selected_glyph (cache : GlyphCache) (selected : Except ReadError Nat) :
    (font.selectedGlyph cache selected).value =
      match selected with
      | .ok glyph => (font.glyph cache glyph).value
      | .error error => (.error (.read error), cache) := by
  cases selected with
  | ok glyph => rfl
  | error error => rfl

theorem value_serve (cache : GlyphCache) (request : Request σ) :
    (font.serve cache request).value =
      match request.selected font with
      | .ok glyph =>
          ((fun drawn => request.replyWith drawn) <$> font.answer cache glyph,
            (font.glyph cache glyph).value.2)
      | .error error => (.error (.read error), cache) := by
  have measured {α : Type} (measure : Glyph Float32 → α) (reply : α → Reply σ) (glyph : Nat) :
      (Served.map reply (Served.map measure (font.glyph cache glyph))).value =
        ((fun drawn => reply (measure drawn)) <$> font.answer cache glyph,
          (font.glyph cache glyph).value.2) := by
    rw [Served.value_map, Served.value_map, answer]
    cases (font.glyph cache glyph).value.1 <;> rfl
  have chosen (selected : Except ReadError Nat) :
      (Served.map (Reply.glyph : Glyph Float32 → Reply σ) (font.selectedGlyph cache selected)).value =
        match selected with
        | .ok glyph =>
            (Reply.glyph <$> font.answer cache glyph, (font.glyph cache glyph).value.2)
        | .error error => (.error (.read error), cache) := by
    rw [Served.value_map, value_selected_glyph]
    cases selected with
    | ok glyph => rfl
    | error error => rfl
  cases request with
  | glyph glyph => rfl
  | named name => exact chosen (font.glyphOfName name)
  | withCid cid => exact chosen (font.glyphOfCid cid)
  | advanceWidth glyph => exact measured Glyph.advanceWidth .width glyph
  | boundingBox glyph => exact measured Glyph.box .box glyph
  | visit glyph sink => exact measured (fun drawn => sink.replay drawn.path) .visited glyph

theorem serve_selected {cache : GlyphCache} {request : Request σ} {glyph : Nat}
    (selects : request.selected font = .ok glyph) :
    (font.serve cache request).value =
      ((fun drawn => request.replyWith drawn) <$> font.answer cache glyph,
        (font.glyph cache glyph).value.2) := by
  rw [value_serve, selects]

theorem serve_unselected {cache : GlyphCache} {request : Request σ} {error : ReadError}
    (fails : request.selected font = .error error) :
    (font.serve cache request).value = (.error (.read error), cache) := by
  rw [value_serve, fails]

def cacheAfterAll (requests : List (Request σ)) : GlyphCache :=
  requests.foldl (fun cache request => (font.serve cache request).value.2) (.empty font.glyphCount)

theorem cache_after_all_append (earlier later : List (Request σ)) :
    font.cacheAfterAll (earlier ++ later) =
      later.foldl (fun cache request => (font.serve cache request).value.2)
        (font.cacheAfterAll earlier) :=
  List.foldl_append

theorem cache_after_all_eq (requests : List (Request σ)) :
    font.cacheAfterAll requests =
      font.cacheAfter (requests.filterMap fun request => (request.selected font).toOption) := by
  induction requests using List.reverseRecOn with
  | nil => rfl
  | append_singleton requests request ih =>
      rw [cache_after_all_append, List.foldl_cons, List.foldl_nil, ih, List.filterMap_append]
      cases selects : request.selected font with
      | ok glyph =>
          rw [font.serve_selected selects]
          simp [selects, Except.toOption, cache_after_append]
      | error error =>
          rw [font.serve_unselected selects]
          simp [selects, Except.toOption]

end Font

end CompactFont
