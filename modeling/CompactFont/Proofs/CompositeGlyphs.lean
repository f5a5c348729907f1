import CompactFont.Proofs.Composition
import CompactFont.Proofs.ErrorIsolation
import CompactFont.Proofs.StandardCodes

set_option autoImplicit false

namespace CompactFont

namespace Pen

section Growth

variable {C : Type}

-- The second pen has added to the path of the first one. If no subpath was open, this begins with a
-- move, or nothing was added and none is open yet.
def Continues (before after : Pen C) : Prop :=
  ∃ added, after.path = before.path ++ added ∧
    (before.isOpen = false →
      (added = [] ∧ after.isOpen = false) ∨ ∃ target rest, added = .move target :: rest)

theorem continues_of_path_eq {before after : Pen C} (path : after.path = before.path)
    (closed : before.isOpen = false → after.isOpen = false) : before.Continues after :=
  ⟨[], by rw [path, List.append_nil], fun isClosed => .inl ⟨rfl, closed isClosed⟩⟩

theorem continues_refl (pen : Pen C) : pen.Continues pen := continues_of_path_eq rfl id

theorem continues_trans {first second third : Pen C} (head : first.Continues second)
    (tail : second.Continues third) : first.Continues third := by
  obtain ⟨added, path, begins⟩ := head
  obtain ⟨more, longer, goesOn⟩ := tail
  refine ⟨added ++ more, by rw [longer, path, List.append_assoc], fun closed => ?_⟩
  rcases begins closed with ⟨rfl, stillClosed⟩ | ⟨target, rest, rfl⟩
  · exact goesOn stillClosed
  · exact .inr ⟨target, rest ++ more, rfl⟩

theorem continues_of_move {before after : Pen C} {target : Point C}
    (moved : after.reversed = .move target :: before.reversed) : before.Continues after :=
  ⟨[.move target], by rw [path, path, moved, List.reverse_cons], fun _ => .inr ⟨target, [], rfl⟩⟩

theorem continues_of_open {before after : Pen C} (isOpen : before.isOpen = true)
    {command : PathCommand C} (drawn : after.reversed = command :: before.reversed) :
    before.Continues after := by
  refine ⟨[command], by rw [path, path, drawn, List.reverse_cons], fun closed => ?_⟩
  rw [isOpen] at closed
  cases closed

theorem continues_ensure_open (pen : Pen C) (glyph : Nat) :
    pen.Continues (pen.ensureOpen glyph).value ∧ (pen.ensureOpen glyph).value.isOpen = true := by
  rw [value_ensure_open]
  by_cases isOpen : pen.isOpen = true
  · rw [if_pos isOpen]
    exact ⟨continues_refl pen, isOpen⟩
  · rw [if_neg isOpen]
    exact ⟨continues_of_move rfl, rfl⟩

theorem continues_close (pen : Pen C) (glyph : Nat) : pen.Continues (pen.close glyph).value := by
  unfold close
  by_cases isOpen : pen.isOpen = true
  · rw [if_pos isOpen]
    exact continues_of_open isOpen rfl
  · rw [if_neg isOpen]
    exact continues_refl pen

variable [Coordinate C]

theorem continues_move_by (pen : Pen C) (delta : Point C) : pen.Continues (pen.moveBy delta) := by
  unfold moveBy
  cases pen.flex? with
  | some points => exact continues_of_path_eq rfl id
  | none => exact continues_of_move rfl

theorem continues_line_by (pen : Pen C) (glyph : Nat) (delta : Point C) :
    pen.Continues (pen.lineBy glyph delta).value := by
  obtain ⟨opened, isOpen⟩ := pen.continues_ensure_open glyph
  exact continues_trans opened (continues_of_open isOpen rfl)

theorem continues_curve_by (pen : Pen C) (glyph : Nat) (delta₁ delta₂ delta₃ : Point C) :
    pen.Continues (pen.curveBy glyph delta₁ delta₂ delta₃).value := by
  obtain ⟨opened, isOpen⟩ := pen.continues_ensure_open glyph
  exact continues_trans opened (continues_of_open isOpen rfl)

theorem continues_end_flex (pen : Pen C) (glyph : Nat) : pen.Continues (pen.endFlex glyph).value := by
  have left : pen.Continues { pen with flex? := none } := continues_of_path_eq rfl id
  refine continues_trans left ?_
  unfold endFlex
  split
  · exact continues_trans (continues_curve_by _ glyph _ _ _) (continues_curve_by _ glyph _ _ _)
  · exact continues_refl _

theorem continues_othersubr (pen : Pen C) (glyph : Nat) (number : Int) :
    pen.Continues (pen.othersubr glyph number).value := by
  unfold othersubr
  split
  · exact continues_end_flex pen glyph
  · exact continues_of_path_eq rfl id
  · exact continues_refl pen

variable (setting : Setting C)

theorem continues_operate (pen : Pen C) {op : Type1Op} (noParts : op ≠ .seac) (arguments : List C) :
    pen.Continues (pen.operate setting op arguments).value := by
  fun_cases pen.operate setting op arguments with
  | case1 | case2 | case3 => exact continues_move_by pen _
  | case4 | case5 | case6 => exact continues_line_by pen _ _
  | case7 | case8 | case9 => exact continues_curve_by pen _ _ _ _
  | case10 => exact continues_close pen _
  | case18 => exact continues_othersubr pen _ _
  | case19 => exact absurd rfl noParts
  | _ => exact continues_of_path_eq rfl id

theorem continues_step (waiting : Waiting C) {token : Token Type1Op C}
    (noParts : token ≠ .operator .seac) :
    waiting.pen.Continues (step setting waiting token).value.pen := by
  unfold step
  by_cases ended : waiting.pen.ended = true
  · rw [if_pos ended]
    exact continues_refl _
  · rw [if_neg ended]
    cases token with
    | number value => exact continues_refl _
    | mask bytes => exact continues_refl _
    | operator op =>
        have isOther : op ≠ .seac := fun same => noParts (congrArg _ same)
        have operated := continues_operate setting waiting.pen isOther waiting.numbers.reverse
        cases op with
        | div => exact continues_refl _
        | _ => exact operated

theorem continues_run (tokens : List (Token Type1Op C)) (noParts : .operator .seac ∉ tokens)
    (waiting : Waiting C) :
    waiting.pen.Continues (tokens.foldlM (step setting) waiting).value.pen := by
  induction tokens generalizing waiting with
  | nil => exact continues_refl _
  | cons token rest ih =>
      have different : token ≠ .operator .seac := fun same => noParts (same ▸ List.mem_cons_self)
      have later : .operator .seac ∉ rest := fun member => noParts (List.mem_cons_of_mem _ member)
      rw [List.foldlM_cons]
      exact continues_trans (continues_step setting waiting different) (ih later _)

end Growth

theorem value_compose {C : Type} [Coordinate C] {setting : Setting C}
    {component : C → Report (Option (Path C))} (named : setting.component? = some component)
    (pen : Pen C) (accentBearing dx dy base accent : C) :
    (pen.compose setting accentBearing dx dy base accent).value =
      { pen with
        reversed := (outlineOf (component base) ++ (outlineOf (component accent)).translate
          ⟨pen.bearing.x + dx - accentBearing, pen.bearing.y + dy⟩).reverse ++ pen.reversed
        isOpen := false } := by
  simp only [compose, named]
  rfl

section Closed

variable {C : Type} [Coordinate C] {pen : Pen C} (closed : pen.isOpen = false)

include closed

theorem path_line_by_of_closed (glyph : Nat) (delta : Point C) :
    (pen.lineBy glyph delta).value.path =
      pen.path ++ [.move pen.current, .line (pen.current + delta)] := by
  rw [lineBy, Report.value_bind, value_ensure_open, closed]
  simp [path, add]

theorem path_curve_by_of_closed (glyph : Nat) (delta₁ delta₂ delta₃ : Point C) :
    (pen.curveBy glyph delta₁ delta₂ delta₃).value.path =
      pen.path ++ [.move pen.current,
        .curve (pen.current + delta₁) (pen.current + delta₁ + delta₂)
          (pen.current + delta₁ + delta₂ + delta₃)] := by
  rw [curveBy, Report.value_bind, value_ensure_open, closed]
  simp [path, add]

end Closed

end Pen

namespace Font

def partPath (font : Font) (cache : GlyphCache) (depth self : Nat) (number : Float32) : Path Float32 :=
  match codeOf? number with
  | none => []
  | some code =>
      let part := Encoding.standard.glyphOf font.charset code
      if part ≠ 0 ∧ part ≠ self ∧ depth < maxComponentNesting then
        Drawing.outline (font.drawPart cache (maxComponentNesting - (depth + 1)) part).outcome
      else []

variable (font : Font) (cache : GlyphCache)

theorem part_outline_draw_parts (depth part : Nat) :
    partOutline (font.drawParts cache (maxComponentNesting - depth)) part =
      if depth < maxComponentNesting then
        Drawing.outline (font.drawPart cache (maxComponentNesting - (depth + 1)) part).outcome
      else [] := by
  by_cases nested : depth < maxComponentNesting
  · have deeper : maxComponentNesting - depth = maxComponentNesting - (depth + 1) + 1 := by omega
    rw [if_pos nested, deeper]
    rfl
  · rw [if_neg nested, Nat.sub_eq_zero_of_le (Nat.not_lt.mp nested)]
    rfl

theorem size_standard_encoding : standardEncoding.size = 256 := by
  decide +kernel

theorem component_path_of_no_code {number : Float32} (noCode : codeOf? number = none)
    (nesting self : Nat) : font.componentPath cache nesting self number = [] := by
  rw [componentPath, component]
  split
  · next valid =>
    obtain ⟨whole, natural⟩ := valid
    have large : standardEncoding.size ≤ (Coordinate.truncate number).toNat := by
      rw [size_standard_encoding]
      by_contra small
      have code := code_of_eq_some_iff.mpr
        ⟨Nat.not_le.mp small, whole, (Int.toNat_of_nonneg natural).symm⟩
      rw [noCode] at code
      cases code
    rw [Array.getElem?_eq_none large]
    rfl
  · rfl

theorem component_path_of_standard {number : Float32} {code : Nat} (isCode : codeOf? number = some code)
    (nesting self : Nat) :
    font.componentPath cache nesting self number =
      if Encoding.standard.glyphOf font.charset code = 0 ∨
          Encoding.standard.glyphOf font.charset code = self then []
      else partOutline (font.drawParts cache nesting) (Encoding.standard.glyphOf font.charset code) := by
  obtain ⟨small, whole, truncated⟩ := code_of_eq_some_iff.mp isCode
  obtain ⟨id, encoded⟩ : ∃ id, standardEncoding[code]? = some id :=
    ⟨_, Array.getElem?_eq_getElem (size_standard_encoding ▸ small)⟩
  have part : (font.glyphOfName (font.strings.get id)).toOption.getD 0 =
      Encoding.standard.glyphOf font.charset code :=
    glyph_of_name_eq_standard font.charset font.strings encoded
  have valid : Coordinate.isWhole number = true ∧ 0 ≤ (code : Int) :=
    ⟨whole, Int.natCast_nonneg code⟩
  simp only [componentPath, component, truncated, Int.toNat_natCast, encoded, part]
  rw [if_pos valid]
  split
  · rfl
  · exact outline_of_draw_component _ _ _ _

theorem component_path_eq_part_path (depth self : Nat) (number : Float32) :
    font.componentPath cache (maxComponentNesting - depth) self number =
      font.partPath cache depth self number := by
  rw [partPath]
  cases found : codeOf? number with
  | none => exact font.component_path_of_no_code cache found _ self
  | some code =>
      rw [font.component_path_of_standard cache found, part_outline_draw_parts]
      dsimp only
      generalize Encoding.standard.glyphOf font.charset code = part
      by_cases skipped : part = 0 ∨ part = self
      · rw [if_pos skipped, if_neg fun drawn => skipped.elim drawn.1 drawn.2.1]
      · obtain ⟨positive, other⟩ := not_or.mp skipped
        rw [if_neg skipped]
        by_cases nested : depth < maxComponentNesting
        · rw [if_pos nested, if_pos ⟨positive, other, nested⟩]
        · rw [if_neg nested, if_neg fun drawn => nested drawn.2.2]

theorem outcome_draw (nesting glyph : Nat) :
    (font.draw cache nesting glyph).outcome =
      (fun tokens => (Pen.run (font.setting cache nesting glyph)
        (tokens.map (Token.mapNumber single))).value.finish) <$> (font.type1Tokens glyph).outcome := by
  cases nesting with
  | zero => exact font.outcome_draw_with none glyph
  | succ nesting => exact font.outcome_draw_with (some (font.drawPart cache nesting)) glyph

theorem seac_adds_standard_parts {font : Font} (isNames : font.isCidKeyed = false)
    (cache : GlyphCache) (depth self : Nat) (pen : Pen Float32)
    (accentBearing dx dy base accent : Float32) (more : List Float32) :
    (font.draw cache (maxComponentNesting - depth) self).outcome =
      (fun tokens => (Pen.run (font.setting cache (maxComponentNesting - depth) self)
        (tokens.map (Token.mapNumber single))).value.finish) <$> (font.type1Tokens self).outcome ∧
    ∃ after : Pen Float32,
      (pen.operate (font.setting cache (maxComponentNesting - depth) self) .seac
        (accentBearing :: dx :: dy :: base :: accent :: more)).value = after ∧
      after.path = pen.path ++ (font.partPath cache depth self base ++
        (font.partPath cache depth self accent).translate
          ⟨pen.bearing.x + dx - accentBearing, pen.bearing.y + dy⟩) ∧
      after = { pen with reversed := after.reversed, isOpen := false } ∧
      (∀ glyph delta, (after.lineBy glyph delta).value.path =
        after.path ++ [.move pen.current, .line (pen.current + delta)]) ∧
      (∀ glyph delta₁ delta₂ delta₃, (after.curveBy glyph delta₁ delta₂ delta₃).value.path =
        after.path ++ [.move pen.current,
          .curve (pen.current + delta₁) (pen.current + delta₁ + delta₂)
            (pen.current + delta₁ + delta₂ + delta₃)]) ∧
      ∀ (setting : Setting Float32) (tokens : List (Token Type1Op Float32)) (numbers : List Float32),
        .operator .seac ∉ tokens →
        ∃ added, (tokens.foldlM (Pen.step setting) ⟨after, numbers⟩).value.pen.path =
            after.path ++ added ∧
          (added = [] ∨ ∃ target rest, added = .move target :: rest) := by
  have named : (font.setting cache (maxComponentNesting - depth) self).component? =
      some (font.component (font.drawParts cache (maxComponentNesting - depth)) self) := by
    rw [setting, isNames]
    rfl
  have composed := Pen.value_compose named pen accentBearing dx dy base accent
  have parts (number : Float32) : outlineOf (font.component
      (font.drawParts cache (maxComponentNesting - depth)) self number) =
        font.partPath cache depth self number :=
    font.component_path_eq_part_path cache depth self number
  rw [parts, parts] at composed
  refine ⟨font.outcome_draw cache _ self, _, composed, ?_, rfl, fun glyph delta => ?_,
    fun glyph delta₁ delta₂ delta₃ => ?_, fun setting tokens numbers noParts => ?_⟩
  · rw [Pen.path, List.reverse_append, List.reverse_reverse, Pen.path]
  · exact Pen.path_line_by_of_closed rfl glyph delta
  · exact Pen.path_curve_by_of_closed rfl glyph delta₁ delta₂ delta₃
  · obtain ⟨added, path, begins⟩ := Pen.continues_run setting tokens noParts ⟨_, numbers⟩
    exact ⟨added, path, (begins rfl).imp And.left id⟩

theorem chain_composes_moved_triangle :
    chain.isCidKeyed = false ∧ ∃ after : Pen Float32,
      (Pen.start.operate (chain.setting (.empty chain.glyphCount) (maxComponentNesting - 1) 3) .seac
        [0, 10, 5, 67, 68]).value = after ∧
      after.path = [.move ⟨10, 5⟩, .line ⟨110, 5⟩, .line ⟨110, 105⟩, .close] := by
  have parts : Pen.path Pen.start ++ (chain.partPath (.empty chain.glyphCount) 1 3 67 ++
      (chain.partPath (.empty chain.glyphCount) 1 3 68).translate
        ⟨(Pen.start : Pen Float32).bearing.x + 10 - 0, (Pen.start : Pen Float32).bearing.y + 5⟩) =
      [.move ⟨10, 5⟩, .line ⟨110, 5⟩, .line ⟨110, 105⟩, .close] := by
    decide +kernel
  obtain ⟨-, after, composed, path, -⟩ :=
    seac_adds_standard_parts (rfl : chain.isCidKeyed = false) (.empty chain.glyphCount) 1 3 Pen.start
      0 10 5 67 68 []
  exact ⟨rfl, after, composed, path.trans parts⟩

end Font

end CompactFont
