import CompactFont.Outline.Pen

set_option autoImplicit false

namespace CompactFont

variable {C : Type}

namespace Pen

-- The second pen has drawn something related to what the first one has, and is otherwise the same.
def Beside (related : Path C → Path C → Prop) (first second : Pen C) : Prop :=
  ∃ drawn, related first.reversed drawn ∧ second = { first with reversed := drawn }

theorem ended_of_beside {related : Path C → Path C → Prop} {first second : Pen C}
    (beside : first.Beside related second) : second.ended = first.ended := by
  obtain ⟨drawn, holds, rfl⟩ := beside
  rfl

def Within : Pen C → Pen C → Prop := Beside List.Sublist

theorem within_refl (pen : Pen C) : pen.Within pen := ⟨_, .refl _, rfl⟩

theorem value_ensure_open (pen : Pen C) (glyph : Nat) :
    (pen.ensureOpen glyph).value =
      if pen.isOpen then pen else { pen with isOpen := true }.add (.move pen.current) := by
  unfold ensureOpen
  split
  · rfl
  · split <;> rfl

section OtherOperators

variable {related : Path C → Path C → Prop}
  (grows : ∀ command first second, related first second →
    related (command :: first) (command :: second))
  {first second : Pen C} (beside : first.Beside related second)

include grows beside

theorem beside_close (glyph : Nat) :
    (first.close glyph).value.Beside related (second.close glyph).value := by
  obtain ⟨drawn, holds, rfl⟩ := beside
  unfold close
  by_cases isOpen : first.isOpen = true
  · rw [if_pos isOpen, if_pos isOpen]
    exact ⟨_, grows _ _ _ holds, rfl⟩
  · rw [if_neg isOpen, if_neg isOpen]
    exact ⟨drawn, holds, rfl⟩

theorem beside_ensure_open (glyph : Nat) :
    (first.ensureOpen glyph).value.Beside related (second.ensureOpen glyph).value := by
  obtain ⟨drawn, holds, rfl⟩ := beside
  rw [value_ensure_open, value_ensure_open]
  by_cases isOpen : first.isOpen = true
  · rw [if_pos isOpen, if_pos isOpen]
    exact ⟨drawn, holds, rfl⟩
  · rw [if_neg isOpen, if_neg isOpen]
    exact ⟨_, grows _ _ _ holds, rfl⟩

variable [Coordinate C]

theorem beside_move_by (delta : Point C) :
    (first.moveBy delta).Beside related (second.moveBy delta) := by
  obtain ⟨drawn, holds, rfl⟩ := beside
  unfold moveBy
  cases first.flex? with
  | some points => exact ⟨drawn, holds, rfl⟩
  | none => exact ⟨_, grows _ _ _ holds, rfl⟩

theorem beside_line_by (glyph : Nat) (delta : Point C) :
    (first.lineBy glyph delta).value.Beside related (second.lineBy glyph delta).value := by
  obtain ⟨drawn, holds, same⟩ := beside_ensure_open grows beside glyph
  rw [lineBy, lineBy, Report.value_bind, Report.value_bind, same]
  exact ⟨_, grows _ _ _ holds, rfl⟩

theorem beside_curve_by (glyph : Nat) (delta₁ delta₂ delta₃ : Point C) :
    (first.curveBy glyph delta₁ delta₂ delta₃).value.Beside related
      (second.curveBy glyph delta₁ delta₂ delta₃).value := by
  obtain ⟨drawn, holds, same⟩ := beside_ensure_open grows beside glyph
  rw [curveBy, curveBy, Report.value_bind, Report.value_bind, same]
  exact ⟨_, grows _ _ _ holds, rfl⟩

theorem beside_end_flex (glyph : Nat) :
    (first.endFlex glyph).value.Beside related (second.endFlex glyph).value := by
  have left : Beside related { first with flex? := none } { second with flex? := none } := by
    obtain ⟨drawn, holds, rfl⟩ := beside
    exact ⟨drawn, holds, rfl⟩
  have points : second.flex? = first.flex? := by
    obtain ⟨drawn, holds, rfl⟩ := beside
    rfl
  unfold endFlex
  rw [points]
  split
  · rw [Report.value_bind, Report.value_bind]
    exact beside_curve_by grows (beside_curve_by grows left glyph _ _ _) glyph _ _ _
  · exact left

theorem beside_othersubr (glyph : Nat) (number : Int) :
    (first.othersubr glyph number).value.Beside related (second.othersubr glyph number).value := by
  unfold othersubr
  split
  · exact beside_end_flex grows beside glyph
  · obtain ⟨drawn, holds, rfl⟩ := beside
    exact ⟨drawn, holds, rfl⟩
  · exact beside

variable {one other : Setting C} (sameGlyph : other.glyph = one.glyph)

include sameGlyph

theorem beside_operate {op : Type1Op} (noParts : op ≠ .seac) (arguments : List C) :
    (first.operate one op arguments).value.Beside related
      (second.operate other op arguments).value := by
  fun_cases first.operate one op arguments with
  | case1 | case2 | case3 => exact beside_move_by grows beside _
  | case4 | case5 | case6 =>
      simp only [operate, sameGlyph]
      exact beside_line_by grows beside one.glyph _
  | case7 | case8 | case9 =>
      simp only [operate, sameGlyph]
      exact beside_curve_by grows beside one.glyph _ _ _
  | case10 =>
      simp only [operate, sameGlyph]
      exact beside_close grows beside one.glyph
  | case11 | case12 | case13 | case14 | case15 | case16 | case17 | case21 =>
      obtain ⟨drawn, holds, rfl⟩ := beside
      exact ⟨drawn, holds, rfl⟩
  | case18 =>
      simp only [operate, sameGlyph]
      exact beside_othersubr grows beside one.glyph _
  | case19 => exact absurd rfl noParts
  | case20 | case22 | case23 | case24 | case25 => exact beside
  | case26 =>
      simp only [operate]
      exact beside

end OtherOperators

structure Waiting.Beside (related : Path C → Path C → Prop) (first second : Waiting C) : Prop where
  pen : first.pen.Beside related second.pen
  numbers : second.numbers = first.numbers

variable [Coordinate C]

theorem beside_step {related : Path C → Path C → Prop}
    (grows : ∀ command first second, related first second →
      related (command :: first) (command :: second))
    {one other : Setting C} (sameGlyph : other.glyph = one.glyph) {first second : Waiting C}
    (beside : first.Beside related second) {token : Token Type1Op C}
    (noParts : token ≠ .operator .seac) :
    Waiting.Beside related (step one first token).value (step other second token).value := by
  obtain ⟨first, numbers⟩ := first
  obtain ⟨second, others⟩ := second
  obtain ⟨pens, same⟩ := beside
  obtain rfl : others = numbers := same
  unfold step
  rw [ended_of_beside pens]
  by_cases done : first.ended = true
  · rw [if_pos done, if_pos done]
    exact ⟨pens, rfl⟩
  · rw [if_neg done, if_neg done]
    cases token with
    | number value => exact ⟨pens, rfl⟩
    | mask bytes => exact ⟨pens, rfl⟩
    | operator op =>
        have isOther : op ≠ .seac := fun isSeac => noParts (congrArg _ isSeac)
        have operated := beside_operate grows pens sameGlyph isOther others.reverse
        cases op with
        | div =>
            simp only [sameGlyph]
            exact ⟨pens, rfl⟩
        | _ => exact ⟨operated, rfl⟩

theorem value_operate_seac (setting : Setting C) (pen : Pen C) (arguments : List C) :
    (pen.operate setting .seac arguments).value =
      match arguments with
      | asb :: adx :: ady :: bchar :: achar :: _ =>
          (pen.compose setting asb adx ady bchar achar).value
      | _ => pen := by
  match arguments with
  | [] | [_] | [_, _] | [_, _, _] | [_, _, _, _] => rfl
  | _ :: _ :: _ :: _ :: _ :: _ => rfl

theorem value_step_seac (setting : Setting C) (waiting : Waiting C) :
    (step setting waiting (.operator .seac)).value =
      if waiting.pen.ended then waiting
      else ⟨(waiting.pen.operate setting .seac waiting.numbers.reverse).value, []⟩ := by
  unfold step
  split <;> rfl

end Pen

def outlineOf (component : Report (Option (Path C))) : Path C := component.value.getD []

structure Setting.Within (small large : Setting C) : Prop where
  glyph : large.glyph = small.glyph
  absent : large.component? = none ↔ small.component? = none
  components : ∀ few many code, small.component? = some few → large.component? = some many →
    (outlineOf (few code)).Sublist (outlineOf (many code))

namespace Pen

variable [Coordinate C] {few many : Setting C} (settings : few.Within many)

include settings

theorem within_compose {small large : Pen C} (within : small.Within large)
    (accentBearing dx dy base accent : C) :
    (small.compose few accentBearing dx dy base accent).value.Within
      (large.compose many accentBearing dx dy base accent).value := by
  unfold compose
  cases present : few.component? with
  | none =>
      rw [settings.absent.mpr present]
      exact within
  | some less =>
      cases also : many.component? with
      | none =>
          rw [settings.absent.mp also] at present
          cases present
      | some more =>
          have parts := settings.components less more
          obtain ⟨drawn, kept, rfl⟩ := within
          have added (offset : Point C) :
              (outlineOf (less base) ++ (outlineOf (less accent)).translate offset).Sublist
                (outlineOf (more base) ++ (outlineOf (more accent)).translate offset) :=
            (parts base present also).append ((parts accent present also).map _)
          exact ⟨_, (List.reverse_sublist.mpr (added _)).append kept, rfl⟩

theorem within_step {small large : Waiting C} (within : small.Beside List.Sublist large)
    (token : Token Type1Op C) :
    Waiting.Beside List.Sublist (step few small token).value (step many large token).value := by
  by_cases parts : token = .operator .seac
  · subst parts
    rw [value_step_seac, value_step_seac, ended_of_beside within.pen]
    by_cases done : small.pen.ended = true
    · rw [if_pos done, if_pos done]
      exact within
    · rw [if_neg done, if_neg done, value_operate_seac, value_operate_seac, within.numbers]
      refine ⟨?_, rfl⟩
      split
      · exact within_compose settings within.pen _ _ _ _ _
      · exact within.pen
  · have grows (command : PathCommand C) (first second : Path C) (kept : first.Sublist second) :
        (command :: first).Sublist (command :: second) := kept.cons_cons _
    exact beside_step grows settings.glyph within parts

theorem within_run (tokens : List (Token Type1Op C)) :
    (run few tokens).value.Within (run many tokens).value := by
  have fold (small large : Waiting C) (within : small.Beside List.Sublist large) :
      Waiting.Beside List.Sublist (tokens.foldlM (step few) small).value
        (tokens.foldlM (step many) large).value := by
    induction tokens generalizing small large with
    | nil => exact within
    | cons token rest ih =>
        rw [List.foldlM_cons, List.foldlM_cons]
        exact ih _ _ (within_step settings within token)
  exact (fold ⟨start, []⟩ ⟨start, []⟩ ⟨within_refl start, rfl⟩).pen

end Pen

section Glyphs

variable [LT C] [DecidableRel (fun a b : C => a < b)]

def Glyph.Within [Zero C] (small large : Glyph C) : Prop :=
  ∃ path, small.path.Sublist path ∧ large = { small with path, box := Path.bounds path }

theorem Glyph.within_trans [Zero C] {small middle large : Glyph C} (first : small.Within middle)
    (second : middle.Within large) : small.Within large := by
  obtain ⟨path, kept, rfl⟩ := first
  obtain ⟨longer, more, rfl⟩ := second
  exact ⟨longer, kept.trans more, rfl⟩

theorem Glyph.eq_of_within [Zero C] {one other : Glyph C} (first : one.Within other)
    (second : other.Within one) : one = other := by
  obtain ⟨path, kept, rfl⟩ := first
  obtain ⟨again, back, same⟩ := second
  have paths : one.path = again := congrArg Glyph.path same
  rw [← paths] at back same
  obtain rfl : one.path = path := kept.eq_of_length_le back.length_le
  exact same

theorem Pen.within_finish [Coordinate C] {small large : Pen C} (within : small.Within large) :
    small.finish.Within large.finish := by
  obtain ⟨drawn, kept, rfl⟩ := within
  exact ⟨drawn.reverse, List.reverse_sublist.mpr kept, rfl⟩

end Glyphs

end CompactFont
