import CompactFont.Proofs.PenRun
import CompactFont.Proofs.Type1Order

set_option autoImplicit false

namespace CompactFont

namespace Pen

variable {C : Type} [Coordinate C] {setting : Setting C}

theorem step_number {waiting : Waiting C} (drawing : waiting.pen.ended = false) (number : C) :
    step setting waiting (.number number) = pure { waiting with numbers := number :: waiting.numbers } := by
  have running : ¬ (waiting.pen.ended = true) := by simp [drawing]
  rw [step, if_neg running]

theorem operate_callothersubr (pen : Pen C) (earlier : List C) (number : C) :
    pen.operate setting .callothersubr (earlier ++ [number]) =
      pen.othersubr setting.glyph (Coordinate.truncate number) := by
  cases earlier with
  | nil => rfl
  | cons first rest =>
      have last : (first :: (rest ++ [number])).getLastD first = number := by
        rw [List.getLastD_cons, List.getLastD_concat]
      rw [List.cons_append]
      exact congrArg (fun top => pen.othersubr setting.glyph (Coordinate.truncate top)) last

theorem step_callothersubr {waiting : Waiting C} {number : C} {rest : List C}
    (drawing : waiting.pen.ended = false) (top : waiting.numbers = number :: rest) :
    step setting waiting (.operator .callothersubr) = (do
      let pen ← waiting.pen.othersubr setting.glyph (Coordinate.truncate number)
      pure ⟨pen, []⟩) := by
  rw [← operate_callothersubr waiting.pen rest.reverse number, ← List.reverse_cons, ← top]
  exact step_operator setting waiting.pen drawing waiting.numbers .callothersubr (by decide)

theorem top_of_number (waiting : Waiting C) (earlier : List (Token Type1Op C)) (number : C)
    (drawing : ((earlier ++ [Token.number number]).foldlM (step setting) waiting).value.pen.ended =
      false) :
    ∃ rest, ((earlier ++ [Token.number number]).foldlM (step setting) waiting).value.numbers =
      number :: rest := by
  rw [List.foldlM_append] at drawing ⊢
  generalize earlier.foldlM (step setting) waiting = report at drawing ⊢
  simp only [Report.value_bind, List.foldlM_cons, List.foldlM_nil, bind_pure, step] at drawing ⊢
  split at drawing
  · rename_i ended
    rw [Report.value_pure, ended] at drawing
    cases drawing
  · rename_i running
    rw [if_neg running]
    exact ⟨_, rfl⟩

end Pen

namespace Type1

def coordinate (value : Int) : Float32 := single (Float.ofInt value)

def penTokens (tokens : List (Token Type1Op Int)) : List (Token Type1Op Float32) :=
  (tokens.map (Token.mapNumber Float.ofInt)).map (Token.mapNumber single)

@[simp] theorem pen_tokens_nil : penTokens [] = [] := rfl

@[simp] theorem pen_tokens_number (value : Int) (tokens : List (Token Type1Op Int)) :
    penTokens (.number value :: tokens) = .number (coordinate value) :: penTokens tokens := rfl

@[simp] theorem pen_tokens_operator (op : Type1Op) (tokens : List (Token Type1Op Int)) :
    penTokens (.operator op :: tokens) = .operator op :: penTokens tokens := rfl

@[simp] theorem pen_tokens_append (first second : List (Token Type1Op Int)) :
    penTokens (first ++ second) = penTokens first ++ penTokens second := by
  simp [penTokens]

theorem coordinate_zero : coordinate 0 = 0 := by decide +kernel

theorem truncate_coordinate_zero : Coordinate.truncate (coordinate 0) = 0 := by decide +kernel

theorem truncate_coordinate_one : Coordinate.truncate (coordinate 1) = 1 := by decide +kernel

section Decoded

variable {subrs : Option Index} {charstring : Bytes} {tokens : List (Token Type1Op Int)}
  (decodes : (decode subrs charstring).outcome = .ok tokens)

include decodes

theorem step_at_mark (setting : Setting Float32) {before after : List (Token Type1Op Int)}
    (place : tokens = before ++ .operator .callothersubr :: after) {waiting : Pen.Waiting Float32}
    (reached : ((penTokens before).foldlM (Pen.step setting) ⟨.start, []⟩).value = waiting)
    (drawing : waiting.pen.ended = false) :
    ∃ number rest, waiting.numbers = number :: rest ∧
      (Coordinate.truncate number = 1 ∧ Pen.step setting waiting (.operator .callothersubr) =
          pure ⟨{ waiting.pen with flex? := some [] }, []⟩ ∨
        Coordinate.truncate number = 0 ∧ Pen.step setting waiting (.operator .callothersubr) = (do
          let pen ← waiting.pen.endFlex setting.glyph
          pure ⟨pen, []⟩)) := by
  obtain ⟨earlier, mark, rfl, marks⟩ := number_before_callothersubr decodes place
  have shape : penTokens (earlier ++ [.number mark]) = penTokens earlier ++ [.number (coordinate mark)] :=
    pen_tokens_append _ _
  subst reached
  rw [shape] at drawing ⊢
  obtain ⟨rest, top⟩ := Pen.top_of_number _ _ (coordinate mark) drawing
  refine ⟨coordinate mark, rest, top, ?_⟩
  rw [Pen.step_callothersubr drawing top]
  rcases marks with rfl | rfl
  · rw [truncate_coordinate_zero]
    exact .inr ⟨rfl, rfl⟩
  · rw [truncate_coordinate_one]
    exact .inl ⟨rfl, rfl⟩

theorem only_flex_marks_are_left :
    .operator .callsubr ∉ tokens ∧
      (∀ before after, tokens = before ++ .operator .callothersubr :: after →
        ∃ earlier number, before = earlier ++ [.number number] ∧ (number = 0 ∨ number = 1)) ∧
      (∀ value, .number value ∈ tokens → -2147483648 ≤ value ∧ value ≤ 2147483647) ∧
      ∀ (setting : Setting Float32) before after waiting,
        tokens = before ++ .operator .callothersubr :: after →
        ((penTokens before).foldlM (Pen.step setting) ⟨.start, []⟩).value = waiting →
        waiting.pen.ended = false →
        ∃ number rest, waiting.numbers = number :: rest ∧
          (Coordinate.truncate number = 1 ∧ Pen.step setting waiting (.operator .callothersubr) =
              pure ⟨{ waiting.pen with flex? := some [] }, []⟩ ∨
            Coordinate.truncate number = 0 ∧
              Pen.step setting waiting (.operator .callothersubr) = (do
                let pen ← waiting.pen.endFlex setting.glyph
                pure ⟨pen, []⟩)) :=
  ⟨no_callsubr decodes, fun _ _ => number_before_callothersubr decodes,
    fun _ => small_of_mem decodes,
    fun setting _ _ _ place reached drawing => step_at_mark decodes setting place reached drawing⟩

end Decoded

def strayCalls : Bytes :=
  [139, 140, 12, 16, 9, 144, 144, 142, 139, 12, 16, 10, 139, 140, 12, 16, 14]

theorem stray_calls_leave_flex_marks :
    ∃ tokens, ∃ waiting : Pen.Waiting Float32,
      (decode none strayCalls).outcome = .ok tokens ∧
      tokens = [.number 1, .operator .callothersubr, .number 0, .number 1] ++
        .operator .callothersubr :: [.operator .endchar] ∧
      waiting.pen.ended = false ∧
      .operator .callsubr ∉ tokens ∧
      ∃ number rest, waiting.numbers = number :: rest ∧
        (Coordinate.truncate number = 1 ∧ Pen.step ⟨0, none⟩ waiting (.operator .callothersubr) =
            pure ⟨{ waiting.pen with flex? := some [] }, []⟩ ∨
          Coordinate.truncate number = 0 ∧
            Pen.step ⟨0, none⟩ waiting (.operator .callothersubr) = (do
              let pen ← waiting.pen.endFlex 0
              pure ⟨pen, []⟩)) := by
  have decodes : (decode none strayCalls).outcome = .ok ([.number 1, .operator .callothersubr,
      .number 0, .number 1] ++ .operator .callothersubr :: [.operator .endchar]) :=
    Attempt.ok_of_to_option (by decide +kernel)
  obtain ⟨noCall, -, -, atMark⟩ := only_flex_marks_are_left decodes
  have drawing : ((penTokens [.number 1, .operator .callothersubr, .number 0, .number 1]).foldlM
      (Pen.step ⟨0, none⟩) ⟨.start, []⟩).value.pen.ended = false := by decide +kernel
  exact ⟨_, _, decodes, rfl, drawing, noCall, atMark ⟨0, none⟩ _ _ _ rfl rfl drawing⟩

end Type1

end CompactFont
