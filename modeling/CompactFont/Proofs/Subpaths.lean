import CompactFont.Proofs.Outcome
import CompactFont.Proofs.RequestHistory

set_option autoImplicit false

namespace CompactFont

variable {C : Type}

inductive Stroke (C : Type) where
  | line (target : Point C)
  | curve (control₁ control₂ target : Point C)
deriving DecidableEq, Repr

def Stroke.command : Stroke C → PathCommand C
  | .line target => .line target
  | .curve control₁ control₂ target => .curve control₁ control₂ target

structure Subpath (C : Type) where
  start : Point C
  strokes : List (Stroke C)
  closed : Bool
deriving DecidableEq, Repr

namespace Subpath

def rest (strokes : List (Stroke C)) (closed : Bool) : Path C :=
  strokes.map Stroke.command ++ if closed then [.close] else []

def commands (subpath : Subpath C) : Path C :=
  .move subpath.start :: rest subpath.strokes subpath.closed

end Subpath

def PathCommand.openAfter? (isOpen : Bool) : PathCommand C → Option Bool
  | .move _ => some true
  | .line _ => if isOpen then some true else none
  | .curve _ _ _ => if isOpen then some true else none
  | .close => if isOpen then some false else none

namespace Path

def openAfter? (isOpen : Bool) (path : Path C) : Option Bool :=
  path.foldlM PathCommand.openAfter? isOpen

theorem open_after_cons (isOpen : Bool) (command : PathCommand C) (path : Path C) :
    openAfter? isOpen (command :: path) = (command.openAfter? isOpen).bind path.openAfter? :=
  List.foldlM_cons

theorem open_after_append (isOpen : Bool) (first second : Path C) :
    openAfter? isOpen (first ++ second) = (first.openAfter? isOpen).bind second.openAfter? :=
  List.foldlM_append

def Whole (path : Path C) : Prop := ∃ isOpen, path.openAfter? false = some isOpen

theorem whole_nil : Whole ([] : Path C) := ⟨false, rfl⟩

theorem open_after_of_whole {path : Path C} (whole : path.Whole) (isOpen : Bool) :
    ∃ after, path.openAfter? isOpen = some after := by
  obtain ⟨after, accepted⟩ := whole
  cases path with
  | nil => exact ⟨isOpen, rfl⟩
  | cons command rest =>
      cases command with
      | move target => exact ⟨after, accepted⟩
      | line | curve | close => cases accepted

theorem whole_append {first second : Path C} (head : first.Whole) (tail : second.Whole) :
    (first ++ second).Whole := by
  obtain ⟨isOpen, accepted⟩ := head
  obtain ⟨after, continued⟩ := open_after_of_whole tail isOpen
  exact ⟨after, by rw [open_after_append, accepted, Option.bind_some, continued]⟩

theorem open_after_translate [Add C] (offset : Point C) (isOpen : Bool) (path : Path C) :
    (path.translate offset).openAfter? isOpen = path.openAfter? isOpen := by
  induction path generalizing isOpen with
  | nil => rfl
  | cons command rest ih =>
      have same : (command.translate offset).openAfter? isOpen = command.openAfter? isOpen := by
        cases command <;> rfl
      have split : translate offset (command :: rest) =
          command.translate offset :: translate offset rest := rfl
      rw [split, open_after_cons, open_after_cons, same]
      exact congrArg _ (funext ih)

theorem whole_translate [Add C] (offset : Point C) {path : Path C} (whole : path.Whole) :
    (path.translate offset).Whole := by
  obtain ⟨isOpen, accepted⟩ := whole
  exact ⟨isOpen, (open_after_translate offset false path).trans accepted⟩

-- The induction is on the commands. Before each one, either the rest of a subpath is being drawn or
-- the next subpath is still to come.
theorem subpaths_of_open_after {path : Path C} {isOpen after : Bool}
    (accepted : path.openAfter? isOpen = some after) :
    ∃ strokes closed, ∃ subpaths : List (Subpath C),
      path = Subpath.rest strokes closed ++ subpaths.flatMap Subpath.commands ∧
        (isOpen = false → strokes = [] ∧ closed = false) := by
  induction path generalizing isOpen with
  | nil => exact ⟨[], false, [], rfl, fun _ => ⟨rfl, rfl⟩⟩
  | cons command path ih =>
      cases command with
      | move target =>
          have started : openAfter? true path = some after := accepted
          obtain ⟨strokes, closed, subpaths, same, -⟩ := ih started
          exact ⟨[], false, ⟨target, strokes, closed⟩ :: subpaths, congrArg _ same, fun _ => ⟨rfl, rfl⟩⟩
      | line target =>
          cases isOpen with
          | false => cases accepted
          | true =>
              have drawn : openAfter? true path = some after := accepted
              obtain ⟨strokes, closed, subpaths, same, -⟩ := ih drawn
              exact ⟨.line target :: strokes, closed, subpaths, congrArg _ same, nofun⟩
      | curve control₁ control₂ target =>
          cases isOpen with
          | false => cases accepted
          | true =>
              have drawn : openAfter? true path = some after := accepted
              obtain ⟨strokes, closed, subpaths, same, -⟩ := ih drawn
              exact ⟨.curve control₁ control₂ target :: strokes, closed, subpaths, congrArg _ same, nofun⟩
      | close =>
          cases isOpen with
          | false => cases accepted
          | true =>
              have ended : openAfter? false path = some after := accepted
              obtain ⟨strokes, closed, subpaths, same, none⟩ := ih ended
              obtain ⟨rfl, rfl⟩ := none rfl
              exact ⟨[], true, subpaths, congrArg _ same, nofun⟩

theorem subpaths_of_whole {path : Path C} (whole : path.Whole) :
    ∃ subpaths : List (Subpath C), path = subpaths.flatMap Subpath.commands := by
  obtain ⟨isOpen, accepted⟩ := whole
  obtain ⟨strokes, closed, subpaths, same, none⟩ := subpaths_of_open_after accepted
  obtain ⟨rfl, rfl⟩ := none rfl
  exact ⟨subpaths, same⟩

theorem last_of_open {path : Path C} (accepted : path.openAfter? false = some true) :
    ∃ last, path.getLast? = some last ∧ last ≠ .close := by
  cases path using List.reverseRecOn with
  | nil => cases accepted
  | append_singleton earlier last =>
      refine ⟨last, List.getLast?_concat, ?_⟩
      rintro rfl
      rw [open_after_append] at accepted
      obtain ⟨isOpen, -, closed⟩ := Option.bind_eq_some_iff.mp accepted
      cases isOpen <;> cases closed

theorem continued_of_whole {before after : Path C} {command : PathCommand C}
    (whole : Whole (before ++ command :: after)) :
    (∃ target, command = .move target) ∨ ∃ last, before.getLast? = some last ∧ last ≠ .close := by
  obtain ⟨isOpen, accepted⟩ := whole
  rw [open_after_append] at accepted
  obtain ⟨middle, first, second⟩ := Option.bind_eq_some_iff.mp accepted
  cases middle with
  | true => exact .inr (last_of_open first)
  | false =>
      cases command with
      | move target => exact .inl ⟨target, rfl⟩
      | line | curve | close => cases second

end Path

namespace Pen

-- The path is whole, and one of its subpaths is open if the pen takes one to be.
def Tidy (pen : Pen C) : Prop :=
  ∃ isOpen, Path.openAfter? false pen.reversed.reverse = some isOpen ∧
    (pen.isOpen = true → isOpen = true)

theorem whole_of_tidy {pen : Pen C} (tidy : pen.Tidy) : Path.Whole pen.reversed.reverse := by
  obtain ⟨isOpen, accepted, -⟩ := tidy
  exact ⟨isOpen, accepted⟩

theorem open_after_drawn {pen drawn : Pen C} {isOpen after : Bool} {command : PathCommand C}
    (accepted : Path.openAfter? false pen.reversed.reverse = some isOpen)
    (next : command.openAfter? isOpen = some after) (same : drawn.reversed = command :: pen.reversed) :
    Path.openAfter? false drawn.reversed.reverse = some after := by
  rw [same, List.reverse_cons, Path.open_after_append, accepted, Option.bind_some,
    Path.open_after_cons, next]
  rfl

theorem tidy_of_move {pen drawn : Pen C} (tidy : pen.Tidy) {target : Point C}
    (same : drawn.reversed = .move target :: pen.reversed) : drawn.Tidy := by
  obtain ⟨isOpen, accepted, -⟩ := tidy
  exact ⟨true, open_after_drawn accepted rfl same, fun _ => rfl⟩

theorem tidy_of_stroke {pen drawn : Pen C} (tidy : pen.Tidy) (opened : pen.isOpen = true)
    (stroke : Stroke C) (same : drawn.reversed = stroke.command :: pen.reversed) : drawn.Tidy := by
  obtain ⟨isOpen, accepted, agrees⟩ := tidy
  obtain rfl := agrees opened
  have next : stroke.command.openAfter? true = some true := by cases stroke <;> rfl
  exact ⟨true, open_after_drawn accepted next same, fun _ => rfl⟩

theorem tidy_of_whole {pen drawn : Pen C} (tidy : pen.Tidy) {path : Path C} (whole : path.Whole)
    (same : drawn.reversed = path.reverse ++ pen.reversed) (closed : drawn.isOpen = false) :
    drawn.Tidy := by
  obtain ⟨isOpen, accepted⟩ := Path.whole_append (whole_of_tidy tidy) whole
  refine ⟨isOpen, ?_, fun opened => ?_⟩
  · rw [same, List.reverse_append, List.reverse_reverse]
    exact accepted
  · rw [closed] at opened
    cases opened

theorem tidy_close {pen : Pen C} (tidy : pen.Tidy) (glyph : Nat) : (pen.close glyph).value.Tidy := by
  unfold close
  by_cases opened : pen.isOpen = true
  · obtain ⟨isOpen, accepted, agrees⟩ := tidy
    obtain rfl := agrees opened
    rw [if_pos opened]
    exact ⟨false, open_after_drawn accepted rfl rfl, nofun⟩
  · rw [if_neg opened]
    exact tidy

theorem tidy_ensure_open {pen : Pen C} (tidy : pen.Tidy) (glyph : Nat) :
    (pen.ensureOpen glyph).value.Tidy ∧ (pen.ensureOpen glyph).value.isOpen = true := by
  rw [value_ensure_open]
  by_cases opened : pen.isOpen = true
  · rw [if_pos opened]
    exact ⟨tidy, opened⟩
  · rw [if_neg opened]
    exact ⟨tidy_of_move tidy rfl, rfl⟩

variable [Coordinate C]

theorem tidy_start : (start : Pen C).Tidy := ⟨false, rfl, nofun⟩

theorem tidy_move_by {pen : Pen C} (tidy : pen.Tidy) (delta : Point C) : (pen.moveBy delta).Tidy := by
  unfold moveBy
  cases pen.flex? with
  | some points => exact tidy
  | none => exact tidy_of_move tidy rfl

theorem tidy_line_by {pen : Pen C} (tidy : pen.Tidy) (glyph : Nat) (delta : Point C) :
    (pen.lineBy glyph delta).value.Tidy := by
  obtain ⟨ready, opened⟩ := tidy_ensure_open tidy glyph
  exact tidy_of_stroke ready opened (.line _) rfl

theorem tidy_curve_by {pen : Pen C} (tidy : pen.Tidy) (glyph : Nat)
    (delta₁ delta₂ delta₃ : Point C) :
    (pen.curveBy glyph delta₁ delta₂ delta₃).value.Tidy := by
  obtain ⟨ready, opened⟩ := tidy_ensure_open tidy glyph
  exact tidy_of_stroke ready opened (.curve _ _ _) rfl

theorem tidy_end_flex {pen : Pen C} (tidy : pen.Tidy) (glyph : Nat) :
    (pen.endFlex glyph).value.Tidy := by
  have left : Tidy { pen with flex? := none } := tidy
  unfold endFlex
  split
  · exact tidy_curve_by (tidy_curve_by left glyph _ _ _) glyph _ _ _
  · exact left

theorem tidy_othersubr {pen : Pen C} (tidy : pen.Tidy) (glyph : Nat) (number : Int) :
    (pen.othersubr glyph number).value.Tidy := by
  unfold othersubr
  split
  · exact tidy_end_flex tidy glyph
  · exact tidy
  · exact tidy

section Components

variable {setting : Setting C}
  (parts : ∀ component code, setting.component? = some component →
    Path.Whole (outlineOf (component code)))

include parts

theorem tidy_compose {pen : Pen C} (tidy : pen.Tidy) (accentBearing dx dy base accent : C) :
    (pen.compose setting accentBearing dx dy base accent).value.Tidy := by
  unfold compose
  cases present : setting.component? with
  | none => exact tidy
  | some component =>
      have basePath := parts component base present
      have accentPath := parts component accent present
      exact tidy_of_whole tidy (Path.whole_append basePath (Path.whole_translate _ accentPath)) rfl rfl

theorem tidy_operate {pen : Pen C} (tidy : pen.Tidy) (op : Type1Op) (arguments : List C) :
    (pen.operate setting op arguments).value.Tidy := by
  fun_cases pen.operate setting op arguments with
  | case1 | case2 | case3 => exact tidy_move_by tidy _
  | case4 | case5 | case6 => exact tidy_line_by tidy _ _
  | case7 | case8 | case9 => exact tidy_curve_by tidy _ _ _ _
  | case10 => exact tidy_close tidy _
  | case18 => exact tidy_othersubr tidy _ _
  | case19 => exact tidy_compose parts tidy _ _ _ _ _
  | _ => exact tidy

theorem tidy_step {waiting : Waiting C} (tidy : waiting.pen.Tidy) (token : Token Type1Op C) :
    (step setting waiting token).value.pen.Tidy := by
  unfold step
  by_cases ended : waiting.pen.ended = true
  · rw [if_pos ended]
    exact tidy
  · rw [if_neg ended]
    cases token with
    | number value => exact tidy
    | mask bytes => exact tidy
    | operator op =>
        have operated := tidy_operate parts tidy op waiting.numbers.reverse
        cases op with
        | div => exact tidy
        | _ => exact operated

theorem tidy_run (tokens : List (Token Type1Op C)) : (run setting tokens).value.Tidy := by
  have fold (waiting : Waiting C) (tidy : waiting.pen.Tidy) :
      (tokens.foldlM (step setting) waiting).value.pen.Tidy := by
    induction tokens generalizing waiting with
    | nil => exact tidy
    | cons token rest ih =>
        rw [List.foldlM_cons]
        exact ih _ (tidy_step parts tidy token)
  exact fold ⟨start, []⟩ tidy_start

end Components

end Pen

namespace Font

variable (font : Font)

theorem whole_component {draw? : Option (Nat → Attempt CharstringError (Glyph Float32))}
    (parts : ∀ part, (partOutline draw? part).Whole) (glyph : Nat) (code : Float32) :
    (outlineOf (font.component draw? glyph code)).Whole := by
  simp only [component]
  split
  · split
    · exact Path.whole_nil
    · split
      · exact Path.whole_nil
      · rw [outline_of_draw_component]
        exact parts _
  · exact Path.whole_nil

theorem whole_draw_with {draw? : Option (Nat → Attempt CharstringError (Glyph Float32))}
    (parts : ∀ part, (partOutline draw? part).Whole) (glyph : Nat) :
    (Drawing.outline (font.drawWith draw? glyph).outcome).Whole := by
  cases draws : (font.drawWith draw? glyph).outcome with
  | error error => exact Path.whole_nil
  | ok drawn =>
      obtain ⟨tokens, -, rest⟩ := Attempt.bind_ok draws
      obtain ⟨pen, ran, finished⟩ := Attempt.bind_ok rest
      obtain rfl := Except.ok.inj ran
      obtain rfl := Except.ok.inj finished
      refine Pen.whole_of_tidy (Pen.tidy_run (fun component code present => ?_) _)
      by_cases cidKeyed : font.isCidKeyed = true
      · rw [if_pos cidKeyed] at present
        cases present
      · rw [if_neg cidKeyed] at present
        obtain rfl := Option.some.inj present
        exact font.whole_component parts glyph code

variable {cache : GlyphCache} (kept : ∀ glyph drawn, cache.get? glyph = some drawn → drawn.path.Whole)

include kept

theorem whole_draw (nesting glyph : Nat) :
    (Drawing.outline (font.draw cache nesting glyph).outcome).Whole := by
  induction nesting generalizing glyph with
  | zero =>
      have nothing (part : Nat) : (partOutline none part).Whole := Path.whole_nil
      exact font.whole_draw_with nothing glyph
  | succ nesting ih =>
      have parts (part : Nat) : (partOutline (some (font.drawPart cache nesting)) part).Whole := by
        rw [partOutline, drawPart]
        cases found : cache.get? part with
        | some drawn => exact kept part drawn found
        | none => exact ih part
      exact font.whole_draw_with parts glyph

theorem whole_answer (glyph : Nat) : (Drawing.outline (font.answer cache glyph)).Whole := by
  cases found : cache.get? (font.resolve glyph) with
  | some drawn =>
      rw [font.answer_cached found]
      exact kept _ drawn found
  | none =>
      rw [font.answer_drawn found]
      exact font.whole_draw kept _ _

omit kept

theorem holds_whole (history : List Nat) :
    font.Holds (font.cacheAfter history) fun _ drawn => drawn.path.Whole := by
  refine holds_cache_after (fun history glyph drawn holds _ answered => ?_) history
  have whole := font.whole_answer holds.drawings glyph
  rw [answered] at whole
  exact whole

theorem drawn_path_has_whole_subpaths (history : List Nat) (glyph : Nat) (drawn : Glyph Float32)
    (draws : font.answer (font.cacheAfter history) glyph = .ok drawn) :
    (∃ subpaths : List (Subpath Float32), drawn.path = subpaths.flatMap Subpath.commands) ∧
      ∀ before command after, drawn.path = before ++ command :: after →
        (∃ target, command = .move target) ∨
          ∃ last, before.getLast? = some last ∧ last ≠ .close := by
  have whole := font.whole_answer (font.holds_whole history).drawings glyph
  rw [draws] at whole
  refine ⟨Path.subpaths_of_whole whole, fun before command after split => ?_⟩
  have parts : drawn.path.Whole := whole
  rw [split] at parts
  exact Path.continued_of_whole parts

-- Glyph 1 closes nothing, draws before it moves, sets its bearing and leaves a flex in mid path, and
-- goes on drawing after its components. Glyph 3 is composed of itself and of glyph 1.
def tangled : Font where
  name := "Tangled"
  top := ⟨[]⟩
  charstrings := .ofObjects 1
    [[14],
      [9, 149, 149, 5, 139, 139, 13, 139, 140, 12, 16, 149, 149, 21, 149, 149, 5, 9, 9,
        139, 139, 12, 33, 139, 139, 139, 205, 206, 12, 6, 149, 149, 5, 14],
      [149, 149, 21, 149, 139, 5, 14],
      [139, 139, 139, 206, 204, 12, 6, 149, 149, 5, 14]]
  charset := .custom (.ids #[34, 35, 36])
  keying := .names .standard ⟨⟨[]⟩, none⟩
  matrix := .perThousand
  dialect := .type1
  globalSubrs := .empty
  strings := ⟨.empty⟩

theorem tangled_path_has_whole_subpaths :
    ∃ drawn, tangled.answer (tangled.cacheAfter [3, 2]) 1 = .ok drawn ∧ drawn.path.length = 20 ∧
      ∃ subpaths : List (Subpath Float32), drawn.path = subpaths.flatMap Subpath.commands := by
  have long : (Drawing.outline (tangled.answer (tangled.cacheAfter [3, 2]) 1)).length = 20 := by
    decide +kernel
  cases draws : tangled.answer (tangled.cacheAfter [3, 2]) 1 with
  | error error =>
      rw [draws] at long
      cases long
  | ok drawn =>
      rw [draws] at long
      exact ⟨drawn, rfl, long, (tangled.drawn_path_has_whole_subpaths [3, 2] 1 drawn draws).1⟩

end Font

end CompactFont
