import Mathlib.Algebra.Order.Group.Int
import CompactFont.Proofs.CompositeGlyphs
import CompactFont.Proofs.PathBounds

set_option autoImplicit false

namespace CompactFont

class ExactCoordinate (C : Type) extends
  AddCommGroup C, LinearOrder C, IsOrderedAddMonoid C, Coordinate C

variable {C : Type}

def Setting.alone (setting : Setting C) : Setting C :=
  { setting with component? := setting.component?.map fun _ _ => pure none }

def Path.Composed (added own drawn : Path C) : Prop := drawn.Perm (added ++ own)

theorem Path.composed_cons (added : Path C) (command : PathCommand C) (own drawn : Path C)
    (composed : Composed added own drawn) : Composed added (command :: own) (command :: drawn) :=
  (composed.cons command).trans List.perm_middle.symm

theorem Path.composed_append {added own drawn : Path C} (composed : Composed added own drawn)
    (more : Path C) : Composed (added ++ more) own (more.reverse ++ drawn) := by
  have reordered : (more.reverse ++ drawn).Perm (more ++ (added ++ own)) :=
    more.reverse_perm.append composed
  rw [← List.append_assoc] at reordered
  exact reordered.trans (List.perm_append_comm.append_right own)

namespace Pen

variable [Coordinate C]

def parts (setting : Setting C) (pen : Pen C) : Type1Op → List C → List (Path C)
  | .seac, asb :: adx :: ady :: bchar :: achar :: _ =>
      match setting.component? with
      | none => []
      | some component =>
          [outlineOf (component bchar),
            (outlineOf (component achar)).translate
              ⟨pen.bearing.x + adx - asb, pen.bearing.y + ady⟩]
  | _, _ => []

def stepParts (setting : Setting C) (waiting : Waiting C) : Token Type1Op C → List (Path C)
  | .operator op =>
      if waiting.pen.ended then [] else parts setting waiting.pen op waiting.numbers.reverse
  | _ => []

def partsFrom (setting : Setting C) (waiting : Waiting C) :
    List (Token Type1Op C) → List (Path C)
  | [] => []
  | token :: rest =>
      stepParts setting waiting token ++ partsFrom setting (step setting waiting token).value rest

def partsOf (setting : Setting C) (tokens : List (Token Type1Op C)) : List (Path C) :=
  partsFrom setting ⟨start, []⟩ tokens

variable (setting : Setting C) {added : Path C}

theorem step_parts_eq_nil {token : Token Type1Op C} (noParts : token ≠ .operator .seac)
    (waiting : Waiting C) : stepParts setting waiting token = [] := by
  cases token with
  | number value => rfl
  | mask bytes => rfl
  | operator op =>
      have isOther : op ≠ .seac := fun isSeac => noParts (congrArg _ isSeac)
      rw [stepParts]
      split
      · rfl
      · unfold parts
        split
        · exact absurd rfl isOther
        · rfl

theorem beside_seac {own full : Pen C} (beside : own.Beside (Path.Composed added) full)
    (arguments : List C) :
    (own.operate setting.alone .seac arguments).value.Beside
      (Path.Composed (added ++ (parts setting full .seac arguments).flatten))
      (full.operate setting .seac arguments).value := by
  rw [value_operate_seac, value_operate_seac]
  match arguments with
  | [] | [_] | [_, _] | [_, _, _] | [_, _, _, _] =>
      simp only [parts, List.flatten_nil, List.append_nil]
      exact beside
  | asb :: adx :: ady :: bchar :: achar :: _ =>
      simp only [parts]
      cases named : setting.component? with
      | none =>
          simp only [compose, named, Setting.alone, Option.map_none, List.flatten_nil, List.append_nil]
          exact beside
      | some component =>
          have none : setting.alone.component? = some fun _ => pure none := by
            rw [Setting.alone, named, Option.map_some]
          obtain ⟨drawn, composed, rfl⟩ := beside
          rw [value_compose named, value_compose none]
          refine ⟨_, ?_, rfl⟩
          rw [List.flatten_cons, List.flatten_singleton]
          exact Path.composed_append composed _

theorem beside_step_alone {own full : Waiting C} (beside : own.Beside (Path.Composed added) full)
    (token : Token Type1Op C) :
    Waiting.Beside (Path.Composed (added ++ (stepParts setting full token).flatten))
      (step setting.alone own token).value (step setting full token).value := by
  by_cases isSeac : token = .operator .seac
  · subst isSeac
    rw [value_step_seac, value_step_seac, stepParts, ended_of_beside beside.pen]
    by_cases done : own.pen.ended = true
    · rw [if_pos done, if_pos done, if_pos done, List.flatten_nil, List.append_nil]
      exact beside
    · rw [if_neg done, if_neg done, if_neg done, beside.numbers]
      exact ⟨beside_seac setting beside.pen _, rfl⟩
  · rw [step_parts_eq_nil setting isSeac, List.flatten_nil, List.append_nil]
    have sameGlyph : setting.glyph = setting.alone.glyph := rfl
    exact beside_step (Path.composed_cons added) sameGlyph beside isSeac

theorem beside_run_alone (tokens : List (Token Type1Op C)) :
    (run setting.alone tokens).value.Beside (Path.Composed (partsOf setting tokens).flatten)
      (run setting tokens).value := by
  have fold (added : Path C) (own full : Waiting C) (beside : own.Beside (Path.Composed added) full) :
      Waiting.Beside (Path.Composed (added ++ (partsFrom setting full tokens).flatten))
        (tokens.foldlM (step setting.alone) own).value (tokens.foldlM (step setting) full).value := by
    induction tokens generalizing added own full with
    | nil =>
        rw [partsFrom, List.flatten_nil, List.append_nil]
        exact beside
    | cons token rest ih =>
        have stepped := beside_step_alone setting beside token
        rw [List.foldlM_cons, List.foldlM_cons, partsFrom, List.flatten_append, ← List.append_assoc]
        exact ih _ _ _ stepped
  exact (fold [] ⟨start, []⟩ ⟨start, []⟩ ⟨⟨[], .refl _, rfl⟩, rfl⟩).pen

theorem path_run_perm (tokens : List (Token Type1Op C)) :
    (run setting tokens).value.path.Perm
      ((run setting.alone tokens).value.path :: partsOf setting tokens).flatten := by
  obtain ⟨drawn, composed, same⟩ := beside_run_alone setting tokens
  rw [same, path, path, List.flatten_cons]
  generalize (run setting.alone tokens).value.reversed = own at composed
  generalize (partsOf setting tokens).flatten = added at composed
  calc
    List.Perm drawn.reverse drawn := drawn.reverse_perm
    List.Perm _ (added ++ own) := composed
    List.Perm _ (own ++ added) := List.perm_append_comm
    List.Perm _ (own.reverse ++ added) := own.reverse_perm.symm.append_right added

theorem parts_from_append (waiting : Waiting C) (before after : List (Token Type1Op C)) :
    partsFrom setting waiting (before ++ after) =
      partsFrom setting waiting before ++
        partsFrom setting (before.foldlM (step setting) waiting).value after := by
  induction before generalizing waiting with
  | nil => rfl
  | cons token rest ih =>
      rw [List.cons_append, partsFrom, partsFrom, ih, List.append_assoc, List.foldlM_cons,
        Report.value_bind]

theorem parts_from_eq_nil {tokens : List (Token Type1Op C)} (noParts : .operator .seac ∉ tokens)
    (waiting : Waiting C) : partsFrom setting waiting tokens = [] := by
  induction tokens generalizing waiting with
  | nil => rfl
  | cons token rest ih =>
      obtain ⟨other, later⟩ := not_or.mp (mt List.mem_cons.mpr noParts)
      rw [partsFrom, step_parts_eq_nil setting (Ne.symm other), ih later, List.nil_append]

theorem parts_of_single {before after : List (Token Type1Op C)} (early : .operator .seac ∉ before)
    (late : .operator .seac ∉ after) :
    partsOf setting (before ++ .operator .seac :: after) =
      stepParts setting (before.foldlM (step setting) ⟨start, []⟩).value (.operator .seac) := by
  rw [partsOf, parts_from_append, parts_from_eq_nil setting early, List.nil_append, partsFrom,
    parts_from_eq_nil setting late, List.append_nil]

end Pen

open Pen

structure Composite [Coordinate C] (setting : Setting C) (tokens : List (Token Type1Op C)) where
  before : List (Token Type1Op C)
  after : List (Token Type1Op C)
  split : tokens = before ++ .operator .seac :: after
  early : .operator .seac ∉ before
  late : .operator .seac ∉ after
  waiting : Waiting C
  reached : (before.foldlM (step setting) ⟨start, []⟩).value = waiting
  running : waiting.pen.ended = false
  component : C → Report (Option (Path C))
  named : setting.component? = some component
  accentBearing : C
  dx : C
  dy : C
  baseCode : C
  accentCode : C
  more : List C
  numbers : waiting.numbers.reverse = accentBearing :: dx :: dy :: baseCode :: accentCode :: more

namespace Composite

variable [Coordinate C] {setting : Setting C} {tokens : List (Token Type1Op C)}
  (composite : Composite setting tokens)

def base : Path C := outlineOf (composite.component composite.baseCode)

def accent : Path C :=
  let bearing := composite.waiting.pen.bearing
  (outlineOf (composite.component composite.accentCode)).translate
    ⟨bearing.x + composite.dx - composite.accentBearing, bearing.y + composite.dy⟩

theorem parts_of_eq : partsOf setting tokens = [composite.base, composite.accent] := by
  have only := parts_of_single setting composite.early composite.late
  rw [← composite.split, composite.reached, stepParts, composite.running, composite.numbers] at only
  simpa [parts, composite.named, base, accent] using only

end Composite

theorem is_union_box_run [ExactCoordinate C] (setting : Setting C)
    (tokens : List (Token Type1Op C)) :
    (run setting tokens).value.finish.box.IsUnion
      ((run setting.alone tokens).value.path :: partsOf setting tokens) := by
  apply Path.is_union_bounds
  rw [← Path.points_flatten]
  exact (path_run_perm setting tokens).flatMap_right _

/-- The box of a path with points holds them all and no more, boxes of paths that are put together unite,
and boxes move with their paths; a path without points has an empty box at the origin. So the box of a
composite glyph is the union of the boxes of its own path, its base and its moved accent, except those
without points. -/
theorem bounds_unite_and_translate [ExactCoordinate C] :
    (∀ path : Path C, path.points ≠ [] →
      (∀ point ∈ path.points, path.bounds.Contains point) ∧ path.bounds.Attained path.points) ∧
    (∀ first second : Path C, first.points ≠ [] → second.points ≠ [] →
      IsLUB {first.bounds, second.bounds} (first ++ second).bounds) ∧
    (∀ (path : Path C) (offset : Point C), path.points ≠ [] →
      (path.translate offset).bounds = path.bounds.translate offset) ∧
    (∀ (path : Path C) (offset : Point C), path.points = [] →
      (path.translate offset).bounds = Box.ofPoint 0) ∧
    ∀ (setting : Setting C) (tokens : List (Token Type1Op C)),
      let own := (run setting.alone tokens).value.path
      let box := (run setting tokens).value.finish.box
      box.IsUnion (own :: partsOf setting tokens) ∧
        ∀ composite : Composite setting tokens,
          box.IsUnion [own, composite.base, composite.accent] := by
  refine ⟨fun path hasPoints => ⟨fun _ => Path.bounds_contains, Path.attained_bounds hasPoints⟩,
    fun _ _ => Path.is_lub_bounds_append, fun path offset hasPoints => ?_, ?_, ?_⟩
  · exact Path.bounds_translate hasPoints offset
  · intro path offset none
    apply Path.bounds_of_no_points
    rw [Path.points_translate, none, List.map_nil]
  · intro setting tokens
    have union := is_union_box_run setting tokens
    refine ⟨union, fun composite => ?_⟩
    rw [composite.parts_of_eq] at union
    exact union

instance : ExactCoordinate Int where
  isZero number := number == 0
  isWhole _ := true
  truncate number := max (-2147483648) (min number 2147483647)
  text := toString

theorem bounds_of_close_stay :
    ¬ ∀ (C : Type) [ExactCoordinate C] (path : Path C) (offset : Point C),
      (path.translate offset).bounds = path.bounds.translate offset := by
  intro moves
  have moved := moves Int [.close] ⟨1, 0⟩
  exact absurd moved (by decide)

def letters : Setting Int where
  glyph := 3
  component? := some fun code => pure (some
    (if code = 65 then [.move ⟨0, 0⟩, .curve ⟨-4, 10⟩ ⟨14, 10⟩ ⟨10, 0⟩, .close]
    else [.move ⟨0, 8⟩, .line ⟨2, 9⟩, .close]))

def accentedTokens : List (Token Type1Op Int) :=
  [.number 5, .number 20, .operator .hsbw, .number (-1), .operator .vmoveto, .number 2,
    .operator .hlineto, .operator .closepath, .number 1, .number 2, .number 3, .number 65,
    .number 194, .operator .seac, .operator .endchar]

def accented : Composite letters accentedTokens where
  before := accentedTokens.take 13
  after := [.operator .endchar]
  split := rfl
  early := by simp [accentedTokens]
  late := by simp
  waiting := _
  reached := rfl
  running := rfl
  component := _
  named := rfl
  accentBearing := 1
  dx := 2
  dy := 3
  baseCode := 65
  accentCode := 194
  more := []
  numbers := rfl

theorem bounds_of_accented_letter :
    accented.base.bounds.Contains ⟨-4, 10⟩ ∧ accented.base.bounds.Attained accented.base.points ∧
      IsLUB {accented.base.bounds, accented.accent.bounds}
        (accented.base ++ accented.accent).bounds ∧
      (accented.base.translate ⟨1, 2⟩).bounds = accented.base.bounds.translate ⟨1, 2⟩ ∧
      (Path.translate ⟨1, 2⟩ [.close]).bounds = (Box.ofPoint 0 : Box Int) ∧
      accented.accent.bounds = ⟨⟨6, 11⟩, ⟨8, 12⟩⟩ ∧
      (run letters accentedTokens).value.finish.box = ⟨⟨-4, -1⟩, ⟨14, 12⟩⟩ ∧
      (run letters accentedTokens).value.finish.box.IsUnion
        [[.move ⟨5, -1⟩, .line ⟨7, -1⟩, .close], accented.base, accented.accent] := by
  obtain ⟨holds, unites, translates, stays, composes⟩ := bounds_unite_and_translate (C := Int)
  have base : accented.base.points ≠ [] := by decide
  have accent : accented.accent.points ≠ [] := by decide
  obtain ⟨contains, attained⟩ := holds _ base
  refine ⟨contains _ (by decide), attained, unites _ _ base accent, translates _ _ base,
    stays _ _ rfl, by decide, by decide, ?_⟩
  exact (composes letters accentedTokens).2 accented

end CompactFont
