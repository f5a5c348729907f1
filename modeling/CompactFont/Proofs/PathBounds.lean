import Mathlib.Algebra.Order.Group.MinMax
import Mathlib.Order.Bounds.Basic
import CompactFont.Outline.Path

set_option autoImplicit false

namespace CompactFont

variable {C : Type}

theorem Point.add_eq [Add C] (a b : Point C) : a + b = ⟨a.x + b.x, a.y + b.y⟩ := rfl

namespace Box

structure Attained (box : Box C) (points : List (Point C)) : Prop where
  left : ∃ point ∈ points, point.x = box.least.x
  bottom : ∃ point ∈ points, point.y = box.least.y
  right : ∃ point ∈ points, point.x = box.greatest.x
  top : ∃ point ∈ points, point.y = box.greatest.y

theorem attained_of_point {points : List (Point C)} {point : Point C} (member : point ∈ points) :
    (ofPoint point).Attained points :=
  ⟨⟨point, member, rfl⟩, ⟨point, member, rfl⟩, ⟨point, member, rfl⟩, ⟨point, member, rfl⟩⟩

theorem through_of_eq_or {points : List (Point C)} (coordinate : Point C → C) {side : C}
    (through : ∃ point ∈ points, coordinate point = side) {point : Point C} (member : point ∈ points)
    {moved : C} (choice : moved = side ∨ moved = coordinate point) :
    ∃ point ∈ points, coordinate point = moved := by
  rcases choice with rfl | rfl
  · exact through
  · exact ⟨point, member, rfl⟩

section Sides

variable [LT C] [DecidableRel (fun a b : C => a < b)]

theorem smaller_eq_or (a b : C) : smaller a b = a ∨ smaller a b = b := by
  unfold smaller
  split <;> simp

theorem greater_eq_or (a b : C) : greater a b = a ∨ greater a b = b := by
  unfold greater
  split <;> simp

theorem attained_widen {points : List (Point C)} {box : Box C} (attained : box.Attained points)
    {point : Point C} (member : point ∈ points) : (box.widen point).Attained points where
  left := through_of_eq_or Point.x attained.left member (smaller_eq_or _ _)
  bottom := through_of_eq_or Point.y attained.bottom member (smaller_eq_or _ _)
  right := through_of_eq_or Point.x attained.right member (greater_eq_or _ _)
  top := through_of_eq_or Point.y attained.top member (greater_eq_or _ _)

theorem attained_foldl_widen {points : List (Point C)} (more : List (Point C))
    (members : ∀ point ∈ more, point ∈ points) {box : Box C} (attained : box.Attained points) :
    (more.foldl widen box).Attained points := by
  induction more generalizing box with
  | nil => exact attained
  | cons point rest ih =>
      obtain ⟨member, later⟩ := List.forall_mem_cons.mp members
      exact ih later (attained_widen attained member)

end Sides

section Order

variable [LinearOrder C]

theorem smaller_eq_min (a b : C) : smaller a b = min a b := by
  unfold smaller
  split
  · next less => exact (min_eq_left_of_lt less).symm
  · next other => exact (min_eq_right (not_lt.mp other)).symm

theorem greater_eq_max (a b : C) : greater a b = max a b := by
  unfold greater
  split
  · next less => exact (max_eq_left_of_lt less).symm
  · next other => exact (max_eq_right (not_lt.mp other)).symm

instance : PartialOrder (Box C) where
  le inner outer :=
    outer.least.x ≤ inner.least.x ∧ outer.least.y ≤ inner.least.y ∧
      inner.greatest.x ≤ outer.greatest.x ∧ inner.greatest.y ≤ outer.greatest.y
  le_refl _ := ⟨le_rfl, le_rfl, le_rfl, le_rfl⟩
  le_trans _ _ _ first second :=
    ⟨second.1.trans first.1, second.2.1.trans first.2.1, first.2.2.1.trans second.2.2.1,
      first.2.2.2.trans second.2.2.2⟩
  le_antisymm
    | ⟨⟨_, _⟩, ⟨_, _⟩⟩, ⟨⟨_, _⟩, ⟨_, _⟩⟩, first, second => by
      obtain ⟨left, bottom, right, top⟩ := first
      obtain ⟨left', bottom', right', top'⟩ := second
      simp only [mk.injEq, Point.mk.injEq]
      exact ⟨⟨left'.antisymm left, bottom'.antisymm bottom⟩, right.antisymm right', top.antisymm top'⟩

theorem le_iff {inner outer : Box C} :
    inner ≤ outer ↔ outer.least.x ≤ inner.least.x ∧ outer.least.y ≤ inner.least.y ∧
      inner.greatest.x ≤ outer.greatest.x ∧ inner.greatest.y ≤ outer.greatest.y := Iff.rfl

def Contains (box : Box C) (point : Point C) : Prop :=
  box.least.x ≤ point.x ∧ box.least.y ≤ point.y ∧ point.x ≤ box.greatest.x ∧ point.y ≤ box.greatest.y

theorem of_point_le_iff {outer : Box C} {point : Point C} : ofPoint point ≤ outer ↔ outer.Contains point :=
  Iff.rfl

theorem contains_mono {inner outer : Box C} (within : inner ≤ outer) {point : Point C}
    (contains : inner.Contains point) : outer.Contains point :=
  of_point_le_iff.mp ((of_point_le_iff.mpr contains).trans within)

theorem widen_le_iff {box outer : Box C} {point : Point C} :
    box.widen point ≤ outer ↔ box ≤ outer ∧ outer.Contains point := by
  simp only [le_iff, widen, Contains, smaller_eq_min, greater_eq_max, le_min_iff, max_le_iff]
  tauto

theorem foldl_widen_le_iff (points : List (Point C)) {box outer : Box C} :
    points.foldl widen box ≤ outer ↔ box ≤ outer ∧ ∀ point ∈ points, outer.Contains point := by
  induction points generalizing box with
  | nil => simp
  | cons point rest ih => rw [List.foldl_cons, ih, widen_le_iff, List.forall_mem_cons, and_assoc]

end Order

def translate [Add C] (offset : Point C) (box : Box C) : Box C :=
  ⟨box.least + offset, box.greatest + offset⟩

section Translation

variable [AddCommGroup C] [LinearOrder C] [IsOrderedAddMonoid C]

theorem widen_translate (offset : Point C) (box : Box C) (point : Point C) :
    (box.translate offset).widen (point + offset) = (box.widen point).translate offset := by
  simp only [widen, translate, smaller_eq_min, greater_eq_max, Point.add_eq]
  simp only [min_add_add_right, max_add_add_right]

theorem foldl_widen_translate
    (offset : Point C) (points : List (Point C)) (box : Box C) :
    (points.map (· + offset)).foldl widen (box.translate offset) =
      (points.foldl widen box).translate offset := by
  induction points generalizing box with
  | nil => rfl
  | cons point rest ih =>
      rw [List.map_cons, List.foldl_cons, List.foldl_cons, widen_translate, ih]

end Translation

end Box

namespace Path

theorem points_append (first second : Path C) :
    (first ++ second).points = first.points ++ second.points := List.flatMap_append

theorem points_flatten (parts : List (Path C)) :
    points parts.flatten = parts.flatMap points := by
  induction parts with
  | nil => rfl
  | cons part rest ih => rw [List.flatten_cons, points_append, ih, List.flatMap_cons]

theorem points_translate [Add C] (offset : Point C) (path : Path C) :
    (path.translate offset).points = path.points.map (· + offset) := by
  have moved (command : PathCommand C) :
      (command.translate offset).points = command.points.map (· + offset) := by
    cases command <;> rfl
  simp only [points, translate, List.flatMap_map, List.map_flatMap, moved]

theorem attained_bounds [Zero C] [LT C] [DecidableRel (fun a b : C => a < b)] {path : Path C}
    (hasPoints : path.points ≠ []) : path.bounds.Attained path.points := by
  unfold bounds
  split
  · next none => exact absurd none hasPoints
  · next point rest some =>
      rw [some]
      exact Box.attained_foldl_widen rest (fun _ => List.mem_cons_of_mem _)
        (Box.attained_of_point List.mem_cons_self)

section Order

variable [Zero C] [LinearOrder C] {path : Path C}

theorem bounds_of_no_points (none : path.points = []) : path.bounds = Box.ofPoint 0 := by
  rw [bounds, none]

theorem bounds_le_iff (hasPoints : path.points ≠ []) {outer : Box C} :
    path.bounds ≤ outer ↔ ∀ point ∈ path.points, outer.Contains point := by
  unfold bounds
  split
  · next none => exact absurd none hasPoints
  · next point rest some =>
      rw [some, Box.foldl_widen_le_iff, List.forall_mem_cons, Box.of_point_le_iff]

theorem bounds_contains {point : Point C} (member : point ∈ path.points) :
    path.bounds.Contains point :=
  (bounds_le_iff (List.ne_nil_of_mem member)).mp le_rfl point member

-- The boxes of the parts that have points. The box of a part without points says nothing.
def partBoxes (parts : List (Path C)) : Set (Box C) :=
  {box | ∃ part ∈ parts, part.points ≠ [] ∧ box = part.bounds}

end Order

end Path

-- The least box that holds the boxes of the parts, or the empty one at the origin where none of them
-- has points.
structure Box.IsUnion [Zero C] [LinearOrder C] (parts : List (Path C)) (box : Box C) : Prop where
  least : (∃ part ∈ parts, part.points ≠ []) → IsLUB (Path.partBoxes parts) box
  none : (∀ part ∈ parts, part.points = []) → box = Box.ofPoint 0

namespace Path

theorem is_union_bounds [Zero C] [LinearOrder C] {path : Path C} {parts : List (Path C)}
    (composed : path.points.Perm (parts.flatMap points)) : path.bounds.IsUnion parts where
  least some := by
    have hasPoints : path.points ≠ [] := by
      intro none
      obtain ⟨part, member, partHasPoints⟩ := some
      rw [none] at composed
      exact partHasPoints (List.flatMap_eq_nil_iff.mp composed.nil_eq.symm part member)
    constructor
    · rintro box ⟨part, member, partHasPoints, rfl⟩
      refine (bounds_le_iff partHasPoints).mpr fun point isPoint => bounds_contains ?_
      exact composed.mem_iff.mpr (List.mem_flatMap.mpr ⟨part, member, isPoint⟩)
    · intro outer upper
      refine (bounds_le_iff hasPoints).mpr fun point isPoint => ?_
      obtain ⟨part, member, ofPart⟩ := List.mem_flatMap.mp (composed.mem_iff.mp isPoint)
      have holds : part.bounds ≤ outer := upper ⟨part, member, List.ne_nil_of_mem ofPart, rfl⟩
      exact Box.contains_mono holds (bounds_contains ofPart)
  none none := by
    rw [List.flatMap_eq_nil_iff.mpr none] at composed
    exact bounds_of_no_points composed.eq_nil

theorem is_lub_bounds_append [Zero C] [LinearOrder C] {first second : Path C}
    (firstHasPoints : first.points ≠ []) (secondHasPoints : second.points ≠ []) :
    IsLUB {first.bounds, second.bounds} (first ++ second).bounds := by
  have union : (first ++ second).bounds.IsUnion [first, second] := by
    apply is_union_bounds
    simp [points_append]
  have boxes : partBoxes [first, second] = {first.bounds, second.bounds} := by
    ext box
    simp [partBoxes, firstHasPoints, secondHasPoints]
  rw [← boxes]
  exact union.least ⟨first, List.mem_cons_self, firstHasPoints⟩

theorem bounds_translate [AddCommGroup C] [LinearOrder C] [IsOrderedAddMonoid C] {path : Path C}
    (hasPoints : path.points ≠ []) (offset : Point C) :
    (path.translate offset).bounds = path.bounds.translate offset := by
  obtain ⟨point, rest, some⟩ := List.exists_cons_of_ne_nil hasPoints
  rw [bounds, bounds, points_translate, some]
  exact Box.foldl_widen_translate offset rest (Box.ofPoint point)

end Path

end CompactFont
