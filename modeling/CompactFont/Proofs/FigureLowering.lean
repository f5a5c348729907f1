import CompactFont.Proofs.Program
import Mathlib.Data.List.Forall2

set_option autoImplicit false

namespace CompactFont

open Lowering
open Type2 (Bend Figure Quarter Segment)

variable {N C : Type} [Zero N]

inductive Traces : Type1Command N → Segment N → Prop
  | rlineto (delta : Point N) : Traces ⟨delta.coordinates, .rlineto⟩ (.line delta)
  | hlineto (dx : N) : Traces ⟨[dx], .hlineto⟩ (.line ⟨dx, 0⟩)
  | vlineto (dy : N) : Traces ⟨[dy], .vlineto⟩ (.line ⟨0, dy⟩)
  | rrcurveto (bend : Bend N) : Traces ⟨bend.arguments, .rrcurveto⟩ (.curve bend)

abbrev TraceAll : List (Type1Command N) → List (Segment N) → Prop := List.Forall₂ Traces

theorem lines_trace (deltas : List (Point N)) :
    TraceAll (lines (deltas.flatMap Point.coordinates)) (deltas.map .line) := by
  induction deltas with
  | nil => exact .nil
  | cons delta rest ih => exact .cons (.rlineto delta) ih

theorem curves_trace (bends : List (Bend N)) :
    TraceAll (curves (bends.flatMap Bend.arguments)) (bends.map .curve) := by
  induction bends with
  | nil => exact .nil
  | cons bend rest ih => exact .cons (.rrcurveto bend) ih

theorem axis_flips (horizontal : Bool) (place : Nat) :
    (!(horizontal == (place % 2 == 0))) = (horizontal == ((place + 1) % 2 == 0)) := by
  rcases Nat.mod_two_eq_zero_or_one place with even | odd
  · have next : (place + 1) % 2 = 1 := by omega
    cases horizontal <;> simp [even, next]
  · have next : (place + 1) % 2 = 0 := by omega
    cases horizontal <;> simp [odd, next]

theorem alternating_line_trace (horizontal : Bool) (delta : N) :
    Traces ⟨[delta], if horizontal then .hlineto else .vlineto⟩
      (.line (.oriented horizontal delta 0)) := by
  cases horizontal with
  | true => exact .hlineto delta
  | false => exact .vlineto delta

theorem alternating_lines_trace (horizontal : Bool) (deltas : List N) (place : Nat) :
    TraceAll (alternatingLines (horizontal == (place % 2 == 0)) deltas)
      ((deltas.zipIdx place).map fun (delta, place) =>
        .line (.oriented (horizontal == (place % 2 == 0)) delta 0)) := by
  induction deltas generalizing place with
  | nil => exact .nil
  | cons delta rest ih =>
      rw [alternatingLines, axis_flips]
      exact .cons (alternating_line_trace _ delta) (ih (place + 1))

theorem parallel_curve_trace (horizontal : Bool) (quarter : Quarter N) (cross : N) :
    Traces
      (curve (if horizontal
        then [quarter.start, cross, quarter.middle.x, quarter.middle.y, quarter.finish, 0]
        else [cross, quarter.start, quarter.middle.x, quarter.middle.y, 0, quarter.finish]))
      (.curve ⟨.oriented horizontal quarter.start cross, quarter.middle,
        .oriented horizontal quarter.finish 0⟩) := by
  cases horizontal with
  | true => exact .rrcurveto ⟨⟨quarter.start, cross⟩, quarter.middle, ⟨quarter.finish, 0⟩⟩
  | false => exact .rrcurveto ⟨⟨cross, quarter.start⟩, quarter.middle, ⟨0, quarter.finish⟩⟩

theorem parallel_curves_trace (horizontal : Bool) (crossAt : Nat → N) (quarters : List (Quarter N))
    (place : Nat) (later : ∀ next, place < next → crossAt next = 0) :
    TraceAll (parallelCurves horizontal (crossAt place) (quarters.flatMap Quarter.arguments))
      ((quarters.zipIdx place).map fun (quarter, place) =>
        .curve ⟨.oriented horizontal quarter.start (crossAt place), quarter.middle,
          .oriented horizontal quarter.finish 0⟩) := by
  induction quarters generalizing place with
  | nil => exact .nil
  | cons quarter rest ih =>
      have tail := ih (place + 1) (fun next after => later next (by omega))
      rw [later (place + 1) (by omega)] at tail
      exact .cons (parallel_curve_trace horizontal quarter (crossAt place)) tail

theorem parallel_eq_parallel_curves (horizontal : Bool) (cross? : Option N)
    (quarters : List (Quarter N)) :
    parallel horizontal (cross?.toList ++ quarters.flatMap Quarter.arguments) =
      parallelCurves horizontal (cross?.getD 0) (quarters.flatMap Quarter.arguments) := by
  cases cross? with
  | some cross =>
      have whole : (quarters.flatMap Quarter.arguments).length % 4 = 0 := by
        rw [Quarter.length_arguments]
        omega
      rw [Option.toList_some, List.singleton_append, parallel, if_pos whole]
      rfl
  | none =>
      cases quarters with
      | nil => rfl
      | cons quarter rest =>
          have odd : ¬ ([quarter.middle.x, quarter.middle.y, quarter.finish] ++
              rest.flatMap Quarter.arguments).length % 4 = 0 := by
            rw [List.length_append, Quarter.length_arguments, List.length_cons, List.length_cons,
              List.length_singleton]
            omega
          exact if_neg odd

theorem parallel_trace (horizontal : Bool) (cross? : Option N) (quarters : List (Quarter N)) :
    TraceAll (parallel horizontal (cross?.toList ++ quarters.flatMap Quarter.arguments))
      (quarters.zipIdx.map fun (quarter, place) =>
        .curve ⟨.oriented horizontal quarter.start (if place = 0 then cross?.getD 0 else 0),
          quarter.middle, .oriented horizontal quarter.finish 0⟩) := by
  rw [parallel_eq_parallel_curves]
  exact parallel_curves_trace horizontal (fun place => if place = 0 then cross?.getD 0 else 0)
    quarters 0 (fun next after => if_neg (by omega))

theorem quarter_curve_trace (horizontal : Bool) (quarter : Quarter N) (cross : N) :
    Traces
      (quarterCurve horizontal quarter.start quarter.middle.x quarter.middle.y quarter.finish cross)
      (.curve ⟨.oriented horizontal quarter.start 0, quarter.middle,
        .oriented (!horizontal) quarter.finish cross⟩) := by
  cases horizontal with
  | true => exact .rrcurveto ⟨⟨quarter.start, 0⟩, quarter.middle, ⟨cross, quarter.finish⟩⟩
  | false => exact .rrcurveto ⟨⟨0, quarter.start⟩, quarter.middle, ⟨quarter.finish, cross⟩⟩

theorem alternating_curves_cons (horizontal : Bool) (quarter : Quarter N) (rest : List (Quarter N))
    (cross? : Option N) :
    alternatingCurves horizontal ((quarter :: rest).flatMap Quarter.arguments ++ cross?.toList) =
      quarterCurve horizontal quarter.start quarter.middle.x quarter.middle.y quarter.finish
          (if rest.length = 0 then cross?.getD 0 else 0) ::
        alternatingCurves (!horizontal) (rest.flatMap Quarter.arguments ++ cross?.toList) := by
  cases rest with
  | nil => cases cross? <;> rfl
  | cons next rest => rfl

theorem alternating_curves_trace (horizontal : Bool) (cross? : Option N) (quarters : List (Quarter N))
    (place count : Nat) (ends : count = place + quarters.length) :
    TraceAll
      (alternatingCurves (horizontal == (place % 2 == 0))
        (quarters.flatMap Quarter.arguments ++ cross?.toList))
      ((quarters.zipIdx place).map fun (quarter, place) =>
        .curve ⟨.oriented (horizontal == (place % 2 == 0)) quarter.start 0, quarter.middle,
          .oriented (!(horizontal == (place % 2 == 0))) quarter.finish
            (if place + 1 = count then cross?.getD 0 else 0)⟩) := by
  induction quarters generalizing place with
  | nil => cases cross? <;> exact .nil
  | cons quarter rest ih =>
      have last : rest.length = 0 ↔ place + 1 = count := by
        rw [List.length_cons] at ends
        omega
      have tail := ih (place + 1) (by rw [ends, List.length_cons]; omega)
      rw [alternating_curves_cons, if_congr last rfl rfl, axis_flips]
      exact .cons (quarter_curve_trace _ quarter _) tail

theorem axis_starts (horizontal : Bool) : (horizontal == (0 % 2 == 0)) = horizontal := by
  cases horizontal <;> rfl

variable [Add N] [Neg N] [Magnitude N]

theorem draw_rcurveline (before : List N) (delta : Point N) :
    Lowering.draw .rcurveline (before ++ delta.coordinates) =
      pure (curves before ++ [⟨delta.coordinates, .rlineto⟩]) := by
  have count : (before ++ delta.coordinates).length = before.length + 2 := List.length_append
  have ends : (before ++ delta.coordinates).length - 2 = before.length := by omega
  dsimp only [Lowering.draw]
  rw [if_neg (by omega), ends, List.take_left, List.drop_left]

theorem draw_rlinecurve (before : List N) (bend : Bend N) :
    Lowering.draw .rlinecurve (before ++ bend.arguments) =
      pure (lines before ++ [curve bend.arguments]) := by
  have count : (before ++ bend.arguments).length = before.length + 6 := List.length_append
  have ends : (before ++ bend.arguments).length - 6 = before.length := by omega
  dsimp only [Lowering.draw]
  rw [if_neg (by omega), ends, List.take_left, List.drop_left]

theorem flex1_trace (delta₁ delta₂ delta₃ delta₄ delta₅ : Point N) (last : N) :
    ∃ commands,
      Lowering.draw .flex1 (Figure.flex1 delta₁ delta₂ delta₃ delta₄ delta₅ last).arguments =
        pure commands ∧
      TraceAll commands (Figure.flex1 delta₁ delta₂ delta₃ delta₄ delta₅ last).segments := by
  refine ⟨_, rfl, .cons (.rrcurveto ⟨delta₁, delta₂, delta₃⟩) (.cons ?_ .nil)⟩
  change Traces (curve (_ ++ if Magnitude.exceeds (delta₁ + delta₂ + delta₃ + delta₄ + delta₅).x
    (delta₁ + delta₂ + delta₃ + delta₄ + delta₅).y then _ else _)) (.curve ⟨_, _, if _ then _ else _⟩)
  by_cases wide : Magnitude.exceeds (delta₁ + delta₂ + delta₃ + delta₄ + delta₅).x
    (delta₁ + delta₂ + delta₃ + delta₄ + delta₅).y = true
  · rw [if_pos wide, if_pos wide]
    exact .rrcurveto ⟨delta₄, delta₅, ⟨last, _⟩⟩
  · rw [if_neg wide, if_neg wide]
    exact .rrcurveto ⟨delta₄, delta₅, ⟨_, last⟩⟩

theorem figure_trace (figure : Figure N) :
    ∃ commands, Lowering.draw figure.op figure.arguments = pure commands ∧
      TraceAll commands figure.segments := by
  cases figure with
  | lines deltas => exact ⟨_, rfl, lines_trace deltas⟩
  | alternatingLines horizontal deltas =>
      have trace := alternating_lines_trace horizontal deltas 0
      rw [axis_starts] at trace
      exact ⟨_, by cases horizontal <;> rfl, trace⟩
  | curves bends => exact ⟨_, rfl, curves_trace bends⟩
  | parallelCurves horizontal cross? quarters =>
      exact ⟨_, by cases horizontal <;> rfl, parallel_trace horizontal cross? quarters⟩
  | alternatingCurves horizontal quarters cross? =>
      have trace := alternating_curves_trace horizontal cross? quarters 0 quarters.length (by omega)
      rw [axis_starts] at trace
      exact ⟨_, by cases horizontal <;> rfl, trace⟩
  | curvesThenLine bends delta =>
      exact ⟨_, draw_rcurveline _ delta,
        List.rel_append (curves_trace bends) (.cons (.rlineto delta) .nil)⟩
  | linesThenCurve deltas bend =>
      exact ⟨_, draw_rlinecurve _ bend,
        List.rel_append (lines_trace deltas) (.cons (.rrcurveto bend) .nil)⟩
  | flex first second depth =>
      exact ⟨_, rfl, .cons (.rrcurveto first) (.cons (.rrcurveto second) .nil)⟩
  | hflex dx₁ delta₂ dx₃ dx₄ dx₅ dx₆ =>
      exact ⟨_, rfl, .cons (.rrcurveto ⟨⟨dx₁, 0⟩, delta₂, ⟨dx₃, 0⟩⟩)
        (.cons (.rrcurveto ⟨⟨dx₄, 0⟩, ⟨dx₅, -delta₂.y⟩, ⟨dx₆, 0⟩⟩) .nil)⟩
  | hflex1 delta₁ delta₂ dx₃ dx₄ delta₅ dx₆ =>
      exact ⟨_, rfl, .cons (.rrcurveto ⟨delta₁, delta₂, ⟨dx₃, 0⟩⟩)
        (.cons (.rrcurveto ⟨⟨dx₄, 0⟩, delta₅, ⟨dx₆, -(delta₁.y + delta₂.y + delta₅.y)⟩⟩) .nil)⟩
  | flex1 delta₁ delta₂ delta₃ delta₄ delta₅ last =>
      exact flex1_trace delta₁ delta₂ delta₃ delta₄ delta₅ last

end CompactFont
