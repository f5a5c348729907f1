import CompactFont.Proofs.FigureLowering
import CompactFont.Proofs.Grammar
import CompactFont.Proofs.PenRun
import CompactFont.Proofs.ProgramLowering

set_option autoImplicit false

namespace CompactFont

open Lowering
open Type2 (Figure Follows Grammatical Hint Item Move Plotter Program Segment exists_program)

variable {N C : Type} [Coordinate C] (setting : Setting C)

def Type2.Plotter.pen (plotter : Plotter C) (width : C) : Pen C where
  reversed := plotter.path.reverse
  current := plotter.current
  bearing := 0
  width := ⟨width, 0⟩
  isOpen := plotter.isOpen
  flex? := none
  horizontalStems := plotter.horizontalStems.reverse
  verticalStems := plotter.verticalStems.reverse
  ended := false

theorem pen_line (plotter : Plotter C) (width : C) (target : Point C) :
    ({ plotter.pen width with current := target }.add (.line target)) =
      ({ plotter with path := plotter.path ++ [.line target], current := target } : Plotter C).pen
        width := by
  simp [Plotter.pen, Pen.add]

theorem pen_curve (plotter : Plotter C) (width : C) (control₁ control₂ target : Point C) :
    ({ plotter.pen width with current := target }.add (.curve control₁ control₂ target)) =
      ({ plotter with
          path := plotter.path ++ [.curve control₁ control₂ target], current := target } :
        Plotter C).pen width := by
  simp [Plotter.pen, Pen.add]

variable [Zero N] (convert : ZeroHom N C)

theorem operate_trace {command : Type1Command N} {segment : Segment N}
    (trace : Traces command segment) (plotter : Plotter C) (width : C)
    (isOpen : plotter.isOpen = true) :
    (plotter.pen width).operate setting command.op (command.arguments.map convert) =
      pure ((plotter.draw convert segment).pen width) := by
  cases trace with
  | rlineto delta =>
      exact (line_by_of_open _ (plotter.pen width) isOpen _).trans (congrArg pure (pen_line _ _ _))
  | hlineto dx =>
      have zero : (⟨convert dx, 0⟩ : Point C) = Point.map convert ⟨dx, 0⟩ := by
        rw [Point.map, map_zero]
      refine (line_by_of_open _ (plotter.pen width) isOpen _).trans (congrArg pure ?_)
      rw [zero]
      exact pen_line _ _ _
  | vlineto dy =>
      have zero : (⟨0, convert dy⟩ : Point C) = Point.map convert ⟨0, dy⟩ := by
        rw [Point.map, map_zero]
      refine (line_by_of_open _ (plotter.pen width) isOpen _).trans (congrArg pure ?_)
      rw [zero]
      exact pen_line _ _ _
  | rrcurveto bend =>
      exact (curve_by_of_open _ (plotter.pen width) isOpen _ _ _).trans
        (congrArg pure (pen_curve _ _ _ _ _))

theorem is_open_draw (plotter : Plotter C) (segment : Segment N) :
    (plotter.draw convert segment).isOpen = plotter.isOpen := by
  cases segment <;> rfl

theorem is_open_foldl_draw (plotter : Plotter C) (segments : List (Segment N)) :
    (segments.foldl (Plotter.draw convert) plotter).isOpen = plotter.isOpen := by
  induction segments generalizing plotter with
  | nil => rfl
  | cons segment rest ih => rw [List.foldl_cons, ih, is_open_draw]

theorem op_of_trace {command : Type1Command N} {segment : Segment N}
    (trace : Traces command segment) : command.op ≠ .div ∧ command.op ≠ .closepath := by
  cases trace <;> constructor <;> intro same <;> cases same

theorem carries_traces {commands : List (Type1Command N)} {segments : List (Segment N)}
    (traces : TraceAll commands segments) (plotter : Plotter C) (width : C)
    (isOpen : plotter.isOpen = true) :
    Carries setting convert commands (plotter.pen width)
      ((segments.foldl (Plotter.draw convert) plotter).pen width) := by
  induction traces generalizing plotter with
  | nil => exact carries_nil setting convert _
  | @cons command segment commands segments trace _ ih =>
      have drawn := carries_command setting convert rfl (op_of_trace trace).1
        (operate_trace setting convert trace plotter width isOpen)
      have stillOpen : (plotter.draw convert segment).isOpen = true := by
        rw [is_open_draw, isOpen]
      exact carries_append setting convert drawn (ih _ stillOpen)

theorem pen_declare (plotter : Plotter C) (width : C) (vertical : Bool) (stem : Stem N) :
    (plotter.pen width).operate setting (if vertical then .vstem else .hstem)
        [convert stem.position, convert stem.width] =
      pure ((plotter.declare convert vertical [stem]).pen width) := by
  cases vertical <;>
    simp [Pen.operate, Pen.addHorizontalStems, Pen.addVerticalStems, Plotter.declare, Plotter.pen,
      Plotter.placeStem]

theorem is_open_declare (plotter : Plotter C) (vertical : Bool) (stems : List (Stem N)) :
    (plotter.declare convert vertical stems).isOpen = plotter.isOpen := by
  cases vertical <;> rfl

theorem declare_nil (plotter : Plotter C) (vertical : Bool) :
    plotter.declare convert vertical [] = plotter := by
  cases vertical <;> simp [Plotter.declare]

theorem declare_cons (plotter : Plotter C) (vertical : Bool) (stem : Stem N) (stems : List (Stem N)) :
    plotter.declare convert vertical (stem :: stems) =
      (plotter.declare convert vertical [stem]).declare convert vertical stems := by
  cases vertical <;> simp [Plotter.declare]

theorem carries_stems [Add N] (vertical : Bool) (lastEnd : N) (pairs : List (N × N))
    (plotter : Plotter C) (width : C) :
    Carries setting convert
      (Lowering.stems (if vertical then .vstem else .hstem) lastEnd
        (pairs.flatMap fun (distance, width) => [distance, width]))
      (plotter.pen width)
      ((plotter.declare convert vertical (Hint.edges lastEnd pairs)).pen width) := by
  induction pairs generalizing lastEnd plotter with
  | nil =>
      rw [Hint.edges, declare_nil]
      exact carries_nil setting convert _
  | cons pair rest ih =>
      obtain ⟨distance, thickness⟩ := pair
      have stem : Carries setting convert
          [⟨[lastEnd + distance, thickness], if vertical then .vstem else .hstem⟩] (plotter.pen width)
          ((plotter.declare convert vertical [⟨lastEnd + distance, thickness⟩]).pen width) :=
        carries_command setting convert rfl (by cases vertical <;> intro same <;> cases same)
          (pen_declare setting convert plotter width vertical ⟨lastEnd + distance, thickness⟩)
      rw [Hint.edges, declare_cons]
      exact carries_append setting convert stem (ih _ _)

theorem draws_of_trace {commands : List (Type1Command N)} {segments : List (Segment N)}
    (traces : TraceAll commands segments) : ∀ command ∈ commands, command.op ≠ .closepath := by
  induction traces with
  | nil =>
      intro command member
      cases member
  | cons trace _ ih =>
      intro command member
      rcases List.mem_cons.mp member with rfl | later
      · exact (op_of_trace trace).2
      · exact ih command later

variable (width : N)

structure Tracks (state : State N) (plotter : Plotter C) : Prop where
  decided : state.width? = some width
  carried : Carries setting convert state.reversed.reverse
    (Plotter.start.pen (convert width)) (plotter.pen (convert width))
  opened : 0 < state.subpaths ↔ plotter.isOpen = true
  unclosed : state.reversed.head?.map Command.op ≠ some .closepath

theorem tracks_start : Tracks setting convert width (CompactFont.decided width) Plotter.start where
  decided := rfl
  carried := carries_nil setting convert _
  opened := iff_of_false (Nat.lt_irrefl 0) Bool.false_ne_true
  unclosed := (Option.some_ne_none _).symm

theorem tracks_add {state : State N} {before after : Plotter C}
    (tracks : Tracks setting convert width state before) (commands : List (Type1Command N))
    (carried : Carries setting convert commands (before.pen (convert width))
      (after.pen (convert width)))
    (sameOpen : after.isOpen = before.isOpen)
    (noClose : ∀ command ∈ commands, command.op ≠ .closepath) :
    Tracks setting convert width (state.add commands) after where
  decided := tracks.decided
  carried := by
    rw [State.add, List.reverse_append, List.reverse_reverse]
    exact carries_append setting convert tracks.carried carried
  opened := by
    rw [sameOpen]
    exact tracks.opened
  unclosed := by
    rw [State.add, List.head?_append]
    cases latest : commands.reverse.head? with
    | none => exact tracks.unclosed
    | some command =>
        have member : command ∈ commands := List.mem_reverse.mp (List.mem_of_mem_head? latest)
        exact fun closes => noClose command member (Option.some.inj closes)

theorem carries_close {state : State N} {plotter : Plotter C}
    (tracks : Tracks setting convert width state plotter) :
    Carries setting convert state.close.reversed.reverse
      (Plotter.start.pen (convert width)) (plotter.close.pen (convert width)) := by
  by_cases isOpen : plotter.isOpen = true
  · have started := tracks.opened.mpr isOpen
    rw [State.close, if_pos ⟨started, tracks.unclosed⟩, Plotter.close, if_pos isOpen, State.add,
      List.reverse_append, List.reverse_reverse]
    refine carries_append setting convert tracks.carried
      (carries_command setting convert rfl (fun same => by cases same) ?_)
    simp [Pen.operate, Pen.close, Plotter.pen, isOpen, Pen.add]
  · have untouched : ¬ (0 < state.subpaths ∧ ¬ state.reversed.head?.map Command.op = some .closepath) :=
      fun closes => isOpen (tracks.opened.mp closes.1)
    rw [State.close, if_neg untouched, Plotter.close, if_neg isOpen]
    exact tracks.carried

theorem operate_move (plotter : Plotter C) (penWidth : C) (move : Move N) (op : Type1Op)
    (same : Type1Op.ofKey? move.op.key = some op) :
    (plotter.close.pen penWidth).operate setting op (move.arguments.map convert) =
      pure ((plotter.moveBy (move.vector.map convert)).pen penWidth) := by
  cases move with
  | both delta =>
      obtain rfl : .rmoveto = op := Option.some.inj same
      simp [Pen.operate, Pen.moveBy, Plotter.moveBy, Plotter.pen, Pen.add, Move.arguments,
        Move.vector, Point.map, Point.coordinates]
  | along horizontal delta =>
      cases horizontal with
      | true =>
          obtain rfl : .hmoveto = op := Option.some.inj same
          simp [Pen.operate, Pen.moveBy, Plotter.moveBy, Plotter.pen, Pen.add, Move.arguments,
            Move.vector, Point.map, Point.oriented]
      | false =>
          obtain rfl : .vmoveto = op := Option.some.inj same
          simp [Pen.operate, Pen.moveBy, Plotter.moveBy, Plotter.pen, Pen.add, Move.arguments,
            Move.vector, Point.map, Point.oriented]

theorem tracks_move {state : State N} {plotter : Plotter C}
    (tracks : Tracks setting convert width state plotter) (move : Move N) (op : Type1Op)
    (same : Type1Op.ofKey? move.op.key = some op) :
    Tracks setting convert width (state.move ⟨move.arguments, op⟩)
      (plotter.moveBy (move.vector.map convert)) where
  decided := by
    have kept : state.close.width? = state.width? := by
      rw [State.close]
      split <;> rfl
    exact kept.trans tracks.decided
  carried := by
    have moves : op ≠ .div := by
      cases move with
      | both _ =>
          cases same
          intro div
          cases div
      | along horizontal _ => cases horizontal <;> cases same <;> intro div <;> cases div
    rw [State.move, State.add, List.reverse_append, List.reverse_reverse]
    exact carries_append setting convert (carries_close setting convert width tracks)
      (carries_command setting convert rfl moves (operate_move setting convert plotter _ move op same))
  opened := ⟨fun _ => rfl, fun _ => Nat.succ_pos _⟩
  unclosed := by
    cases move with
    | both _ =>
        cases same
        intro closes
        cases closes
    | along horizontal _ => cases horizontal <;> cases same <;> intro closes <;> cases closes

theorem operate_hsbw :
    (Pen.start : Pen C).operate setting .hsbw [convert 0, convert width] =
      pure (Plotter.start.pen (convert width)) := by
  rw [map_zero]
  rfl

theorem commands_ended [Add N] {state : State N} (decided : state.width? = some width) :
    (state.clear [] .endchar).commands =
      [⟨[0, width], .hsbw⟩] ++ (state.close.reversed.reverse ++ [⟨[], .endchar⟩]) := by
  have kept : state.close.width? = state.width? := by
    rw [State.close]
    split <;> rfl
  simp [State.clear, State.commands, State.add, kept, decided]

variable [Add N] [Neg N] [Magnitude N]

theorem step_item (widths : Widths N) {state : State N} {plotter : Plotter C}
    (tracks : Tracks setting convert width state plotter) (item : Item N)
    (drawable : Item.Drawable plotter.isOpen [item]) :
    ∃ next, State.step widths state item.command = pure next ∧
      Tracks setting convert width next (plotter.perform convert item) := by
  cases item with
  | declares hint =>
      refine ⟨_, step_decided widths tracks.decided _ _ (hint_rule hint), ?_⟩
      rw [Item.command, clear_hint]
      refine tracks_add setting convert width tracks _
        (carries_stems setting convert hint.isVertical 0 hint.pairs plotter _) ?_ ?_
      · exact is_open_declare convert plotter _ _
      · intro command member
        rw [stems_op _ _ _ command member]
        cases hint.isVertical <;> intro closes <;> cases closes
  | moves move =>
      cases move with
      | both delta =>
          exact ⟨_, step_decided widths tracks.decided _ _ rfl,
            tracks_move setting convert width tracks (.both delta) .rmoveto rfl⟩
      | along horizontal delta =>
          cases horizontal with
          | true =>
              exact ⟨_, step_decided widths tracks.decided _ _ rfl,
                tracks_move setting convert width tracks (.along true delta) .hmoveto rfl⟩
          | false =>
              exact ⟨_, step_decided widths tracks.decided _ _ rfl,
                tracks_move setting convert width tracks (.along false delta) .vmoveto rfl⟩
  | draws figure =>
      obtain ⟨commands, drawn, traces⟩ := figure_trace figure
      refine ⟨state.add commands, ?_, ?_⟩
      · simp only [State.step, Item.command, figure_rule, drawn, map_pure]
      · exact tracks_add setting convert width tracks commands
          (carries_traces setting convert traces plotter _ drawable.1)
          (is_open_foldl_draw convert plotter _) (draws_of_trace traces)

theorem is_open_perform (plotter : Plotter C) (item : Item N) (rest : List (Item N))
    (drawable : Item.Drawable plotter.isOpen (item :: rest)) :
    Item.Drawable plotter.isOpen [item] ∧
      Item.Drawable (plotter.perform convert item).isOpen rest := by
  cases item with
  | declares hint =>
      rw [Plotter.perform, is_open_declare]
      exact ⟨trivial, drawable⟩
  | moves move => exact ⟨trivial, drawable⟩
  | draws figure =>
      rw [Plotter.perform, is_open_foldl_draw]
      exact ⟨⟨drawable.1, trivial⟩, drawable.2⟩

theorem fold_items (widths : Widths N) {state : State N} {plotter : Plotter C}
    (tracks : Tracks setting convert width state plotter) (items : List (Item N))
    (drawable : Item.Drawable plotter.isOpen items) :
    ∃ last, (items.map Item.command).foldlM (State.step widths) state = pure last ∧
      Tracks setting convert width last (items.foldl (Plotter.perform convert) plotter) := by
  induction items generalizing state plotter with
  | nil => exact ⟨state, rfl, tracks⟩
  | cons item rest ih =>
      obtain ⟨first, remaining⟩ := is_open_perform convert plotter item rest drawable
      obtain ⟨next, stepped, tracksNext⟩ := step_item setting convert width widths tracks item first
      obtain ⟨last, folded, tracksLast⟩ := ih tracksNext remaining
      refine ⟨last, ?_, tracksLast⟩
      rw [List.map_cons, List.foldlM_cons, stepped, pure_bind, folded]

theorem lower_program (widths : Widths N) (program : Program N) :
    ∃ commands, Lowering.lower widths program.tokens = pure (commands.flatMap Command.tokens) ∧
      Carries setting convert commands Pen.start
        { (program.plot convert).pen (convert (program.advanceWidth widths)) with ended := true } := by
  obtain ⟨state, folded, tracks⟩ := fold_items setting convert (program.advanceWidth widths) widths
    (tracks_start setting convert _) program.items program.drawable
  refine ⟨(state.clear [] .endchar).commands, ?_, ?_⟩
  · rw [Lowering.lower, fold_program, Program.commands, List.foldlM_append, folded, pure_bind,
      List.foldlM_cons, step_decided widths tracks.decided _ _ rfl]
    rfl
  · rw [commands_ended _ tracks.decided]
    have opening : Carries setting convert [⟨[0, program.advanceWidth widths], .hsbw⟩] Pen.start
        (Plotter.start.pen (convert (program.advanceWidth widths))) :=
      carries_command setting convert rfl (fun same => by cases same) (operate_hsbw setting convert _)
    have drawing := carries_close setting convert _ tracks
    have ending : Carries setting convert [⟨[], .endchar⟩]
        ((program.plot convert).pen (convert (program.advanceWidth widths)))
        { (program.plot convert).pen (convert (program.advanceWidth widths)) with ended := true } :=
      carries_command setting convert rfl (fun same => by cases same) rfl
    exact carries_append setting convert opening (carries_append setting convert drawing ending)

variable [LT C] [DecidableRel (fun a b : C => a < b)]

theorem lowered_program_draws_its_plot (widths : Widths N) (program : Program N) :
    (do
      let tokens ← Lowering.lower widths program.tokens
      let pen ← Pen.run setting (tokens.map (Token.mapNumber convert))
      pure pen.finish) = (pure (program.glyph convert widths) : Report (Glyph C)) := by
  obtain ⟨commands, lowered, carried⟩ := lower_program setting convert widths program
  rw [lowered, pure_bind, Pen.run, carried]
  simp [Pen.finish, Program.glyph, Plotter.pen]

theorem grammatical_tokens_draw_their_program {tokens : List (Token Type2Op N)}
    (grammatical : Grammatical tokens) (widths : Widths N) :
    ∃ program : Program N, program.tokens = tokens ∧
      (do
        let lowered ← Lowering.lower widths tokens
        let pen ← Pen.run setting (lowered.map (Token.mapNumber convert))
        pure pen.finish) = (pure (program.glyph convert widths) : Report (Glyph C)) := by
  obtain ⟨program, rfl⟩ := exists_program grammatical
  exact ⟨program, rfl, lowered_program_draws_its_plot setting convert widths program⟩

theorem grammatical_lines_draw_their_program :
    ∃ program : Program Float,
      program.tokens = [.number 50, .number 10, .number 20, .operator .rmoveto, .number 5,
          .number 6, .operator .hlineto, .operator .endchar] ∧
        (do
          let lowered ← Lowering.lower ⟨0, 500⟩ [.number 50, .number 10, .number 20,
            .operator .rmoveto, .number 5, .number 6, .operator .hlineto, .operator .endchar]
          let pen ← Pen.run ⟨1, none⟩ (lowered.map (Token.mapNumber single))
          pure pen.finish) = (pure (program.glyph single ⟨0, 500⟩) : Report (Glyph Float32)) := by
  have body : Follows false [.number (10 : Float), .number 20, .operator .rmoveto, .number 5, .number 6,
      .operator .hlineto, .operator .endchar] :=
    .move .rmoveto [10, 20] rfl rfl (.draw .hlineto [5, 6] ⟨rfl, rfl, rfl⟩ trivial .ended)
  exact grammatical_tokens_draw_their_program ⟨1, none⟩ ⟨single, single_zero⟩ ⟨some 50, _, rfl, body⟩
    ⟨0, 500⟩

end CompactFont
