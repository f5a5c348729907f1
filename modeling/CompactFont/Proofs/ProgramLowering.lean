import CompactFont.Proofs.Program
import Mathlib.Tactic.Common

set_option autoImplicit false

namespace CompactFont

open Lowering
open Type2 (Figure Hint Item Move Program)

variable {N : Type}

theorem group_after_command (waiting : List N) (command : Command Type2Op N)
    (rest : List (Token Type2Op N)) :
    Command.groupAfter waiting (command.tokens ++ rest) =
      ⟨waiting.reverse ++ command.arguments, command.op⟩ :: Command.groupAfter [] rest := by
  obtain ⟨arguments, op⟩ := command
  induction arguments generalizing waiting with
  | nil => simp [Command.tokens, Command.groupAfter]
  | cons argument arguments ih =>
      have step := ih (argument :: waiting)
      rw [List.reverse_cons, List.append_assoc] at step
      exact step

theorem group_after_mask (waiting : List N) (item : Item N) (rest : List (Token Type2Op N)) :
    Command.groupAfter waiting (item.maskTokens ++ rest) = Command.groupAfter waiting rest := by
  cases item with
  | declares hint => cases hint <;> rfl
  | moves _ => rfl
  | draws _ => rfl

theorem group_after_item (waiting : List N) (item : Item N) (rest : List (Token Type2Op N)) :
    Command.groupAfter waiting (item.tokens ++ rest) =
      ⟨waiting.reverse ++ item.command.arguments, item.command.op⟩ :: Command.groupAfter [] rest := by
  rw [Item.tokens, List.append_assoc, group_after_command, group_after_mask]

theorem group_after_items (items : List (Item N)) :
    Command.groupAfter [] (items.flatMap Item.tokens ++ [.operator .endchar]) =
      items.map Item.command ++ [⟨[], .endchar⟩] := by
  induction items with
  | nil => rfl
  | cons item rest ih =>
      rw [List.flatMap_cons, List.append_assoc, group_after_item, ih]
      rfl

theorem length_width (width? : Option N) : width?.toList.length = if width?.isSome then 1 else 0 := by
  cases width? <;> rfl

theorem hint_rule (hint : Hint N) :
    widthRule? hint.op = some fun count => decide (count % 2 = 1) := by
  cases hint with
  | stems vertical replaced _ => cases vertical <;> cases replaced <;> rfl
  | mask counters _ _ => cases counters <;> rfl

theorem figure_rule (figure : Figure N) : widthRule? figure.op = none := by
  cases figure with
  | alternatingLines horizontal _ => cases horizontal <;> rfl
  | parallelCurves horizontal _ _ => cases horizontal <;> rfl
  | alternatingCurves horizontal _ _ => cases horizontal <;> rfl
  | _ => rfl

theorem clear_hint [Zero N] [Add N] (state : State N) (hint : Hint N) :
    state.clear hint.arguments hint.op =
      state.add (stems (if hint.isVertical then .vstem else .hstem) 0 hint.arguments) := by
  cases hint with
  | stems vertical replaced _ => cases vertical <;> cases replaced <;> rfl
  | mask counters _ _ => cases counters <;> rfl

variable [Zero N] [Add N] [Neg N] [Magnitude N]

theorem step_decided (widths : Widths N) {state : State N} {width : N}
    (known : state.width? = some width) (command : Command Type2Op N) (hasWidth : Nat → Bool)
    (rule : widthRule? command.op = some hasWidth) :
    State.step widths state command = pure (state.clear command.arguments command.op) := by
  simp [State.step, rule, State.decideWidth, known]

def decided (width : N) : State N := { State.start with width? := some width }

theorem step_takes_width (program : Program N) (widths : Widths N) (command : Command Type2Op N)
    (hasWidth : Nat → Bool) (rule : widthRule? command.op = some hasWidth)
    (given : hasWidth (program.width?.toList ++ command.arguments).length = program.width?.isSome) :
    State.step widths State.start ⟨program.width?.toList ++ command.arguments, command.op⟩ =
      State.step widths (decided (program.advanceWidth widths)) command := by
  simp only [State.step, rule, given]
  cases width : program.width? with
  | some delta => simp [State.decideWidth, decided, State.start, Program.advanceWidth, width]
  | none =>
      cases command.arguments <;>
        simp [State.decideWidth, decided, State.start, Program.advanceWidth, width]

theorem item_takes_width (program : Program N) (widths : Widths N) (item : Item N)
    (rest : List (Item N)) (drawable : Item.Drawable false (item :: rest)) :
    State.step widths State.start
        ⟨program.width?.toList ++ item.command.arguments, item.command.op⟩ =
      State.step widths (decided (program.advanceWidth widths)) item.command := by
  cases item with
  | declares hint =>
      have odd : decide ((program.width?.toList ++ hint.arguments).length % 2 = 1) =
          program.width?.isSome := by
        rw [List.length_append, hint.length_arguments, length_width]
        cases program.width?.isSome <;> simp
      exact step_takes_width program widths _ _ (hint_rule hint) odd
  | moves move =>
      cases move with
      | both delta =>
          refine step_takes_width program widths _ (fun count => 2 < count) rfl ?_
          cases program.width? <;> rfl
      | along horizontal delta =>
          refine step_takes_width program widths _ (fun count => 1 < count)
            (by cases horizontal <;> rfl) ?_
          cases program.width? <;> rfl
  | draws figure => exact absurd drawable.1 Bool.false_ne_true

theorem endchar_takes_width (program : Program N) (widths : Widths N) :
    State.step widths State.start ⟨program.width?.toList, .endchar⟩ =
      State.step widths (decided (program.advanceWidth widths)) ⟨[], .endchar⟩ := by
  have step := step_takes_width program widths ⟨[], .endchar⟩ (fun count => count = 1 ∨ count = 5) rfl
    (by cases program.width? <;> rfl)
  rwa [List.append_nil] at step

theorem fold_program (program : Program N) (widths : Widths N) :
    (Command.group program.tokens).foldlM (State.step widths) State.start =
      program.commands.foldlM (State.step widths) (decided (program.advanceWidth widths)) := by
  have grouped (rest : List (Token Type2Op N)) :
      Command.group (program.width?.toList.map .number ++ rest) =
        Command.groupAfter program.width?.toList rest := by
    cases program.width? <;> rfl
  have reversed : program.width?.toList.reverse = program.width?.toList := by
    cases program.width? <;> rfl
  rw [Program.tokens, Program.commands, List.append_assoc, grouped]
  cases shape : program.items with
  | nil =>
      change State.step widths State.start ⟨program.width?.toList.reverse, .endchar⟩ >>= _ = _
      rw [reversed, endchar_takes_width]
      rfl
  | cons item rest =>
      have drawable : Item.Drawable false (item :: rest) := shape ▸ program.drawable
      rw [List.flatMap_cons, List.append_assoc, group_after_item, group_after_items, reversed,
        List.foldlM_cons, item_takes_width program widths item rest drawable]
      rfl

end CompactFont
