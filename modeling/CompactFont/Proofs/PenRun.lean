import CompactFont.Charstring.Lowering
import CompactFont.Outline.Pen

set_option autoImplicit false

namespace CompactFont

open Lowering

variable {N C : Type} [Coordinate C] (setting : Setting C) (convert : N → C)

def Carries (commands : List (Type1Command N)) (before after : Pen C) : Prop :=
  ((commands.flatMap Command.tokens).map (Token.mapNumber convert)).foldlM (Pen.step setting)
    ⟨before, []⟩ = pure ⟨after, []⟩

theorem carries_nil (pen : Pen C) : Carries setting convert [] pen pen := rfl

theorem carries_append {first second : List (Type1Command N)} {before middle after : Pen C}
    (head : Carries setting convert first before middle)
    (tail : Carries setting convert second middle after) :
    Carries setting convert (first ++ second) before after := by
  rw [Carries, List.flatMap_append, List.map_append, List.foldlM_append, head, pure_bind]
  exact tail

theorem foldl_m_ended (tokens : List (Token Type1Op C)) {waiting : Pen.Waiting C}
    (ended : waiting.pen.ended = true) :
    tokens.foldlM (Pen.step setting) waiting = pure waiting := by
  induction tokens with
  | nil => rfl
  | cons token rest ih =>
      have idle : Pen.step setting waiting token = pure waiting := by
        simp [Pen.step, ended]
      rw [List.foldlM_cons, idle, pure_bind, ih]

theorem step_numbers (pen : Pen C) (drawing : pen.ended = false) (arguments : List N)
    (waiting : List C) (rest : List (Token Type1Op C)) :
    ((arguments.map Token.number).map (Token.mapNumber convert) ++ rest).foldlM (Pen.step setting)
        ⟨pen, waiting⟩ =
      rest.foldlM (Pen.step setting) ⟨pen, (arguments.map convert).reverse ++ waiting⟩ := by
  induction arguments generalizing waiting with
  | nil => rfl
  | cons argument arguments ih =>
      have step : Pen.step setting ⟨pen, waiting⟩ (.number (convert argument)) =
          pure ⟨pen, convert argument :: waiting⟩ := by
        simp [Pen.step, drawing]
      have next := ih (convert argument :: waiting)
      rw [List.map_cons, List.map_cons, List.cons_append, List.foldlM_cons, Token.mapNumber, step,
        pure_bind, next]
      simp

theorem step_operator (pen : Pen C) (drawing : pen.ended = false) (numbers : List C) (op : Type1Op)
    (notDiv : op ≠ .div) :
    Pen.step setting ⟨pen, numbers⟩ (.operator op) =
      (do pure ⟨← pen.operate setting op numbers.reverse, []⟩) := by
  have running : ¬ (pen.ended = true) := by simp [drawing]
  unfold Pen.step
  rw [if_neg running]
  cases op with
  | div => exact absurd rfl notDiv
  | _ => rfl

theorem carries_command {command : Type1Command N} {before after : Pen C}
    (drawing : before.ended = false) (notDiv : command.op ≠ .div)
    (operated : before.operate setting command.op (command.arguments.map convert) = pure after) :
    Carries setting convert [command] before after := by
  rw [Carries, List.flatMap_singleton, Command.tokens, List.map_append,
    step_numbers setting convert before drawing, List.map_singleton, Token.mapNumber,
    List.foldlM_cons, step_operator setting before drawing _ _ notDiv, List.append_nil,
    List.reverse_reverse, operated]
  rfl

theorem line_by_of_open (glyph : Nat) (pen : Pen C) (isOpen : pen.isOpen = true) (delta : Point C) :
    pen.lineBy glyph delta =
      pure ({ pen with current := pen.current + delta }.add (.line (pen.current + delta))) := by
  simp [Pen.lineBy, Pen.ensureOpen, isOpen]

theorem curve_by_of_open (glyph : Nat) (pen : Pen C) (isOpen : pen.isOpen = true)
    (delta₁ delta₂ delta₃ : Point C) :
    pen.curveBy glyph delta₁ delta₂ delta₃ =
      pure ({ pen with current := pen.current + delta₁ + delta₂ + delta₃ }.add
        (.curve (pen.current + delta₁) (pen.current + delta₁ + delta₂)
          (pen.current + delta₁ + delta₂ + delta₃))) := by
  simp [Pen.curveBy, Pen.ensureOpen, isOpen]

end CompactFont
