import CompactFont.Proofs.MaskLength
import CompactFont.Proofs.PenRun

set_option autoImplicit false

namespace CompactFont

open Lowering

section Pens

variable {N C : Type} [Coordinate C] (setting : Setting C) (convert : N → C)

def performed (commands : List (Type1Command N)) (waiting : Pen.Waiting C) :
    Report (Pen.Waiting C) :=
  ((commands.flatMap Command.tokens).map (Token.mapNumber convert)).foldlM (Pen.step setting) waiting

def awaited (numbers : List N) (waiting : Pen.Waiting C) : Pen.Waiting C :=
  if waiting.pen.ended then waiting
  else { waiting with numbers := (numbers.map convert).reverse ++ waiting.numbers }

structure IsQuotient (dividend divisor quotient : N) : Prop where
  nonzero : Coordinate.isZero (convert divisor) = false
  divided : convert dividend / convert divisor = convert quotient

theorem performed_append (first second : List (Type1Command N)) (waiting : Pen.Waiting C) :
    performed setting convert (first ++ second) waiting =
      performed setting convert first waiting >>= performed setting convert second := by
  rw [performed, List.flatMap_append, List.map_append, List.foldlM_append]
  rfl

theorem performed_numbers (numbers arguments : List N) (op : Type1Op) (waiting : Pen.Waiting C) :
    performed setting convert [⟨numbers ++ arguments, op⟩] waiting =
      performed setting convert [⟨arguments, op⟩] (awaited convert numbers waiting) := by
  by_cases ended : waiting.pen.ended = true
  · rw [performed, performed, awaited, if_pos ended, foldl_m_ended setting _ ended,
      foldl_m_ended setting _ ended]
  · have shape : Command.tokens ⟨numbers ++ arguments, op⟩ =
        numbers.map .number ++ Command.tokens ⟨arguments, op⟩ := by
      simp [Command.tokens]
    rw [performed, performed, awaited, if_neg ended, List.flatMap_singleton, shape,
      List.flatMap_singleton, List.map_append]
    exact step_numbers setting convert waiting.pen (by simpa using ended) numbers waiting.numbers _

theorem performed_quotient {dividend divisor quotient : N}
    (divides : IsQuotient convert dividend divisor quotient) (earlier : List N)
    (waiting : Pen.Waiting C) :
    performed setting convert [⟨earlier ++ [dividend, divisor], .div⟩] waiting =
      pure (awaited convert (earlier ++ [quotient]) waiting) := by
  by_cases ended : waiting.pen.ended = true
  · rw [performed, awaited, if_pos ended, foldl_m_ended setting _ ended]
  · have drawing : waiting.pen.ended = false := by simpa using ended
    rw [performed_numbers, awaited, awaited, if_neg ended, if_neg ended]
    simp [performed, Command.tokens, Token.mapNumber, Pen.step, drawing, Pen.divide,
      divides.nonzero, divides.divided]

end Pens

section Grouping

variable {N : Type}

def preceded (numbers : List N) : List (Command Type2Op N) → List (Command Type2Op N)
  | [] => []
  | ⟨arguments, op⟩ :: rest => ⟨numbers ++ arguments, op⟩ :: rest

theorem group_after_preceded (later earlier : List N) (tokens : List (Token Type2Op N)) :
    Command.groupAfter (later ++ earlier) tokens =
      preceded earlier.reverse (Command.groupAfter later tokens) := by
  induction tokens generalizing later with
  | nil => rfl
  | cons token rest ih =>
      cases token with
      | number value => exact ih (value :: later)
      | operator op => simp [Command.groupAfter, preceded]
      | mask bytes => exact ih later

variable [Zero N] [Add N] [Neg N] [Magnitude N]

def stateAfter (widths : Widths N) (tokens : List (Token Type2Op N)) : State N :=
  ((Command.group tokens).foldlM (State.step widths) State.start).value

def CarriesNoWidth (state : State N) (op : Type2Op) (count : Nat) : Prop :=
  state.width? = none → ∀ hasWidth, widthRule? op = some hasWidth → hasWidth count = false

-- With so many numbers waiting, the next command leaves them to the pen in their places, if there
-- is one at all.
inductive HandsOn (state : State N) (count : Nat) : List (Command Type2Op N) → Prop where
  | last : HandsOn state count []
  | kept {arguments : List N} {op : Type2Op} {rest : List (Command Type2Op N)}
      (plain : op = .div ∨ op = .dotsection ∨ op = .callsubr ∨ op = .subrReturn) :
      HandsOn state count (⟨arguments, op⟩ :: rest)
  | moved {arguments : List N} {op : Type2Op} {rest : List (Command Type2Op N)}
      (starts : op.startsSubpath = true) (first : state.subpaths = 0)
      (whole : CarriesNoWidth state op (count + arguments.length))
      (left : CarriesNoWidth state op arguments.length) :
      HandsOn state count (⟨arguments, op⟩ :: rest)

end Grouping

section Lowered

variable {N C : Type} [Coordinate C] (setting : Setting C) (convert : N → C)

-- States that differ in nothing that later commands or the pen can tell.
structure Alike (first second : State N) : Prop where
  width : first.width? = second.width?
  subpaths : first.subpaths = second.subpaths
  last : first.reversed.head?.map Command.op = second.reversed.head?.map Command.op
  drawing : ∀ waiting, performed setting convert first.reversed.reverse waiting =
    performed setting convert second.reversed.reverse waiting

variable {setting convert} {first second : State N}

theorem alike_add (alike : Alike setting convert first second) (commands : List (Type1Command N)) :
    Alike setting convert (first.add commands) (second.add commands) where
  width := alike.width
  subpaths := alike.subpaths
  last := by
    simp only [State.add, List.head?_append, Option.map_or, alike.last]
  drawing waiting := by
    rw [reverse_reversed_add, reverse_reversed_add, performed_append, performed_append,
      alike.drawing]

theorem alike_close (alike : Alike setting convert first second) :
    Alike setting convert first.close second.close := by
  simp only [State.close, alike.subpaths, alike.last]
  split
  · exact alike_add alike _
  · exact alike

theorem alike_move (alike : Alike setting convert first second) (command : Type1Command N) :
    Alike setting convert (first.move command) (second.move command) := by
  have closed := alike_close alike
  apply alike_add
  exact ⟨closed.width, congrArg (· + 1) closed.subpaths, closed.last, closed.drawing⟩

theorem alike_decide_width (alike : Alike setting convert first second) [Add N]
    (widths : Widths N) (given : Bool) (arguments : List N) :
    Alike setting convert (first.decideWidth widths given arguments).1
        (second.decideWidth widths given arguments).1 ∧
      (first.decideWidth widths given arguments).2 =
        (second.decideWidth widths given arguments).2 := by
  have decided (width : N) : Alike setting convert { first with width? := some width }
      { second with width? := some width } :=
    ⟨rfl, alike.subpaths, alike.last, alike.drawing⟩
  simp only [State.decideWidth, alike.width]
  cases second.width? with
  | some width => exact ⟨alike, rfl⟩
  | none =>
      cases arguments with
      | nil => exact ⟨decided _, rfl⟩
      | cons delta rest => cases given <;> exact ⟨decided _, rfl⟩

theorem move_first (state : State N) (first : state.subpaths = 0) (command : Type1Command N) :
    state.move command = { state with subpaths := state.subpaths + 1 }.add [command] := by
  have still : state.close = state := by
    rw [State.close, first]
    exact if_neg fun closing => absurd closing.1 (Nat.lt_irrefl 0)
  rw [State.move, still]

theorem alike_quotient {dividend divisor quotient : N}
    (divides : IsQuotient convert dividend divisor quotient) (state : State N)
    (waiting arguments : List N) (op : Type1Op) :
    Alike setting convert (state.add [⟨(quotient :: waiting).reverse ++ arguments, op⟩])
      ((state.add [⟨(divisor :: dividend :: waiting).reverse, .div⟩]).add [⟨arguments, op⟩]) where
  width := rfl
  subpaths := rfl
  last := rfl
  drawing before := by
    have numbers : (quotient :: waiting).reverse = waiting.reverse ++ [quotient] := by simp
    have operands : (divisor :: dividend :: waiting).reverse =
        waiting.reverse ++ [dividend, divisor] := by simp
    rw [reverse_reversed_add, reverse_reversed_add, reverse_reversed_add, performed_append,
      performed_append, performed_append, bind_assoc, numbers, operands]
    refine bind_congr fun middle => ?_
    rw [performed_numbers, performed_quotient setting convert divides, pure_bind]

theorem alike_moved {dividend divisor quotient : N}
    (divides : IsQuotient convert dividend divisor quotient) (state : State N)
    (first : state.subpaths = 0) (waiting arguments : List N) (op : Type1Op) :
    Alike setting convert (state.move ⟨(quotient :: waiting).reverse ++ arguments, op⟩)
      ((state.add [⟨(divisor :: dividend :: waiting).reverse, .div⟩]).move ⟨arguments, op⟩) := by
  rw [move_first state first, move_first (state.add _) first]
  exact alike_quotient divides { state with subpaths := state.subpaths + 1 } waiting arguments op

variable [Zero N]

def penAfter (setting : Setting C) (convert : N → C) (state : State N) : Pen C :=
  (performed setting convert state.commands ⟨Pen.start, []⟩).value.pen

theorem pen_after_of_alike (alike : Alike setting convert first second) :
    penAfter setting convert first = penAfter setting convert second := by
  rw [penAfter, penAfter, State.commands, State.commands, performed_append, performed_append,
    Report.value_bind, Report.value_bind, alike.width, alike.drawing]

theorem pen_after_quotient {dividend divisor quotient : N}
    (divides : IsQuotient convert dividend divisor quotient) (state : State N) (earlier : List N) :
    penAfter setting convert (state.add [⟨earlier ++ [dividend, divisor], .div⟩]) =
      penAfter setting convert state := by
  have commands : (state.add [⟨earlier ++ [dividend, divisor], .div⟩]).commands =
      state.commands ++ [⟨earlier ++ [dividend, divisor], .div⟩] := by
    rw [State.commands, State.commands, reverse_reversed_add, List.append_assoc]
    rfl
  rw [penAfter, penAfter, commands, performed_append, Report.value_bind,
    performed_quotient setting convert divides, Report.value_pure, awaited]
  split <;> rfl

variable [Add N]

theorem alike_clear (alike : Alike setting convert first second) (arguments : List N)
    (op : Type2Op) :
    Alike setting convert (first.clear arguments op) (second.clear arguments op) := by
  cases op with
  | hstem | hstemhm | vstem | vstemhm | hintmask | cntrmask => exact alike_add alike _
  | hmoveto | vmoveto | rmoveto => exact alike_move alike _
  | endchar => exact alike_add (alike_close alike) _
  | _ => exact alike

variable [Neg N] [Magnitude N] (widths : Widths N)

theorem alike_step (alike : Alike setting convert first second) (command : Command Type2Op N) :
    Alike setting convert (State.step widths first command).value
      (State.step widths second command).value := by
  simp only [State.step]
  split
  · rename_i hasWidth rule
    obtain ⟨decided, same⟩ := alike_decide_width alike widths
      (hasWidth command.arguments.length) command.arguments
    simp only [Report.value_pure, same]
    exact alike_clear decided _ _
  · exact alike_add alike _

theorem alike_run (alike : Alike setting convert first second)
    (commands : List (Command Type2Op N)) :
    Alike setting convert (commands.foldlM (State.step widths) first).value
      (commands.foldlM (State.step widths) second).value := by
  induction commands generalizing first second with
  | nil => exact alike
  | cons command rest ih =>
      rw [List.foldlM_cons, List.foldlM_cons, Report.value_bind, Report.value_bind]
      exact ih (alike_step widths alike command)

theorem step_without_width (state : State N) {arguments : List N} {op : Type2Op}
    {hasWidth : Nat → Bool} (rule : widthRule? op = some hasWidth)
    (none : CarriesNoWidth state op arguments.length) :
    (State.step widths state ⟨arguments, op⟩).value =
      { state with width? := some (state.width?.getD widths.default) }.clear arguments op := by
  have decided : state.decideWidth widths (hasWidth arguments.length) arguments =
      ({ state with width? := some (state.width?.getD widths.default) }, arguments) := by
    obtain ⟨width?, subpaths, reversed⟩ := state
    cases width? with
    | some width => rfl
    | none =>
        have absent : hasWidth arguments.length = false := none rfl hasWidth rule
        cases arguments with
        | nil => rfl
        | cons delta rest =>
            rw [absent]
            rfl
  simp only [State.step, rule, decided]
  rfl

theorem alike_handed {dividend divisor quotient : N}
    (divides : IsQuotient convert dividend divisor quotient) (state : State N) (waiting : List N)
    {arguments : List N} {op : Type2Op} {rest : List (Command Type2Op N)}
    (hands : HandsOn state (waiting.length + 1) (⟨arguments, op⟩ :: rest)) :
    Alike setting convert
      (State.step widths state ⟨(quotient :: waiting).reverse ++ arguments, op⟩).value
      (State.step widths (state.add [⟨(divisor :: dividend :: waiting).reverse, .div⟩])
        ⟨arguments, op⟩).value := by
  cases hands with
  | kept plain =>
      rcases plain with rfl | rfl | rfl | rfl <;> exact alike_quotient divides state waiting _ _
  | moved starts first whole left =>
      have count : ((quotient :: waiting).reverse ++ arguments).length =
          waiting.length + 1 + arguments.length := by
        rw [List.length_append, List.length_reverse, List.length_cons]
      have later : CarriesNoWidth
          (state.add [⟨(divisor :: dividend :: waiting).reverse, .div⟩]) op arguments.length := left
      rw [← count] at whole
      cases op with
      | rmoveto | hmoveto | vmoveto =>
          rw [step_without_width widths state rfl whole, step_without_width widths _ rfl later]
          exact alike_moved divides
            { state with width? := some (state.width?.getD widths.default) } first waiting arguments _
      | _ => cases starts

theorem state_after_append (before after : List (Token Type2Op N)) :
    stateAfter widths (before ++ after) =
      ((Command.groupAfter (waitingAfter [] before) after).foldlM (State.step widths)
        (stateAfter widths before)).value := by
  rw [stateAfter, Command.group, group_after_append, List.foldlM_append, Report.value_bind]
  rfl

def drawn [LT C] [DecidableRel (fun a b : C => a < b)] (setting : Setting C) (convert : N → C)
    (widths : Widths N) (tokens : List (Token Type2Op N)) : Report (Glyph C) := do
  let lowered ← lower widths tokens
  let pen ← Pen.run setting (lowered.map (Token.mapNumber convert))
  pure pen.finish

variable [LT C] [DecidableRel (fun a b : C => a < b)]

theorem value_drawn (tokens : List (Token Type2Op N)) :
    (drawn setting convert widths tokens).value =
      (penAfter setting convert (stateAfter widths tokens)).finish := rfl

theorem drawn_quotient {dividend divisor quotient : N}
    (divides : IsQuotient convert dividend divisor quotient) (before after : List (Token Type2Op N))
    (hands : HandsOn (stateAfter widths before) ((waitingAfter [] before).length + 1)
      (Command.groupAfter [] after)) :
    (drawn setting convert widths
        (before ++ .number dividend :: .number divisor :: .operator .div :: after)).value =
      (drawn setting convert widths (before ++ .number quotient :: after)).value := by
  have counted := group_after_preceded [] (quotient :: waitingAfter [] before) after
  rw [value_drawn, value_drawn, state_after_append, state_after_append]
  simp only [Command.groupAfter, List.nil_append] at counted ⊢
  rw [counted]
  cases following : Command.groupAfter [] after with
  | nil =>
      have operands : (divisor :: dividend :: waitingAfter [] before).reverse =
          (waitingAfter [] before).reverse ++ [dividend, divisor] := by simp
      rw [operands]
      exact congrArg Pen.finish (pen_after_quotient divides _ _)
  | cons command rest =>
      rw [following] at hands
      exact congrArg Pen.finish
        (pen_after_of_alike (alike_run widths (alike_handed widths divides _ _ hands) rest)).symm

end Lowered

def around (op : Type2Op) : List (Token Type2Op Float) × List (Token Type2Op Float) :=
  if op = .endchar then ([], [])
  else
    ([.number 0, .number 0, .operator .rmoveto, .number 3],
      [.number 1, .number 1, .operator .rlineto])

theorem is_quotient_two : IsQuotient single 4 2 2 where
  nonzero := by decide +kernel
  divided := by decide +kernel

theorem drawn_around_quotient : ∀ op ∈ Type2Op.all,
    (drawn ⟨0, none⟩ single ⟨0, 0⟩ ((around op).1 ++ .number 4 :: .number 2 :: .operator .div ::
        .operator op :: (around op).2)).value =
      (drawn ⟨0, none⟩ single ⟨0, 0⟩
        ((around op).1 ++ .number 2 :: .operator op :: (around op).2)).value →
    op = .div ∨ op = .dotsection ∨ op = .callsubr ∨ op = .subrReturn := by
  decide +kernel

def StandsBefore (op : Type2Op) : Prop :=
  ∀ (setting : Setting Float32) (widths : Widths Float) (before after : List (Token Type2Op Float))
    (dividend divisor quotient : Float), IsQuotient single dividend divisor quotient →
    (drawn setting single widths (before ++ .number dividend :: .number divisor ::
        .operator .div :: .operator op :: after)).value =
      (drawn setting single widths (before ++ .number quotient :: .operator op :: after)).value

/-- A quotient stands for its number if no operator follows, or the next one is passed on as it is,
or starts the first subpath and takes no width. The operators before which it does so in every
charstring are the four that are passed on as they are. -/
theorem quotient_stands_where_handed_on (setting : Setting Float32) (widths : Widths Float)
    (before after : List (Token Type2Op Float)) {dividend divisor quotient : Float}
    (divides : IsQuotient single dividend divisor quotient) :
    (HandsOn (stateAfter widths before) ((waitingAfter [] before).length + 1)
        (Command.groupAfter [] after) →
      (drawn setting single widths
          (before ++ .number dividend :: .number divisor :: .operator .div :: after)).value =
        (drawn setting single widths (before ++ .number quotient :: after)).value) ∧
    ∀ op, StandsBefore op ↔ op = .div ∨ op = .dotsection ∨ op = .callsubr ∨ op = .subrReturn := by
  refine ⟨drawn_quotient widths divides before after, fun op => ⟨fun stands => ?_, fun plain => ?_⟩⟩
  · exact drawn_around_quotient op (Type2Op.mem_all op)
      (stands ⟨0, none⟩ ⟨0, 0⟩ (around op).1 (around op).2 4 2 2 is_quotient_two)
  · intro setting widths before after dividend divisor quotient divides
    exact drawn_quotient widths divides before (.operator op :: after) (.kept plain)

theorem quotient_starts_subpath :
    (drawn ⟨0, none⟩ single ⟨0, 0⟩ [.number 4, .number 2, .operator .div, .number 3,
        .operator .rmoveto, .number 1, .number 1, .operator .rlineto, .operator .endchar]).value =
      (drawn ⟨0, none⟩ single ⟨0, 0⟩ [.number 2, .number 3, .operator .rmoveto, .number 1, .number 1,
        .operator .rlineto, .operator .endchar]).value := by
  have settled (count : Nat) (few : count ≤ 2) :
      CarriesNoWidth (stateAfter (⟨0, 0⟩ : Widths Float) []) .rmoveto count := by
    intro _ hasWidth rule
    cases rule
    exact decide_eq_false (Nat.not_lt_of_le few)
  exact (quotient_stands_where_handed_on ⟨0, none⟩ ⟨0, 0⟩ [] _ is_quotient_two).1
    (.moved rfl rfl (settled 2 (by decide)) (settled 1 (by decide)))

-- The line lost its first number to the quotient, so that there is no line.
theorem quotient_loses_line :
    IsQuotient single 10 2 5 ∧
      (drawn ⟨0, none⟩ single ⟨0, 0⟩ [.number 0, .number 0, .operator .rmoveto, .number 5, .number 5,
        .operator .rlineto, .operator .endchar]).value.path =
          [.move ⟨0, 0⟩, .line ⟨5, 5⟩, .close] ∧
      (drawn ⟨0, none⟩ single ⟨0, 0⟩ [.number 0, .number 0, .operator .rmoveto, .number 10, .number 2,
        .operator .div, .number 5, .operator .rlineto, .operator .endchar]).value.path =
          [.move ⟨0, 0⟩, .close] :=
  ⟨⟨by decide +kernel, by decide +kernel⟩, by decide +kernel, by decide +kernel⟩

end CompactFont
