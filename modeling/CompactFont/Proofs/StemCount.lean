import CompactFont.Proofs.LoweredCommands

set_option autoImplicit false

namespace CompactFont

open Lowering

def isStem (op : Type1Op) : Bool := op = .hstem ∨ op = .vstem

def isStemToken {N : Type} : Token Type1Op N → Bool
  | .operator op => isStem op
  | _ => false

def stemCount {N : Type} (tokens : List (Token Type1Op N)) : Nat := tokens.countP isStemToken

def stemCommands {N : Type} (commands : List (Type1Command N)) : Nat :=
  commands.countP fun command => isStem command.op

theorem stem_count_tokens {N : Type} (commands : List (Type1Command N)) :
    stemCount (commands.flatMap Command.tokens) = stemCommands commands := by
  have same : (isStemToken : Token Type1Op N → Bool) = Token.isOperator isStem := by
    funext token
    cases token <;> rfl
  rw [stemCount, same]
  exact count_p_tokens isStem commands

def declaredBy (op : Type2Op) (arguments : Nat) : Nat :=
  if op.declaresStems ∨ op.takesMask then arguments / 2 else 0

def declaredIn {N : Type} : List (Command Type2Op N) → Nat
  | [] => 0
  | command :: rest => declaredBy command.op command.arguments.length + declaredIn rest

def NoStems {N : Type} (commands : List (Type1Command N)) : Prop :=
  ∀ command ∈ commands, isStem command.op = false

theorem stem_commands_of_no_stems {N : Type} {commands : List (Type1Command N)}
    (none : NoStems commands) : stemCommands commands = 0 := by
  rw [stemCommands, List.countP_eq_zero]
  intro command member
  rw [none command member]
  exact Bool.false_ne_true

variable {N : Type}

theorem no_stems_cons {command : Type1Command N} {commands : List (Type1Command N)}
    (first : isStem command.op = false) (rest : NoStems commands) :
    NoStems (command :: commands) := by
  intro other member
  rcases List.mem_cons.mp member with rfl | later
  · exact first
  · exact rest other later

theorem no_stems_nil : NoStems ([] : List (Type1Command N)) := by
  intro command member
  cases member

theorem no_stems_of_draws {op : Type2Op} {arguments : List N} {commands : List (Type1Command N)}
    (draws : Draws op arguments commands) : NoStems commands := by
  cases draws with
  | strokes _ strokes =>
      intro command member
      obtain ⟨stroke, -⟩ := strokes command member
      obtain ⟨arguments, op⟩ := command
      cases op <;> first | rfl | cases stroke
  | passedOn passed =>
      refine no_stems_cons ?_ no_stems_nil
      cases op <;> cases passed <;> rfl
  | leftOut => exact no_stems_nil

theorem stem_commands_add (state : State N) (commands : List (Type1Command N)) :
    stemCommands (state.add commands).reversed =
      stemCommands state.reversed + stemCommands commands := by
  simp only [State.add, stemCommands, List.countP_append, List.countP_reverse]
  omega

theorem stem_commands_close (state : State N) :
    stemCommands state.close.reversed = stemCommands state.reversed := by
  rw [State.close]
  split
  · rw [stem_commands_add]
    rfl
  · rfl

theorem stem_commands_stems [Add N] (op : Type1Op) (stem : isStem op = true) (lastEnd : N)
    (arguments : List N) : stemCommands (stems op lastEnd arguments) = arguments.length / 2 := by
  rw [← length_stems op lastEnd arguments, stemCommands, List.countP_eq_length]
  intro command member
  rw [stems_op op lastEnd arguments command member]
  exact stem

variable [Zero N]

theorem stem_commands_clear [Add N] (state : State N) (arguments : List N) (op : Type2Op) :
    stemCommands (state.clear arguments op).reversed =
      stemCommands state.reversed + declaredBy op arguments.length := by
  have moved (moves : Type1Op) (plain : isStem moves = false) :
      stemCommands (state.move ⟨arguments, moves⟩).reversed = stemCommands state.reversed := by
    have one : stemCommands [(⟨arguments, moves⟩ : Type1Command N)] = 0 :=
      stem_commands_of_no_stems (no_stems_cons plain no_stems_nil)
    rw [State.move, stem_commands_add, one]
    exact stem_commands_close state
  have ended : stemCommands (state.clear arguments .endchar).reversed =
      stemCommands state.reversed := by
    rw [State.clear, stem_commands_add, stem_commands_close]
    split <;> rfl
  cases op with
  | hstem | hstemhm | vstem | vstemhm | hintmask | cntrmask =>
      rw [State.clear, stem_commands_add, stem_commands_stems _ rfl]
      rfl
  | hmoveto => exact moved .hmoveto rfl
  | vmoveto => exact moved .vmoveto rfl
  | rmoveto => exact moved .rmoveto rfl
  | endchar => exact ended
  | _ => rfl

variable [Add N] [Neg N] [Magnitude N]

theorem declared_by_width {op : Type2Op} {hasWidth : Nat → Bool}
    (rule : widthRule? op = some hasWidth) {count : Nat} (given : hasWidth (count + 1) = true) :
    declaredBy op count = declaredBy op (count + 1) := by
  cases op with
  | hstem | hstemhm | vstem | vstemhm | hintmask | cntrmask =>
      cases rule
      have odd : (count + 1) % 2 = 1 := of_decide_eq_true given
      change count / 2 = (count + 1) / 2
      omega
  | _ => rfl

-- An odd argument is the width, or is left over: either way it is no part of a stem.
theorem stem_commands_step (widths : Widths N) (state : State N) (command : Command Type2Op N) :
    stemCommands (State.step widths state command).value.reversed =
      stemCommands state.reversed + declaredBy command.op command.arguments.length := by
  obtain ⟨arguments, op⟩ := command
  simp only [State.step]
  split
  · rename_i hasWidth rule
    simp only [Report.value_pure, stem_commands_clear, State.decideWidth]
    split
    · rfl
    · rename_i delta rest undecided
      by_cases given : hasWidth (delta :: rest).length = true
      · rw [if_pos given, List.length_cons, ← declared_by_width rule given]
      · rw [if_neg given]
    · rfl
  · rename_i rule
    have plain : declaredBy op arguments.length = 0 := by
      cases op with
      | hstem | hstemhm | vstem | vstemhm | hintmask | cntrmask => cases rule
      | _ => rfl
    have none := no_stems_of_draws (draws_draw (leaves_of_no_rule rule) arguments)
    rw [Report.value_map, stem_commands_add, plain, stem_commands_of_no_stems none]

theorem stem_commands_fold (widths : Widths N) (state : State N)
    (commands : List (Command Type2Op N)) :
    stemCommands (commands.foldlM (State.step widths) state).value.reversed =
      stemCommands state.reversed + declaredIn commands := by
  induction commands generalizing state with
  | nil => rfl
  | cons command rest ih =>
      rw [List.foldlM_cons, Report.value_bind, ih, stem_commands_step, declaredIn]
      omega

theorem stem_count_lower (widths : Widths N) (tokens : List (Token Type2Op N)) :
    stemCount (lower widths tokens).value = declaredIn (Command.group tokens) := by
  have folded := stem_commands_fold widths State.start (Command.group tokens)
  have opening (width? : Option N) :
      stemCommands (width?.map fun width => (⟨[0, width], .hsbw⟩ : Type1Command N)).toList = 0 := by
    cases width? <;> rfl
  have start : stemCommands (State.start : State N).reversed = 0 := rfl
  rw [start, Nat.zero_add] at folded
  rw [lower, Report.value_bind, Report.value_pure, stem_count_tokens, ← folded, State.commands]
  simp only [stemCommands] at opening ⊢
  rw [List.countP_append, opening, List.countP_reverse, Nat.zero_add]

end CompactFont
