import CompactFont.Proofs.IndexReading
import CompactFont.Proofs.StemCount
import CompactFont.Proofs.Type2Run

set_option autoImplicit false

namespace CompactFont

open Lowering

variable {N : Type}

section Grouping

def waitingAfter : List N → List (Token Type2Op N) → List N
  | waiting, [] => waiting
  | waiting, .number value :: rest => waitingAfter (value :: waiting) rest
  | _, .operator _ :: rest => waitingAfter [] rest
  | waiting, .mask _ :: rest => waitingAfter waiting rest

theorem group_after_append (waiting : List N) (first second : List (Token Type2Op N)) :
    Command.groupAfter waiting (first ++ second) =
      Command.groupAfter waiting first ++ Command.groupAfter (waitingAfter waiting first) second := by
  induction first generalizing waiting with
  | nil => rfl
  | cons token rest ih =>
      cases token with
      | number value => exact ih (value :: waiting)
      | operator op => exact congrArg _ (ih [])
      | mask bytes => exact ih waiting

theorem waiting_after_append (waiting : List N) (first second : List (Token Type2Op N)) :
    waitingAfter waiting (first ++ second) = waitingAfter (waitingAfter waiting first) second := by
  induction first generalizing waiting with
  | nil => rfl
  | cons token rest ih => cases token <;> exact ih _

theorem group_after_map {M : Type} (f : N → M) (waiting : List N) (tokens : List (Token Type2Op N)) :
    Command.groupAfter (waiting.map f) (tokens.map (Token.mapNumber f)) =
      (Command.groupAfter waiting tokens).map fun command => ⟨command.arguments.map f, command.op⟩ := by
  induction tokens generalizing waiting with
  | nil => rfl
  | cons token rest ih =>
      cases token with
      | number value => exact ih (value :: waiting)
      | operator op =>
          have next := ih []
          rw [List.map_nil] at next
          rw [List.map_cons, Token.mapNumber, Command.groupAfter, Command.groupAfter, next,
            List.map_cons, List.map_reverse]
      | mask bytes => exact ih waiting

theorem declared_in_append (first second : List (Command Type2Op N)) :
    declaredIn (first ++ second) = declaredIn first + declaredIn second := by
  induction first with
  | nil => exact (Nat.zero_add _).symm
  | cons command rest ih =>
      rw [List.cons_append, declaredIn, declaredIn, ih]
      omega

theorem declared_in_map {M : Type} (f : N → M) (commands : List (Command Type2Op N)) :
    declaredIn (commands.map fun command => ⟨command.arguments.map f, command.op⟩) =
      declaredIn commands := by
  induction commands with
  | nil => rfl
  | cons command rest ih => rw [List.map_cons, declaredIn, declaredIn, ih, List.length_map]

end Grouping

namespace Type2

def declared : Stack → Nat
  | [] => 0
  | .operator op :: rest => declaredBy op (Token.pending rest) + declared rest
  | _ :: rest => declared rest

def MasksFit : Stack → Prop
  | [] => True
  | .mask mask :: rest =>
      (∃ op below, rest = .operator op :: below ∧ op.takesMask = true) ∧
        mask.length = (declared rest + 7) / 8 ∧ MasksFit rest
  | _ :: rest => MasksFit rest

structure Counted (state : State) : Prop where
  stems : state.stems = declared state.tokens
  masks : MasksFit state.tokens

def NoStrayCall (notice : Notice) : Prop := ∀ found, notice ≠ .type2CallWithout (some found)

theorem declared_plain {op : Type2Op} (plain : op.declaresStems = false ∧ op.takesMask = false)
    (tokens : Stack) : declared (.operator op :: tokens) = declared tokens := by
  rw [declared, declaredBy, plain.1, plain.2]
  simp

theorem declared_declares {op : Type2Op} (declares : op.declaresStems = true ∨ op.takesMask = true)
    (tokens : Stack) :
    declared (.operator op :: tokens) = declared tokens + Token.pending tokens / 2 := by
  rw [declared, declaredBy, if_pos declares, Nat.add_comm]

theorem kept_counted (subroutines : Subroutines) : Kept subroutines NoStrayCall Counted where
  next state next counted running steps := by
    cases steps with
    | ignored => exact counted
    | pushed value => exact ⟨counted.stems, counted.masks⟩
    | added op plain =>
        exact ⟨counted.stems.trans (declared_plain plain.hintless _).symm, counted.masks⟩
    | declared op declares =>
        refine ⟨?_, counted.masks⟩
        change state.stems + Token.pending state.tokens / 2 = _
        rw [counted.stems]
        exact (declared_declares (Or.inl declares) _).symm
    | masked op takes mask length =>
        have stems : state.declareStems.stems = declared (.operator op :: state.tokens) := by
          change state.stems + Token.pending state.tokens / 2 = _
          rw [counted.stems]
          exact (declared_declares (Or.inr takes) _).symm
        refine ⟨stems, ⟨op, _, rfl, takes⟩, ?_, counted.masks⟩
        rw [length, State.maskLength, stems]
        rfl
    | ended => exact ⟨counted.stems.trans (declared_plain ⟨rfl, rfl⟩ _).symm, counted.masks⟩
  popped state operand rest counted _ shape := by
    obtain ⟨stems, masks⟩ := counted
    rw [shape] at stems masks
    exact ⟨stems, masks⟩
  stray state counted _ notNumber quiet := by
    cases shape : state.tokens with
    | nil =>
        obtain ⟨stems, masks⟩ := counted
        rw [shape] at stems masks
        exact ⟨stems, masks⟩
    | cons token rest =>
        rw [shape] at quiet
        exact absurd rfl (quiet token)
  dropped state counted := by
    obtain ⟨stems, masks⟩ := counted
    rw [State.dropReturn]
    split
    · rename_i rest shape
      rw [shape] at stems masks
      exact ⟨stems.trans (declared_plain ⟨rfl, rfl⟩ rest), masks⟩
    · exact ⟨stems, masks⟩

theorem length_waiting_after (stack : Stack) (masks : MasksFit stack) :
    (waitingAfter [] stack.reverse).length = Token.pending stack := by
  induction stack with
  | nil => rfl
  | cons token rest ih =>
      rw [List.reverse_cons, waiting_after_append]
      cases token with
      | number value =>
          have pending : Token.pending (.number value :: rest) = Token.pending rest + 1 := rfl
          rw [pending, ← ih masks]
          rfl
      | operator op => rfl
      | mask bytes =>
          obtain ⟨⟨op, below, shape, -⟩, -, fit⟩ := masks
          have none := ih fit
          rw [shape] at none ⊢
          exact none

theorem declared_in_stack (stack : Stack) (masks : MasksFit stack) :
    declaredIn (Command.group stack.reverse) = declared stack := by
  induction stack with
  | nil => rfl
  | cons token rest ih =>
      rw [Command.group] at ih ⊢
      rw [List.reverse_cons, group_after_append, declared_in_append]
      cases token with
      | number value => exact ih masks
      | operator op =>
          have waiting := length_waiting_after rest masks
          have last : declaredIn (Command.groupAfter (waitingAfter [] rest.reverse) [.operator op]) =
              declaredBy op (Token.pending rest) := by
            rw [Command.groupAfter, Command.groupAfter, declaredIn, declaredIn, List.length_reverse,
              waiting, Nat.add_zero]
          rw [ih masks, declared, last, Nat.add_comm]
      | mask bytes => exact ih masks.2.2

theorem masks_fit_below (above below : Stack) (masks : MasksFit (above ++ below)) :
    MasksFit below := by
  induction above with
  | nil => exact masks
  | cons token rest ih =>
      cases token with
      | number value => exact ih masks
      | operator op => exact ih masks
      | mask bytes => exact ih masks.2.2

theorem stem_count_before [Zero N] [Add N] [Neg N] [Magnitude N] (f : Number → N)
    (widths : Widths N) (tokens : List (Token Type2Op Number)) (masks : MasksFit tokens.reverse) :
    stemCount (lower widths (tokens.map (Token.mapNumber f))).value = declared tokens.reverse := by
  have grouped := group_after_map f [] tokens
  have counted := declared_in_stack tokens.reverse masks
  rw [List.reverse_reverse] at counted
  rw [List.map_nil] at grouped
  rw [stem_count_lower, Command.group, grouped, declared_in_map, ← counted]
  rfl

theorem decode_masks_fit (subroutines : Subroutines) (charstring : Bytes) :
    Attempt.Ensures NoStrayCall (decode subroutines charstring) fun tokens =>
      MasksFit tokens.reverse := by
  apply Attempt.ensures_map
  have start : Counted .start := ⟨rfl, trivial⟩
  refine Attempt.ensures_mono ?_
    (decode_nested_ensures subroutines (kept_counted subroutines) maxNesting charstring .start start)
  intro state counted
  rw [List.reverse_reverse]
  exact counted.masks

theorem mask_has_bit_for_each_stem [Zero N] [Add N] [Neg N] [Magnitude N] (f : Number → N)
    (widths : Widths N) (subroutines : Subroutines) (charstring : Bytes)
    {tokens : List (Token Type2Op Number)}
    (decodes : (decode subroutines charstring).outcome = .ok tokens)
    (calls : ∀ notice ∈ (decode subroutines charstring).notices, NoStrayCall notice)
    {before after : List (Token Type2Op Number)} {mask : Bytes}
    (place : tokens = before ++ .mask mask :: after) :
    (∃ earlier op, before = earlier ++ [.operator op] ∧ (op = .hintmask ∨ op = .cntrmask)) ∧
      mask.length = (stemCount (lower widths (before.map (Token.mapNumber f))).value + 7) / 8 := by
  have all := decode_masks_fit subroutines charstring calls tokens decodes
  rw [place, List.reverse_append, List.reverse_cons, List.append_assoc, List.singleton_append] at all
  obtain ⟨⟨op, below, shape, takes⟩, length, masks⟩ := masks_fit_below after.reverse _ all
  constructor
  · refine ⟨below.reverse, op, ?_, ?_⟩
    · have reversed := congrArg List.reverse shape
      rwa [List.reverse_reverse, List.reverse_cons] at reversed
    · cases op <;> first | exact Or.inl rfl | exact Or.inr rfl | cases takes
  · rw [stem_count_before f widths before masks]
    exact length

theorem mask_after_stem_call :
    (∃ earlier op, [.number (.integer 6), .number (.integer 10), .number (.integer 20),
          .operator .hstem, .number (.integer 0), .number (.integer 10), .operator .hintmask] =
        earlier ++ [(.operator op : Token Type2Op Number)] ∧ (op = .hintmask ∨ op = .cntrmask)) ∧
      [(192 : UInt8)].length = (stemCount (lower (⟨0, 0⟩ : Widths Float)
        ([.number (.integer 6), .number (.integer 10), .number (.integer 20), .operator .hstem,
          .number (.integer 0), .number (.integer 10), .operator .hintmask].map
            (Token.mapNumber Number.toFloat))).value + 7) / 8 := by
  have decodes : (decode ⟨.empty, some (.ofObjects 1 [[1, 139, 149, 11]])⟩
      [145, 149, 159, 32, 10, 19, 192, 14]).outcome =
        .ok [.number (.integer 6), .number (.integer 10), .number (.integer 20), .operator .hstem,
          .number (.integer 0), .number (.integer 10), .operator .hintmask, .mask [192],
          .operator .endchar] :=
    Attempt.ok_of_to_option (by decide +kernel)
  have quiet : (decode ⟨.empty, some (.ofObjects 1 [[1, 139, 149, 11]])⟩
      [145, 149, 159, 32, 10, 19, 192, 14]).notices = [] :=
    List.eq_nil_of_length_eq_zero (by decide +kernel)
  refine mask_has_bit_for_each_stem Number.toFloat ⟨0, 0⟩ _ _ decodes ?_ rfl
  rw [quiet]
  intro notice member
  cases member

end Type2

end CompactFont
