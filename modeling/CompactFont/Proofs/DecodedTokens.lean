import CompactFont.Proofs.Inlining

set_option autoImplicit false

namespace CompactFont.Type2

variable (subroutines : Subroutines)

def Fits (below : Stack) : Token Type2Op Number → Prop
  | .number _ => Token.pending below < maxArguments
  | .operator op =>
      (op = .callsubr → (subroutines.locals?.getD .empty).isEmpty = true) ∧
        (op = .callgsubr → subroutines.globals.isEmpty = true)
  | .mask _ => ∃ op, below.head? = some (.operator op) ∧ op.takesMask = true

-- Every token fits on those below it, and none lies on `endchar`.
def Orderly : Stack → Prop
  | [] => True
  | token :: below =>
      Fits subroutines below token ∧ below.head? ≠ some (.operator .endchar) ∧ Orderly below

structure Sound (state : State) : Prop where
  orderly : Orderly subroutines state.tokens
  ended : state.tokens.head? = some (.operator .endchar) → state.ended = true

variable {subroutines}

theorem orderly_split {above below : Stack} {token : Token Type2Op Number}
    (orderly : Orderly subroutines (above ++ token :: below)) :
    Fits subroutines below token ∧ below.head? ≠ some (.operator .endchar) := by
  induction above with
  | nil => exact ⟨orderly.1, orderly.2.1⟩
  | cons _ _ ih => exact ih orderly.2.2

theorem Sound.not_endchar {state : State} (sound : Sound subroutines state)
    (running : state.ended = false) : state.tokens.head? ≠ some (.operator .endchar) := by
  intro endchar
  rw [sound.ended endchar] at running
  cases running

theorem sound_below {state : State} (sound : Sound subroutines state)
    {token : Token Type2Op Number} {below : Stack} (shape : state.tokens = token :: below) :
    Sound subroutines { state with tokens := below } := by
  have orderly := sound.orderly
  rw [shape] at orderly
  exact ⟨orderly.2.2, fun endchar => absurd endchar orderly.2.1⟩

theorem orderly_add {state : State} (sound : Sound subroutines state)
    (running : state.ended = false) {token : Token Type2Op Number}
    (fits : Fits subroutines state.tokens token) :
    Orderly subroutines (token :: state.tokens) :=
  ⟨fits, sound.not_endchar running, sound.orderly⟩

theorem fits_hint {op : Type2Op} (hint : op.declaresStems = true ∨ op.takesMask = true)
    (below : Stack) : Fits subroutines below (.operator op) := by
  constructor
  · rintro rfl
    rcases hint with declares | takes
    · cases declares
    · cases takes
  · rintro rfl
    rcases hint with declares | takes
    · cases declares
    · cases takes

theorem sound_next {state next : State} (sound : Sound subroutines state)
    (running : state.ended = false) (steps : Next subroutines state next) :
    Sound subroutines next := by
  cases steps with
  | ignored => exact sound
  | pushed value room => exact ⟨orderly_add sound running room, nofun⟩
  | added op plain =>
      refine ⟨orderly_add sound running ⟨plain.locals, plain.globals⟩, fun endchar => ?_⟩
      exact absurd (Token.operator.inj (Option.some.inj endchar)) plain.goesOn
  | declared op declares =>
      refine ⟨orderly_add sound running (fits_hint (.inl declares) _), fun endchar => ?_⟩
      obtain rfl := Token.operator.inj (Option.some.inj endchar)
      cases declares
  | masked op takes mask length =>
      have below := orderly_add sound running (fits_hint (.inr takes) _)
      refine ⟨⟨⟨op, rfl, takes⟩, fun endchar => ?_, below⟩, nofun⟩
      obtain rfl := Token.operator.inj (Option.some.inj endchar)
      cases takes
  | ended => exact ⟨orderly_add sound running ⟨nofun, nofun⟩, fun _ => rfl⟩

theorem kept_sound : Kept subroutines (fun _ => True) (Sound subroutines) where
  next _ _ sound running steps := sound_next sound running steps
  popped _ _ _ sound _ shape := sound_below sound shape
  stray state sound _ _ _ := by
    cases shape : state.tokens with
    | nil => exact ⟨trivial, nofun⟩
    | cons token below => exact sound_below sound shape
  dropped state sound := by
    rw [State.dropReturn]
    split
    · rename_i below shape
      exact sound_below sound shape
    · exact sound

theorem sound_start : Sound subroutines .start where
  orderly := trivial
  ended endchar := by cases endchar

theorem decode_sound {charstring : Bytes} {tokens : List (Token Type2Op Number)}
    (decodes : (decode subroutines charstring).outcome = .ok tokens) :
    ∃ state, (decodeNested subroutines maxNesting charstring .start).outcome = .ok state ∧
      tokens = state.tokens.reverse ∧ Sound subroutines state := by
  rw [decode, map_eq_pure_bind] at decodes
  obtain ⟨state, ran, last⟩ := Attempt.bind_ok decodes
  refine ⟨state, ran, (Except.ok.inj last).symm, ?_⟩
  exact decode_nested_ensures subroutines kept_sound maxNesting charstring .start sound_start
    (fun _ _ => trivial) state ran

section Order

def InOrder (subroutines : Subroutines) (tokens : List (Token Type2Op Number)) : Prop :=
  ∀ before token after, tokens = before ++ token :: after →
    Fits subroutines before.reverse token ∧ before.getLast? ≠ some (.operator .endchar)

theorem in_order_of_orderly {stack : Stack} (orderly : Orderly subroutines stack) :
    InOrder subroutines stack.reverse := by
  intro before token after place
  have split : stack = after.reverse ++ token :: before.reverse := by
    rw [← List.reverse_reverse stack, place]
    simp
  rw [split] at orderly
  rw [← List.head?_reverse]
  exact orderly_split orderly

variable {tokens : List (Token Type2Op Number)} (inOrder : InOrder subroutines tokens)

include inOrder

theorem nothing_after_endchar {before after : List (Token Type2Op Number)}
    (place : tokens = before ++ .operator .endchar :: after) : after = [] := by
  cases after with
  | nil => rfl
  | cons next rest =>
      rw [← List.singleton_append, ← List.append_assoc] at place
      exact absurd List.getLast?_concat (inOrder _ next rest place).2

theorem count_endchar_le : tokens.count (.operator .endchar) ≤ 1 := by
  by_cases member : .operator .endchar ∈ tokens
  · obtain ⟨before, after, place, first⟩ := List.eq_append_cons_of_mem member
    obtain rfl := nothing_after_endchar inOrder place
    rw [place, List.count_append, List.count_eq_zero_of_not_mem first, Nat.zero_add]
    exact Nat.le_refl _
  · rw [List.count_eq_zero_of_not_mem member]
    exact Nat.zero_le 1

theorem length_numbers_le {numbers : List (Token Type2Op Number)} (consecutive : numbers <:+: tokens)
    (all : ∀ token ∈ numbers, token.isNumber = true) : numbers.length ≤ maxArguments := by
  rcases List.eq_nil_or_concat numbers with rfl | ⟨earlier, last, shape⟩
  · exact Nat.zero_le _
  · rw [List.concat_eq_append] at shape
    subst shape
    obtain ⟨before, after, place⟩ := consecutive
    have split : tokens = (before ++ earlier) ++ last :: after := by
      rw [← place]
      simp
    have below : ∀ token ∈ earlier.reverse, token.isNumber = true := by
      intro token member
      exact all token (List.mem_append_left _ (List.mem_reverse.mp member))
    have fits := (inOrder _ last after split).1
    have number := all last (List.mem_append_right _ (List.mem_singleton_self last))
    cases last with
    | number value =>
        have room : Token.pending (before ++ earlier).reverse < maxArguments := fits
        rw [List.reverse_append, Token.pending, List.takeWhile_append_of_pos below,
          List.length_append, List.length_reverse] at room
        rw [List.length_append, List.length_singleton]
        omega
    | operator op => cases number
    | mask bytes => cases number

theorem no_call_of_locals {index : Index} (given : subroutines.locals? = some index)
    (present : index.isEmpty = false) : .operator .callsubr ∉ tokens := by
  intro member
  obtain ⟨before, after, place⟩ := List.append_of_mem member
  have absent := (inOrder before _ after place).1.1 rfl
  rw [given, Option.getD_some, present] at absent
  cases absent

theorem no_call_of_globals (present : subroutines.globals.isEmpty = false) :
    .operator .callgsubr ∉ tokens := by
  intro member
  obtain ⟨before, after, place⟩ := List.append_of_mem member
  have absent := (inOrder before _ after place).1.2 rfl
  rw [present] at absent
  cases absent

theorem mask_after_operator {before after : List (Token Type2Op Number)} {mask : Bytes}
    (place : tokens = before ++ .mask mask :: after) :
    ∃ earlier op, before = earlier ++ [.operator op] ∧ (op = .hintmask ∨ op = .cntrmask) := by
  obtain ⟨op, last, takes⟩ := (inOrder before _ after place).1
  rw [List.head?_reverse] at last
  obtain ⟨earlier, rfl⟩ := List.getLast?_eq_some_iff.mp last
  refine ⟨earlier, op, rfl, ?_⟩
  cases op with
  | hintmask => exact .inl rfl
  | cntrmask => exact .inr rfl
  | _ => cases takes

end Order

theorem decode_append_of_ended {charstring : Bytes} {state : State}
    (ran : (decodeNested subroutines maxNesting charstring .start).outcome = .ok state)
    (ended : state.ended = true) (more : Bytes) :
    decode subroutines (charstring ++ more) = decode subroutines charstring := by
  have stays : decodeNested subroutines maxNesting more state = pure state :=
    run_ended _ subroutines ended more
  rw [decode, decode, decode_nested_append subroutines ran, Attempt.bind_pure_of_ok ran stays]

theorem decoded_tokens_are_in_order (subroutines : Subroutines) (charstring : Bytes)
    {tokens : List (Token Type2Op Number)}
    (decodes : (decode subroutines charstring).outcome = .ok tokens) :
    (∀ before after, tokens = before ++ .operator .endchar :: after → after = []) ∧
      tokens.count (.operator .endchar) ≤ 1 ∧
      (∀ numbers, numbers <:+: tokens → (∀ token ∈ numbers, token.isNumber = true) →
        numbers.length ≤ 48) ∧
      (∀ index, subroutines.locals? = some index → index.isEmpty = false →
        .operator .callsubr ∉ tokens) ∧
      (subroutines.globals.isEmpty = false → .operator .callgsubr ∉ tokens) ∧
      (∀ before mask after, tokens = before ++ .mask mask :: after →
        ∃ earlier op, before = earlier ++ [.operator op] ∧ (op = .hintmask ∨ op = .cntrmask)) ∧
      (tokens.getLast? = some (.operator .endchar) →
        ∀ more, (decode subroutines (charstring ++ more)).outcome = .ok tokens) := by
  obtain ⟨state, ran, rfl, sound⟩ := decode_sound decodes
  have inOrder := in_order_of_orderly sound.orderly
  refine ⟨fun _ _ => nothing_after_endchar inOrder, count_endchar_le inOrder,
    fun _ => length_numbers_le inOrder, fun _ => no_call_of_locals inOrder,
    no_call_of_globals inOrder, fun _ _ _ => mask_after_operator inOrder, fun endchar more => ?_⟩
  rw [List.getLast?_reverse] at endchar
  rw [decode_append_of_ended ran (sound.ended endchar) more]
  exact decodes

theorem discarded_mask_leaves_order :
    (decode ⟨.empty, some (.ofObjects 1 [[14]])⟩
        ([149, 159, 1, 19, 128, 10, 10, 139, 149, 19, 192, 32, 10] ++ [28])).outcome =
      .ok [.number (.integer 10), .number (.integer 20), .operator .hstem, .number (.integer 0),
        .number (.integer 10), .operator .hintmask, .mask [192], .operator .endchar] := by
  have decodes : (decode ⟨.empty, some (.ofObjects 1 [[14]])⟩
      [149, 159, 1, 19, 128, 10, 10, 139, 149, 19, 192, 32, 10]).outcome =
        .ok [.number (.integer 10), .number (.integer 20), .operator .hstem, .number (.integer 0),
          .number (.integer 10), .operator .hintmask, .mask [192], .operator .endchar] :=
    Attempt.ok_of_to_option (by decide +kernel)
  obtain ⟨-, -, -, -, -, -, ending⟩ := decoded_tokens_are_in_order _ _ decodes
  exact ending rfl [28]

end CompactFont.Type2
