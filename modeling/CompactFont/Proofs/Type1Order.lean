import CompactFont.Proofs.Type1Run

set_option autoImplicit false

namespace CompactFont

def Small (value : Int) : Prop := -2147483648 ≤ value ∧ value ≤ 2147483647

theorem Field.yields_i32 : Reader.Yields Small Field.i32.read := by
  refine Reader.yields_mono (fun value bounds => ?_) (Field.yields_signed 4)
  have span : byteSpan 4 = 4294967296 := rfl
  rw [span] at bounds
  exact ⟨by omega, by omega⟩

theorem Integer.yields_small (first : Nat) : Reader.Yields Small (Integer.read first) :=
  Reader.yields_mono (fun _ bounds => ⟨by omega, by omega⟩) (Integer.yields_short first)

namespace Lexeme

def HasSmall : Lexeme Int → Prop
  | .number value => Small value
  | .command _ => True

theorem yields_type1_from (first : Nat) : Reader.Yields HasSmall (type1From first) := by
  have any {reader : Reader Key} : Reader.Yields (fun _ => True) reader := fun _ _ _ _ => trivial
  unfold type1From
  split
  · exact Reader.yields_map any fun _ _ => trivial
  · split
    · exact Reader.yields_map Field.yields_i32 fun _ small => small
    · exact Reader.yields_map (Integer.yields_small first) fun _ small => small

theorem yields_read_type1 : Reader.Yields HasSmall readType1 :=
  Reader.yields_bind Field.yields_u8 fun first _ => yields_type1_from first

end Lexeme

namespace Type1

theorem small_quotient {dividend divisor value : Int} (small : Small dividend)
    (divides : quotient dividend divisor = .ok value) : Small value := by
  obtain ⟨-, same, most⟩ := quotient_ok divides
  have within := Int.natAbs_tdiv_le_natAbs dividend divisor
  rw [← same] at within
  obtain ⟨low, high⟩ := small
  exact ⟨by omega, most⟩

-- What a token asks of those below it. A number may only lie on 48 others if `excess` holds, and if it
-- is 0.
def Fits (excess : Prop) (below : Stack) : Token Type1Op Int → Prop
  | .number value => Small value ∧ (Token.pending below < maxArguments ∨ excess ∧ value = 0)
  | .operator op =>
      op ≠ .callsubr ∧ (op = .callothersubr →
        below.head? = some (.number 0) ∨ below.head? = some (.number 1))
  | .mask _ => False

def Orderly (excess : Prop) : Stack → Prop
  | [] => True
  | token :: below => Fits excess below token ∧ Orderly excess below

section Order

variable {excess : Prop}

theorem orderly_split {above below : Stack} {token : Token Type1Op Int}
    (orderly : Orderly excess (above ++ token :: below)) : Fits excess below token := by
  induction above with
  | nil => exact orderly.1
  | cons _ _ ih => exact ih orderly.2

theorem orderly_tail {stack : Stack} (orderly : Orderly excess stack) : Orderly excess stack.tail := by
  cases stack with
  | nil => trivial
  | cons token below => exact orderly.2

theorem orderly_drop_pending {stack : Stack} (orderly : Orderly excess stack) :
    Orderly excess (Token.dropPending stack) := by
  induction stack with
  | nil => trivial
  | cons token below ih =>
      rw [Token.dropPending, List.dropWhile_cons]
      split
      · exact ih orderly.2
      · exact orderly

theorem orderly_drop_return {stack : Stack} (orderly : Orderly excess stack) :
    Orderly excess (dropReturn stack) := by
  unfold dropReturn
  split
  · exact orderly.2
  · exact orderly

theorem orderly_push {stack next : Stack} {value : Int} (orderly : Orderly excess stack)
    (small : Small value) (pushed : Token.push value stack = .ok next) : Orderly excess next := by
  obtain ⟨room, rfl⟩ := Token.push_ok pushed
  exact ⟨⟨small, .inl room⟩, orderly⟩

-- Where a number was taken there is room for one, unless all that was taken is a 0 past the limit. A
-- quotient never begins with such a 0: only another one can lie on it, and nothing is divided by 0.
theorem orderly_taken {stack rest : Stack} {value : Int} (takes : Takes stack value rest)
    (orderly : Orderly excess stack) :
    Small value ∧ Orderly excess rest ∧ (Token.pending rest < maxArguments ∨
      excess ∧ stack = .number 0 :: rest ∧ value = 0) := by
  induction takes with
  | number value rest =>
      obtain ⟨⟨small, room⟩, below⟩ := orderly
      refine ⟨small, below, room.imp_right fun ⟨holds, zero⟩ => ?_⟩
      subst zero
      exact ⟨holds, rfl, rfl⟩
  | @quotient inner below rest divisor dividend value first second divides ihFirst ihSecond =>
      obtain ⟨-, middle, roomFirst⟩ := ihFirst orderly.2
      obtain ⟨small, bottom, roomSecond⟩ := ihSecond middle
      refine ⟨small_quotient small divides, bottom, .inl ?_⟩
      obtain ⟨nonzero, -, -⟩ := quotient_ok divides
      have room : Token.pending below < maxArguments :=
        roomFirst.resolve_right fun ⟨_, _, zero⟩ => nonzero zero
      rcases roomSecond with enough | ⟨-, rfl, -⟩
      · exact enough
      · exact Nat.lt_of_succ_lt room

theorem orderly_pop_integers {count : Nat} {taken results : List Int} {stack rest : Stack}
    (orderly : Orderly excess stack) (small : ∀ value ∈ taken, Small value)
    (popped : popIntegers count taken stack = .ok (results, rest)) :
    Orderly excess rest ∧ ∀ value ∈ results, Small value := by
  induction count generalizing taken stack with
  | zero =>
      cases popped
      exact ⟨orderly, small⟩
  | succ count ih =>
      obtain ⟨⟨value, below⟩, first, others⟩ := Attempt.except_bind_ok popped
      obtain ⟨fits, left, -⟩ := orderly_taken (takes_of_pop_integer first) orderly
      exact ih left (List.forall_mem_cons.mpr ⟨fits, small⟩) others

theorem orderly_deliver {results unused : List Int} {bytes : Bytes} {stack after : Stack} {used : Nat}
    (orderly : Orderly excess stack) (small : ∀ value ∈ results, Small value)
    (delivered : deliver results bytes stack = .ok (unused, after, used)) :
    Orderly excess after := by
  fun_induction deliver results bytes stack generalizing used with
  | case1 result results bytes stack ih =>
      obtain ⟨pushed, room, onward⟩ := Attempt.except_bind_ok delivered
      obtain ⟨⟨_, _, fewer⟩, others, last⟩ := Attempt.except_bind_ok onward
      cases last
      obtain ⟨first, rest⟩ := List.forall_mem_cons.mp small
      exact ih _ (orderly_push orderly first room) rest others
  | case2 results bytes stack noPop =>
      cases delivered
      exact orderly

theorem orderly_mark {stack : Stack} {number : Int} (orderly : Orderly excess stack)
    (room : Token.pending stack < maxArguments ∨ excess ∧ number = 0)
    (marks : number = 0 ∨ number = 1) :
    Orderly excess (.operator .callothersubr :: .number number :: stack) := by
  have small : Small number := by
    rcases marks with rfl | rfl <;> exact ⟨by decide, by decide⟩
  refine ⟨⟨by decide, fun _ => ?_⟩, ⟨small, room⟩, orderly⟩
  rcases marks with rfl | rfl
  · exact .inl rfl
  · exact .inr rfl

-- The stack on which OtherSubr 0 is called has numbers for the two results, but in the place of the
-- height, which goes, something else, and below it 48 numbers or more.
def EndsWithoutHeight (stack : Stack) : Prop :=
  ∃ first count second results below, popInteger stack = .ok (0, first) ∧
    popInteger first = .ok (count, second) ∧ popIntegers 2 [] second = .ok (results, below) ∧
    (∀ height deeper, below ≠ .number height :: deeper) ∧ maxArguments ≤ Token.pending below.tail

theorem orderly_call_other {number count : Int} {stack first second below : Stack}
    {results : List Int} (heights : EndsWithoutHeight stack → excess)
    (orderly : Orderly excess stack) (named : popInteger stack = .ok (number, first))
    (given : popInteger first = .ok (count, second))
    (performed : callOther number count second = .ok (results, below)) :
    Orderly excess below ∧ ∀ value ∈ results, Small value := by
  obtain ⟨-, orderlyFirst, roomFirst⟩ := orderly_taken (takes_of_pop_integer named) orderly
  obtain ⟨-, orderlySecond, roomSecond⟩ := orderly_taken (takes_of_pop_integer given) orderlyFirst
  unfold callOther at performed
  split at performed
  · obtain ⟨⟨taken, rest⟩, popped, last⟩ := Attempt.except_bind_ok performed
    cases last
    obtain ⟨left, small⟩ := orderly_pop_integers orderlySecond (List.forall_mem_nil _) popped
    refine ⟨?_, small⟩
    rw [List.drop_one]
    refine orderly_mark (orderly_tail left) ?_ (.inl rfl)
    by_cases height : ∃ value deeper, rest = .number value :: deeper
    · obtain ⟨value, deeper, rfl⟩ := height
      exact left.1.2.imp_right fun excused => ⟨excused.1, rfl⟩
    · have none : ∀ value deeper, rest ≠ .number value :: deeper :=
        fun value deeper shape => height ⟨value, deeper, shape⟩
      refine (Nat.lt_or_ge (Token.pending rest.tail) maxArguments).imp_right fun full => ?_
      exact ⟨heights ⟨first, count, second, _, rest, named, given, popped, none, full⟩, rfl⟩
  · cases performed
    refine ⟨orderly_mark orderlySecond (.inl ?_) (.inr rfl), List.forall_mem_nil _⟩
    have room : Token.pending first < maxArguments :=
      roomFirst.resolve_right fun ⟨_, _, zero⟩ => by cases zero
    rcases roomSecond with enough | ⟨-, rfl, -⟩
    · exact enough
    · exact Nat.lt_of_succ_lt room
  · exact orderly_pop_integers orderlySecond (List.forall_mem_nil _) performed
  · exact orderly_pop_integers orderlySecond (List.forall_mem_nil _) performed

theorem orderly_othersubr {bytes : Bytes} {stack next : Stack} {used : Nat}
    (heights : EndsWithoutHeight stack → excess) (orderly : Orderly excess stack)
    (done : (othersubr bytes stack).outcome = .ok (next, used)) : Orderly excess next := by
  obtain ⟨⟨number, first⟩, named, counted⟩ := Attempt.bind_ok done
  obtain ⟨⟨count, second⟩, given, called⟩ := Attempt.bind_ok counted
  obtain ⟨⟨results, below⟩, performed, delivering⟩ := Attempt.bind_ok called
  obtain ⟨⟨unused, after, taken⟩, delivered, noted⟩ := Attempt.bind_ok delivering
  have last : (after, taken) = (next, used) := by
    dsimp only at noted
    split at noted <;> exact Except.ok.inj noted
  obtain ⟨rfl, rfl⟩ := Prod.mk.inj last
  obtain ⟨left, small⟩ := orderly_call_other heights orderly named given performed
  exact orderly_deliver left small delivered

end Order

section Visits

variable (subrs : Option Index)

def entering : Nat → Bytes → Stack → Decoding Stack
  | 0 => fun _ _ => throw .nestingLimit
  | nesting + 1 => decodeNested subrs nesting

theorem decode_nested_eq (nesting : Nat) :
    decodeNested subrs nesting = run (call subrs (entering subrs nesting)) := by
  cases nesting <;> rfl

-- Decoding some bytes from a stack comes to other bytes with another stack, in the bytes themselves or
-- in a subroutine.
inductive Visits : Nat → Bytes → Stack → Bytes → Stack → Prop
  | here (nesting : Nat) (bytes : Bytes) (stack : Stack) : Visits nesting bytes stack bytes stack
  | onward {nesting used : Nat} {bytes rest more : Bytes} {stack next later : Stack}
      {lexeme : Lexeme Int} (read : Lexeme.readType1 bytes = .ok (lexeme, rest))
      (stepped : (step (call subrs (entering subrs nesting)) rest stack lexeme).outcome =
        .ok (next, used))
      (comes : Visits nesting (rest.drop used) next more later) :
      Visits nesting bytes stack more later
  | inside {nesting : Nat} {bytes rest body more : Bytes} {below later : Stack} {number : Int}
      (read : Lexeme.readType1 bytes = .ok (.command Type1Op.callsubr.key, rest))
      (found : subroutine? subrs number = some body)
      (comes : Visits nesting body below more later) :
      Visits (nesting + 1) bytes (.number number :: below) more later

theorem visits_cases {subrs : Option Index} {nesting used : Nat} {bytes rest more : Bytes}
    {stack next later : Stack} {lexeme : Lexeme Int}
    (read : Lexeme.readType1 bytes = .ok (lexeme, rest))
    (plain : lexeme ≠ .command Type1Op.callsubr.key)
    (stepped : (step (call subrs (entering subrs nesting)) rest stack lexeme).outcome =
      .ok (next, used))
    (comes : Visits subrs nesting bytes stack more later) :
    (more = bytes ∧ later = stack) ∨ Visits subrs nesting (rest.drop used) next more later := by
  cases comes with
  | here => exact .inl ⟨rfl, rfl⟩
  | onward read' stepped' comes =>
      rw [read] at read'
      obtain ⟨rfl, rfl⟩ := Prod.mk.inj (Except.ok.inj read')
      rw [stepped] at stepped'
      obtain ⟨rfl, rfl⟩ := Prod.mk.inj (Except.ok.inj stepped')
      exact .inr comes
  | inside read' found comes =>
      rw [read] at read'
      obtain ⟨rfl, -⟩ := Prod.mk.inj (Except.ok.inj read')
      exact absurd rfl plain

def HeightMissing (bytes : Bytes) (stack : Stack) : Prop :=
  (∃ rest, Lexeme.readType1 bytes = .ok (.command Type1Op.callothersubr.key, rest)) ∧
    EndsWithoutHeight stack

def MissesHeight (charstring : Bytes) : Prop :=
  ∃ bytes stack, Visits subrs maxNesting charstring [] bytes stack ∧ HeightMissing bytes stack

variable {subrs} {excess : Prop} {nesting : Nat}

theorem orderly_call {stack next : Stack}
    (deeper : ∀ number below body after, stack = .number number :: below →
      subroutine? subrs number = some body → Orderly excess below →
      (entering subrs nesting body below).outcome = .ok after → Orderly excess after)
    (orderly : Orderly excess stack)
    (called : (call subrs (entering subrs nesting) stack).outcome = .ok next) :
    Orderly excess next := by
  unfold call at called
  split at called
  · rename_i number below
    cases found : subroutine? subrs number with
    | some body =>
        simp only [found, Attempt.outcome_map] at called
        obtain ⟨after, entered, rfl⟩ := Attempt.except_map_ok called
        exact orderly_drop_return (deeper number below body after rfl found orderly.2 entered)
    | none =>
        simp only [found] at called
        cases called
        exact orderly_drop_pending orderly.2
  · cases called
    exact orderly_tail orderly

theorem orderly_step {bytes rest : Bytes} {stack next : Stack} {lexeme : Lexeme Int} {used : Nat}
    (read : Lexeme.readType1 bytes = .ok (lexeme, rest))
    (heights : HeightMissing bytes stack → excess)
    (deeper : ∀ number below body after, lexeme = .command Type1Op.callsubr.key →
      stack = .number number :: below → subroutine? subrs number = some body →
      Orderly excess below → (entering subrs nesting body below).outcome = .ok after →
      Orderly excess after)
    (orderly : Orderly excess stack)
    (stepped : (step (call subrs (entering subrs nesting)) rest stack lexeme).outcome =
      .ok (next, used)) : Orderly excess next := by
  cases lexeme with
  | number value =>
      obtain ⟨after, pushed, last⟩ := Attempt.bind_ok stepped
      cases last
      exact orderly_push orderly (Lexeme.yields_read_type1 bytes _ rest read) pushed
  | command key =>
      simp only [step] at stepped
      cases known : Type1Op.ofKey? key with
      | none =>
          rw [known] at stepped
          cases stepped
          exact orderly
      | some op =>
          rw [known] at stepped
          obtain rfl := Type1Op.key_of_of_key known
          cases op with
          | callsubr =>
              obtain ⟨after, called, last⟩ := Attempt.bind_ok stepped
              cases last
              exact orderly_call (fun number below body after => deeper number below body after rfl)
                orderly called
          | callothersubr =>
              exact orderly_othersubr (fun missing => heights ⟨⟨rest, read⟩, missing⟩) orderly stepped
          | _ =>
              cases stepped
              exact ⟨⟨by decide, fun same => by cases same⟩, orderly⟩

def Heights (subrs : Option Index) (excess : Prop) (nesting : Nat) (bytes : Bytes) (stack : Stack) :
    Prop :=
  ∀ more later, Visits subrs nesting bytes stack more later → HeightMissing more later → excess

theorem orderly_run
    (entered : ∀ bytes rest number below body after,
      Lexeme.readType1 bytes = .ok (.command Type1Op.callsubr.key, rest) →
      subroutine? subrs number = some body →
      Heights subrs excess nesting bytes (.number number :: below) → Orderly excess below →
      (entering subrs nesting body below).outcome = .ok after → Orderly excess after)
    {bytes : Bytes} {stack after : Stack} (heights : Heights subrs excess nesting bytes stack)
    (orderly : Orderly excess stack)
    (ran : (run (call subrs (entering subrs nesting)) bytes stack).outcome = .ok after) :
    Orderly excess after := by
  fun_induction run (call subrs (entering subrs nesting)) bytes stack with
  | case1 stack =>
      cases ran
      exact orderly
  | case2 bytes stack more error failed => cases ran
  | case3 bytes stack more lexeme rest found ih =>
      obtain ⟨⟨next, used⟩, stepped, remaining⟩ := Attempt.bind_ok ran
      have onward : Heights subrs excess nesting (rest.drop used) next :=
        fun more later comes => heights more later (.onward found stepped comes)
      have stands : Orderly excess next := by
        refine orderly_step found (heights _ _ (.here _ _ _)) ?_ orderly stepped
        rintro number below body after rfl rfl subroutine
        exact entered bytes rest number below body after found subroutine heights
      exact ih next used onward stands remaining

-- By induction on how deep calls may still be nested.
theorem orderly_decode_nested {bytes : Bytes} {stack after : Stack}
    (heights : Heights subrs excess nesting bytes stack) (orderly : Orderly excess stack)
    (ran : (decodeNested subrs nesting bytes stack).outcome = .ok after) : Orderly excess after := by
  induction nesting generalizing bytes stack after with
  | zero =>
      rw [decode_nested_eq] at ran
      refine orderly_run ?_ heights orderly ran
      intro bytes rest number below body after read found heights orderly tooDeep
      cases tooDeep
  | succ nesting ih =>
      rw [decode_nested_eq] at ran
      refine orderly_run ?_ heights orderly ran
      intro bytes rest number below body after read found heights orderly entered
      exact ih (fun more later comes => heights more later (.inside read found comes)) orderly entered

theorem decode_orderly {charstring : Bytes} {tokens : List (Token Type1Op Int)}
    (decodes : (decode subrs charstring).outcome = .ok tokens) :
    Orderly (MissesHeight subrs charstring) tokens.reverse := by
  rw [decode, Attempt.outcome_map] at decodes
  obtain ⟨stack, ran, rfl⟩ := Attempt.except_map_ok decodes
  rw [List.reverse_reverse]
  exact orderly_decode_nested (fun more later comes missing => ⟨more, later, comes, missing⟩) trivial ran

end Visits

section InOrder

variable {subrs : Option Index} {charstring : Bytes} {tokens : List (Token Type1Op Int)}
  (decodes : (decode subrs charstring).outcome = .ok tokens)

include decodes

theorem fits_decoded {before after : List (Token Type1Op Int)} {token : Token Type1Op Int}
    (place : tokens = before ++ token :: after) :
    Fits (MissesHeight subrs charstring) before.reverse token := by
  have orderly := decode_orderly decodes
  have split : tokens.reverse = after.reverse ++ token :: before.reverse := by
    rw [place]
    simp
  rw [split] at orderly
  exact orderly_split orderly

theorem fits_of_mem {token : Token Type1Op Int} (member : token ∈ tokens) :
    ∃ below, Fits (MissesHeight subrs charstring) below token := by
  obtain ⟨before, after, place⟩ := List.append_of_mem member
  exact ⟨_, fits_decoded decodes place⟩

theorem no_callsubr : .operator .callsubr ∉ tokens := by
  intro member
  obtain ⟨below, fits⟩ := fits_of_mem decodes member
  exact fits.1 rfl

theorem small_of_mem {value : Int} (member : .number value ∈ tokens) : Small value := by
  obtain ⟨below, fits⟩ := fits_of_mem decodes member
  exact fits.1

theorem number_before_callothersubr {before after : List (Token Type1Op Int)}
    (place : tokens = before ++ .operator .callothersubr :: after) :
    ∃ earlier number, before = earlier ++ [.number number] ∧ (number = 0 ∨ number = 1) := by
  have marks := (fits_decoded decodes place).2 rfl
  rw [List.head?_reverse] at marks
  rcases marks with zero | one
  · obtain ⟨earlier, rfl⟩ := List.getLast?_eq_some_iff.mp zero
    exact ⟨earlier, 0, rfl, .inl rfl⟩
  · obtain ⟨earlier, rfl⟩ := List.getLast?_eq_some_iff.mp one
    exact ⟨earlier, 1, rfl, .inr rfl⟩

end InOrder

end Type1

end CompactFont
