import CompactFont.Proofs.TokenSpelling
import CompactFont.Proofs.Type1Inlining

set_option autoImplicit false

namespace CompactFont.Type1

open Reader

def Room : Stack → List (Token Type1Op Int) → Prop
  | _, [] => True
  | stack, token :: rest =>
      (token.isNumber = true → Token.pending stack < maxArguments) ∧ Room (token :: stack) rest

def Plain (tokens : List (Token Type1Op Int)) : Prop :=
  ∀ op, .operator op ∈ tokens → op ≠ .callsubr ∧ op ≠ .callothersubr

theorem room_append {stack : Stack} {first second : List (Token Type1Op Int)} :
    Room stack (first ++ second) ↔ Room stack first ∧ Room (first.reverse ++ stack) second := by
  induction first generalizing stack with
  | nil => simp [Room]
  | cons token rest ih => simp [Room, ih, and_assoc]

theorem plain_append {first second : List (Token Type1Op Int)} :
    Plain (first ++ second) ↔ Plain first ∧ Plain second := by
  simp only [Plain, List.mem_append]
  exact ⟨fun both => ⟨fun op member => both op (.inl member), fun op member => both op (.inr member)⟩,
    fun each op member => member.elim (each.1 op) (each.2 op)⟩

theorem pending_cons_le (token : Token Type1Op Int) (stack : Stack) :
    Token.pending (token :: stack) ≤ Token.pending stack + 1 := by
  cases token with
  | number value => exact Nat.le_refl _
  | operator op => exact Nat.zero_le _
  | mask bytes => exact Nat.zero_le _

theorem room_of_length {stack : Stack} {tokens : List (Token Type1Op Int)}
    (few : Token.pending stack + tokens.length ≤ maxArguments) : Room stack tokens := by
  induction tokens generalizing stack with
  | nil => trivial
  | cons token rest ih =>
      have added := pending_cons_le token stack
      rw [List.length_cons] at few
      exact ⟨fun _ => by omega, ih (by omega)⟩

theorem room_of_operators {stack : Stack} {tokens : List (Token Type1Op Int)}
    (operators : ∀ token ∈ tokens, token.isNumber = false) : Room stack tokens := by
  induction tokens generalizing stack with
  | nil => trivial
  | cons token rest ih =>
      obtain ⟨first, others⟩ := List.forall_mem_cons.mp operators
      exact ⟨fun number => absurd (first.symm.trans number) Bool.false_ne_true, ih others⟩

section Run

def Leads (decoder : Bytes → Stack → Decoding Stack) (bytes : Bytes) (before after : Stack) : Prop :=
  ∀ tail, decoder (bytes ++ tail) before = decoder tail after

theorem Leads.trans {decoder : Bytes → Stack → Decoding Stack} {first second : Bytes}
    {before middle after : Stack} (head : Leads decoder first before middle)
    (tail : Leads decoder second middle after) : Leads decoder (first ++ second) before after := by
  intro rest
  rw [List.append_assoc, head, tail]

theorem leads_nil (decoder : Bytes → Stack → Decoding Stack) (stack : Stack) :
    Leads decoder [] stack stack := fun _ => rfl

theorem leads_nested {bytes : Bytes} {before after : Stack}
    (leads : ∀ call, Leads (run call) bytes before after) (subrs : Option Index) (nesting : Nat) :
    Leads (decodeNested subrs nesting) bytes before after := by
  cases nesting <;> exact leads _

variable (call : Stack → Decoding Stack)

theorem leads_written {tokens : List (Token Type1Op Int)} {bytes : Bytes}
    (written : Encodes SpeltBy tokens bytes) (plain : Plain tokens) {stack : Stack}
    (room : Room stack tokens) : Leads (run call) bytes stack (tokens.reverse ++ stack) := by
  obtain ⟨pieces, spelt, rfl⟩ := written
  induction spelt generalizing stack with
  | nil => exact leads_nil _ stack
  | @cons token piece tokens pieces first _ ih =>
      obtain ⟨fits, others⟩ := room
      have later := ih (fun op member => plain op (List.mem_cons_of_mem _ member)) others
      have here : Leads (run call) piece stack (token :: stack) := by
        cases token with
        | number value =>
            exact run_number call (reads_of_spelt first) (Token.push_of_pending_lt value (fits rfl))
        | operator op =>
            cases first
            exact run_operator call (plain op List.mem_cons_self) stack
        | mask bytes => cases first
      rw [List.flatten_cons, List.reverse_cons, List.append_assoc]
      exact here.trans later

theorem run_callothersubr (stack : Stack) (tail : Bytes) :
    run call (Type1Op.callothersubr.key.bytes ++ tail) stack = (do
      let (next, used) ← othersubr tail stack
      run call (tail.drop used) next) :=
  run_lexeme call stack (Lexeme.reads_type1_key Type1Op.callothersubr.plain_key tail)

theorem run_callsubr (stack : Stack) (tail : Bytes) :
    run call (Type1Op.callsubr.key.bytes ++ tail) stack = (do
      let next ← call stack
      run call tail next) := by
  rw [run_lexeme call stack (Lexeme.reads_type1_key Type1Op.callsubr.plain_key tail)]
  change ((call stack >>= fun next => pure (next, 0)) >>= _) = _
  simp only [bind_assoc, pure_bind, List.drop_zero]

end Run

section OtherCalls

def otherCall (count number : Int) (pops : Nat) : List (Token Type1Op Int) :=
  [.number count, .number number, .operator .callothersubr] ++ List.replicate pops (.operator .pop)

def handedBack (results : List Int) (pops : Nat) : List (Token Type1Op Int) :=
  (results.take pops).map .number ++ List.replicate (pops - results.length) (.operator .pop)

theorem reverse_handed_back (results : List Int) (pops : Nat) (below : Stack) :
    (handedBack results pops).reverse ++ below =
      List.replicate (pops - results.length) (.operator .pop) ++
        (((results.take pops).map .number).reverse ++ below) := by
  simp [handedBack]

def popBytes (pops : Nat) : Bytes := (List.replicate pops Type1Op.pop.key.bytes).flatten

theorem pop_bytes_succ (pops : Nat) : popBytes (pops + 1) = 12 :: 17 :: popBytes pops := rfl

theorem deliver_pops {results : List Int} {pops : Nat} {stack : Stack} {tail : Bytes}
    (room : Room stack ((results.take pops).map .number))
    (apart : pops < results.length → ¬ BeginsWithPop tail) :
    deliver results (popBytes pops ++ tail) stack =
      .ok (results.drop pops, ((results.take pops).map .number).reverse ++ stack,
        2 * min pops results.length) := by
  induction results generalizing pops stack with
  | nil => simpa using deliver_nothing _ stack
  | cons result results ih =>
      cases pops with
      | zero =>
          exact deliver_without_pop _ (apart (Nat.succ_pos _)) stack
      | succ pops =>
          obtain ⟨fits, others⟩ := room
          have later := ih others fun fewer => apart (Nat.succ_lt_succ fewer)
          have pushed := Token.push_of_pending_lt result (fits rfl)
          rw [pop_bytes_succ, List.cons_append, List.cons_append, deliver, pushed]
          change (deliver results _ _ >>= _) = _
          rw [later]
          have used : 2 * min pops results.length + 2 = 2 * min (pops + 1) (results.length + 1) := by
            omega
          simp only [bind, Except.bind, pure, Except.pure, used]
          simp

theorem drop_pops (pops count : Nat) (tail : Bytes) :
    (popBytes pops ++ tail).drop (2 * min pops count) =
      popBytes (pops - count) ++ tail := by
  have split : popBytes pops = popBytes (min pops count) ++ popBytes (pops - count) := by
    have all : min pops count + (pops - count) = pops := by omega
    rw [popBytes, popBytes, popBytes, ← List.flatten_append, List.replicate_append_replicate, all]
  have taken : (popBytes (min pops count)).length = 2 * min pops count := by
    simp [popBytes, Type1Op.key, Key.bytes, Nat.mul_comm]
  rw [split, List.append_assoc, List.drop_left' taken]

variable (call : Stack → Decoding Stack)

theorem leads_pop_bytes (count : Nat) (stack : Stack) :
    Leads (run call) (popBytes count) stack (List.replicate count (.operator .pop) ++ stack) := by
  have spelt : Encodes SpeltBy (List.replicate count (.operator .pop)) (popBytes count) :=
    encodes_operators_iff.mpr rfl
  have idle := leads_written call spelt (by simp [Plain])
    (room_of_operators (by simp [Token.isNumber]) : Room stack _)
  rwa [List.reverse_replicate] at idle

theorem othersubr_numbers (count number : Int) (bytes : Bytes) (stack : Stack) :
    othersubr bytes (.number number :: .number count :: stack) = (do
      let (results, below) ← callOther number count stack
      let (unused, next, used) ← deliver results bytes below
      if unused ≠ [] then Report.note (.unusedResults unused.length number)
      pure (next, used)) := by
  simp only [othersubr, pop_integer_number, Attempt.lift_ok_bind]

variable {count number : Int} {pops : Nat} {bytes : Bytes}
  (written : Encodes SpeltBy (otherCall count number pops) bytes)

include written

theorem run_called {stack : Stack} (room : Room stack (otherCall count number pops)) (tail : Bytes) :
    run call (bytes ++ tail) stack = (do
      let (next, used) ← othersubr (popBytes pops ++ tail) (.number number :: .number count :: stack)
      run call ((popBytes pops ++ tail).drop used) next) := by
  obtain ⟨start, operators, rfl, started, popping⟩ := encodes_append written
  obtain rfl : operators = popBytes pops := encodes_operators_iff.mp popping
  have parts : Encodes SpeltBy
      ([.number count, .number number] ++ List.replicate 1 (.operator .callothersubr)) start := started
  obtain ⟨numbers, key, rfl, numbered, called⟩ := encodes_append parts
  obtain rfl := encodes_operators_iff.mp called
  have roomNumbers : Room stack [.number count, .number number] := ⟨room.1, room.2.1, trivial⟩
  have pushed := leads_written call numbered (by simp [Plain]) roomNumbers
  rw [List.append_assoc, List.append_assoc, pushed, List.replicate_one, List.flatten_singleton,
    run_callothersubr]
  rfl

theorem run_other_call {results : List Int} {stack below : Stack}
    (performed : callOther number count stack = .ok (results, below))
    (room : Room stack (otherCall count number pops))
    (roomBelow : Room below ((results.take pops).map .number)) {tail : Bytes}
    (apart : pops < results.length → ¬ BeginsWithPop tail) :
    run call (bytes ++ tail) stack = (do
      if pops < results.length then Report.note (.unusedResults (results.length - pops) number)
      run call tail ((handedBack results pops).reverse ++ below)) := by
  rw [run_called call written room, othersubr_numbers, performed, Attempt.lift_ok_bind]
  dsimp only
  rw [deliver_pops roomBelow apart, Attempt.lift_ok_bind]
  simp only [List.drop_eq_nil_iff, List.length_drop, ne_eq, Nat.not_le]
  have left := leads_pop_bytes call (pops - results.length)
    (((results.take pops).map .number).reverse ++ below) tail
  rw [← reverse_handed_back] at left
  by_cases fewer : pops < results.length
  · simp only [if_pos fewer, bind_assoc, pure_bind, drop_pops, left]
  · simp only [if_neg fewer, pure_bind, drop_pops, left]

theorem leads_other_call {results : List Int} {stack below : Stack}
    (performed : callOther number count stack = .ok (results, below))
    (room : Room stack (otherCall count number pops))
    (roomBelow : Room below (results.map .number)) (enough : results.length ≤ pops) :
    Leads (run call) bytes stack ((handedBack results pops).reverse ++ below) := by
  rw [← List.take_of_length_le enough] at roomBelow
  intro tail
  have apart : pops < results.length → ¬ BeginsWithPop tail :=
    fun fewer => absurd enough (Nat.not_le.mpr fewer)
  rw [run_other_call call written performed room roomBelow apart, if_neg (Nat.not_lt.mpr enough)]

theorem run_other_call_error {error : CharstringError} {stack : Stack}
    (fails : callOther number count stack = .error error)
    (room : Room stack (otherCall count number pops)) (tail : Bytes) :
    run call (bytes ++ tail) stack = throw error := by
  rw [run_called call written room, othersubr_numbers, fails]
  rfl

end OtherCalls

section Decoded

variable {subrs : Option Index} {before bytes : Bytes} {earlier : List (Token Type1Op Int)}

theorem not_begins_with_pop_of_spelt {value : Int} (spelt : SpeltBy (.number value) bytes) (tail : Bytes) :
    ¬ BeginsWithPop (bytes ++ tail) := by
  rintro ⟨rest, begins⟩
  have read := reads_of_spelt spelt tail
  rw [begins] at read
  cases read

theorem not_begins_with_pop_of_encodes {value : Int} {tokens : List (Token Type1Op Int)}
    (written : Encodes SpeltBy (.number value :: tokens) bytes) (tail : Bytes) :
    ¬ BeginsWithPop (bytes ++ tail) := by
  obtain ⟨pieces, spells, rfl⟩ := written
  cases spells with
  | cons first others =>
      rw [List.flatten_cons, List.append_assoc]
      exact not_begins_with_pop_of_spelt first _

theorem outcome_decode_append (decodes : (decode subrs before).outcome = .ok earlier)
    (apart : ¬ BeginsWithPop bytes) :
    (decode subrs (before ++ bytes)).outcome =
      List.reverse <$> (decodeNested subrs maxNesting bytes earlier.reverse).outcome := by
  rw [decode, Attempt.outcome_map] at decodes
  obtain ⟨reached, ran, rfl⟩ := Attempt.except_map_ok decodes
  rw [decode, Attempt.outcome_map, decode_nested_append subrs ran (fun begins => absurd begins apart),
    Attempt.outcome_bind_of_ok ran, List.reverse_reverse]

theorem decode_append_of_reached (decodes : (decode subrs before).outcome = .ok earlier)
    (apart : ¬ BeginsWithPop bytes) {tokens : List (Token Type1Op Int)}
    (reached : (decodeNested subrs maxNesting bytes earlier.reverse).outcome =
      .ok (tokens.reverse ++ earlier.reverse)) :
    (decode subrs (before ++ bytes)).outcome = .ok (earlier ++ tokens) := by
  rw [outcome_decode_append decodes apart, reached, ← List.reverse_append]
  exact congrArg Except.ok (List.reverse_reverse _)

end Decoded

end CompactFont.Type1
