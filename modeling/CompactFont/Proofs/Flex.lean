import CompactFont.Proofs.FlexMarks
import CompactFont.Proofs.IndexReading
import CompactFont.Proofs.PenWithin
import CompactFont.Proofs.Type1Text

set_option autoImplicit false

namespace CompactFont

namespace Pen

variable {C : Type} [Coordinate C] (pen : Pen C) (glyph : Nat)

theorem frame_curve_by (delta₁ delta₂ delta₃ : Point C) :
    (pen.curveBy glyph delta₁ delta₂ delta₃).value.ended = pen.ended ∧
      (pen.curveBy glyph delta₁ delta₂ delta₃).value.flex? = pen.flex? := by
  have opened : (pen.ensureOpen glyph).value.ended = pen.ended ∧
      (pen.ensureOpen glyph).value.flex? = pen.flex? := by
    rw [value_ensure_open]
    split <;> exact ⟨rfl, rfl⟩
  exact opened

theorem frame_end_flex :
    (pen.endFlex glyph).value.ended = pen.ended ∧ (pen.endFlex glyph).value.flex? = none := by
  unfold endFlex
  split
  · obtain ⟨endedHalf, flexHalf⟩ := frame_curve_by { pen with flex? := none } glyph _ _ _
    obtain ⟨endedWhole, flexWhole⟩ := frame_curve_by
      (curveBy glyph { pen with flex? := none } _ _ _).value glyph _ _ _
    exact ⟨endedWhole.trans endedHalf, flexWhole.trans flexHalf⟩
  · exact ⟨rfl, rfl⟩

theorem end_flex_short {points : List (Point C)} (few : points.length < 7) :
    { pen with flex? := some points }.endFlex glyph = (do
      Report.note (.shortFlex points.length glyph)
      pure { pen with flex? := none }) := by
  unfold endFlex
  dsimp only [Option.getD_some]
  split
  · rename_i shape
    have length := congrArg List.length shape
    simp only [List.length_reverse, List.length_cons] at length
    omega
  · rw [List.length_reverse]

end Pen

namespace Type1

inductive FlexMove where
  | both (dx dy : Int)
  | across (dx : Int)
  | up (dy : Int)
deriving DecidableEq, Repr

namespace FlexMove

def tokens : FlexMove → List (Token Type1Op Int)
  | .both dx dy => [.number dx, .number dy, .operator .rmoveto]
  | .across dx => [.number dx, .operator .hmoveto]
  | .up dy => [.number dy, .operator .vmoveto]

def delta : FlexMove → Int × Int
  | .both dx dy => (dx, dy)
  | .across dx => (dx, 0)
  | .up dy => (0, dy)

def vector (move : FlexMove) : Point Float32 := ⟨coordinate move.delta.1, coordinate move.delta.2⟩

end FlexMove

inductive FlexPart where
  | begins
  | counts
  | ends
deriving DecidableEq, Repr

namespace FlexPart

def tokens : FlexPart → List (Token Type1Op Int)
  | .begins => otherCall 0 1 0
  | .counts => otherCall 0 2 0
  | .ends => otherCall 3 0 2 ++ [.operator .setcurrentpoint]

def subroutine : FlexPart → Nat
  | .begins => 1
  | .counts => 2
  | .ends => 0

-- In line, or by a call of the subroutine where there is one with it, which takes one more level of
-- nesting.
inductive WrittenAs (subrs : Option Index) (part : FlexPart) : Nat → Bytes → Prop
  | inLine {nesting : Nat} {bytes : Bytes} (written : Encodes SpeltBy part.tokens bytes) :
      WrittenAs subrs part nesting bytes
  | called {nesting : Nat} {index : Index} {body operand : Bytes} (present : subrs = some index)
      (kept : index.get? part.subroutine = some (body ++ Type1Op.subrReturn.key.bytes))
      (written : Encodes SpeltBy part.tokens body) (spelt : SpeltBy (.number part.subroutine) operand) :
      WrittenAs subrs part (nesting + 1) (operand ++ Type1Op.callsubr.key.bytes)

inductive Acts : FlexPart → Stack → Stack → Prop
  | begins (stack : Stack) : Acts .begins stack (.operator .callothersubr :: .number 1 :: stack)
  | counts (stack : Stack) : Acts .counts stack stack
  | ends (height x y : Int) (stack : Stack) :
      Acts .ends (.number y :: .number x :: .number height :: stack)
        (.operator .setcurrentpoint :: .number y :: .number x :: .operator .callothersubr :: .number 0 ::
          stack)

variable {part : FlexPart} {subrs : Option Index} {bytes : Bytes} {before after : Stack}

theorem WrittenAs.not_begins_with_pop {nesting : Nat} (written : part.WrittenAs subrs nesting bytes)
    (tail : Bytes) : ¬ BeginsWithPop (bytes ++ tail) := by
  cases written with
  | inLine written => cases part <;> exact not_begins_with_pop_of_encodes written tail
  | called present kept written spelt =>
      rw [List.append_assoc]
      exact not_begins_with_pop_of_spelt spelt _

theorem room_other_call (count number : Int) (pops : Nat)
    (room : Token.pending before + 2 ≤ maxArguments) : Room before (otherCall count number pops) := by
  rw [otherCall, room_append]
  constructor
  · exact ⟨fun _ => by omega, fun _ => room, nofun, trivial⟩
  · exact room_of_operators (by simp [Token.isNumber])

theorem leads_of_acts (acts : Acts part before after) (room : Token.pending before + 2 ≤ maxArguments)
    (written : Encodes SpeltBy part.tokens bytes) (call : Stack → Decoding Stack) :
    Leads (run call) bytes before after := by
  cases acts with
  | begins =>
      exact leads_other_call call written rfl (room_other_call 0 1 0 room) trivial (Nat.le_refl 0)
  | counts =>
      exact leads_other_call call written rfl (room_other_call 0 2 0 room) trivial (Nat.le_refl 0)
  | ends height x y stack =>
      obtain ⟨first, last, rfl, calling, setting⟩ := encodes_append written
      have roomBelow : Room (.operator .callothersubr :: .number 0 :: stack) ([x, y].map .number) :=
        room_of_length (by simp [maxArguments])
      have performed := call_other_end 3 x y (.number height :: stack)
      have called := leads_other_call call calling performed (room_other_call 3 0 2 room) roomBelow
        (Nat.le_refl 2)
      have roomLast : Room (.number y :: .number x :: .operator .callothersubr :: .number 0 :: stack)
          [.operator .setcurrentpoint] := room_of_operators (by simp [Token.isNumber])
      exact called.trans (leads_written call setting (by simp [Plain]) roomLast)

theorem leads_part {nesting : Nat} (acts : Acts part before after)
    (room : Token.pending before + 2 ≤ maxArguments) (written : WrittenAs subrs part nesting bytes) :
    Leads (decodeNested subrs nesting) bytes before after := by
  cases written with
  | inLine written => exact leads_nested (leads_of_acts acts room written) subrs nesting
  | @called nesting index body operand present kept written spelt =>
      subst present
      have inBody := leads_nested (leads_of_acts acts room written) (some index)
      have returns (nesting : Nat) : decodeNested (some index) nesting body before = pure after := by
        have ran := inBody nesting []
        rwa [List.append_nil, decode_nested_nil] at ran
      have read := reads_of_spelt spelt []
      rw [List.append_nil] at read
      have ended : (decodeNested (some index) nesting body before).outcome = .ok after := by
        rw [returns nesting]
        rfl
      intro tail
      have called := decode_nested_call kept read ended (by omega) tail
      rw [returns (nesting + 1), pure_bind] at called
      rw [List.append_assoc]
      exact called

end FlexPart

structure Flex where
  moves : List FlexMove
  height : Int
  x : Int
  y : Int
deriving DecidableEq, Repr

namespace Flex

def tokens (flex : Flex) : List (Token Type1Op Int) :=
  [.number 1, .operator .callothersubr] ++ flex.moves.flatMap FlexMove.tokens ++
    [.number 0, .operator .callothersubr, .number flex.x, .number flex.y, .operator .setcurrentpoint]

inductive MovesWritten (subrs : Option Index) (nesting : Nat) : List FlexMove → Bytes → Prop
  | nil : MovesWritten subrs nesting [] []
  | cons {move : FlexMove} {moves : List FlexMove} {first count rest : Bytes}
      (moved : Encodes SpeltBy move.tokens first)
      (counted : FlexPart.counts.WrittenAs subrs nesting count)
      (others : MovesWritten subrs nesting moves rest) :
      MovesWritten subrs nesting (move :: moves) (first ++ count ++ rest)

inductive WrittenAs (subrs : Option Index) (nesting : Nat) (flex : Flex) : Bytes → Prop
  | parts {start middle numbers finish : Bytes}
      (begun : FlexPart.begins.WrittenAs subrs nesting start)
      (moved : MovesWritten subrs nesting flex.moves middle)
      (given : Encodes SpeltBy [.number flex.height, .number flex.x, .number flex.y] numbers)
      (ended : FlexPart.ends.WrittenAs subrs nesting finish) :
      WrittenAs subrs nesting flex (start ++ middle ++ numbers ++ finish)

section Decoding

variable {subrs : Option Index} {nesting : Nat} {bytes : Bytes}

theorem leads_move (move : FlexMove) (written : Encodes SpeltBy move.tokens bytes) {stack : Stack}
    (none : Token.pending stack = 0) :
    Leads (decodeNested subrs nesting) bytes stack (move.tokens.reverse ++ stack) ∧
      Token.pending (move.tokens.reverse ++ stack) = 0 := by
  have plain : Plain move.tokens := by cases move <;> simp [Plain, FlexMove.tokens]
  have few : Token.pending stack + move.tokens.length ≤ maxArguments := by
    rw [none]
    cases move <;> simp [FlexMove.tokens, maxArguments]
  refine ⟨leads_nested (fun call => leads_written call written plain (room_of_length few)) _ _, ?_⟩
  cases move <;> rfl

theorem leads_moves {moves : List FlexMove} (written : MovesWritten subrs nesting moves bytes)
    {stack : Stack} (none : Token.pending stack = 0) :
    Leads (decodeNested subrs nesting) bytes stack
        ((moves.flatMap FlexMove.tokens).reverse ++ stack) ∧
      Token.pending ((moves.flatMap FlexMove.tokens).reverse ++ stack) = 0 := by
  induction written generalizing stack with
  | nil => exact ⟨leads_nil _ stack, none⟩
  | @cons move moves first count rest moved counted others ih =>
      obtain ⟨leads, clear⟩ := leads_move move moved none
      have room : Token.pending (move.tokens.reverse ++ stack) + 2 ≤ maxArguments := by
        rw [clear]
        decide
      have counts := FlexPart.leads_part (.counts _) room counted
      obtain ⟨later, last⟩ := ih clear
      have shape : ((move :: moves).flatMap FlexMove.tokens).reverse ++ stack =
          (moves.flatMap FlexMove.tokens).reverse ++ (move.tokens.reverse ++ stack) := by
        simp
      rw [shape]
      exact ⟨(leads.trans counts).trans later, last⟩

theorem leads_flex {flex : Flex} (written : flex.WrittenAs subrs nesting bytes) {stack : Stack}
    (room : Token.pending stack + 2 ≤ maxArguments) :
    Leads (decodeNested subrs nesting) bytes stack (flex.tokens.reverse ++ stack) := by
  cases written with
  | parts begun moved given ended =>
      have none : Token.pending (.operator .callothersubr :: .number 1 :: stack : Stack) = 0 := rfl
      obtain ⟨middle, clear⟩ := leads_moves moved none
      have few : Token.pending ((flex.moves.flatMap FlexMove.tokens).reverse ++
          .operator .callothersubr :: .number 1 :: stack) + 3 ≤ maxArguments := by
        rw [clear]
        decide
      have numbers := leads_nested (fun call => leads_written call given (by simp [Plain])
        (room_of_length few)) subrs nesting
      have start := FlexPart.leads_part (.begins stack) room begun
      have finish := FlexPart.leads_part (.ends flex.height flex.x flex.y
        ((flex.moves.flatMap FlexMove.tokens).reverse ++ .operator .callothersubr :: .number 1 :: stack))
        (by simp [clear, maxArguments]) ended
      have whole := ((start.trans middle).trans numbers).trans finish
      simpa [tokens] using whole

end Decoding

section Drawing

variable (setting : Setting Float32)

theorem draw_move (move : FlexMove) (pen : Pen Float32) (drawing : pen.ended = false)
    (points : List (Point Float32)) :
    (penTokens move.tokens).foldlM (Pen.step setting) ⟨{ pen with flex? := some points }, []⟩ =
      pure ⟨{ pen with flex? := some (move.vector :: points) }, []⟩ := by
  cases move <;>
    simp [FlexMove.tokens, FlexMove.vector, FlexMove.delta, coordinate_zero, Pen.step, drawing,
      Pen.operate, Pen.moveBy]

theorem draw_moves (moves : List FlexMove) (pen : Pen Float32) (drawing : pen.ended = false)
    (points : List (Point Float32)) :
    (penTokens (moves.flatMap FlexMove.tokens)).foldlM (Pen.step setting)
        ⟨{ pen with flex? := some points }, []⟩ =
      pure ⟨{ pen with flex? := some ((moves.map FlexMove.vector).reverse ++ points) }, []⟩ := by
  induction moves generalizing points with
  | nil => rfl
  | cons move moves ih =>
      rw [List.flatMap_cons, pen_tokens_append, List.foldlM_append, draw_move setting move pen drawing,
        pure_bind, ih]
      simp

theorem draw_start (pen : Pen Float32) (drawing : pen.ended = false) (waiting : List Float32) :
    (penTokens [.number 1, .operator .callothersubr]).foldlM (Pen.step setting) ⟨pen, waiting⟩ =
      pure ⟨{ pen with flex? := some [] }, []⟩ := by
  have numbered : Pen.step setting ⟨pen, waiting⟩ (.number (coordinate 1)) =
      pure ⟨pen, coordinate 1 :: waiting⟩ := Pen.step_number drawing _
  have marked : Pen.step setting ⟨pen, coordinate 1 :: waiting⟩ (.operator .callothersubr) =
      pure ⟨{ pen with flex? := some [] }, []⟩ := by
    rw [Pen.step_callothersubr drawing rfl, truncate_coordinate_one]
    rfl
  simp only [pen_tokens_number, pen_tokens_operator, pen_tokens_nil, List.foldlM_cons, List.foldlM_nil,
    numbered, marked, pure_bind]

theorem draw_point (x y : Int) (pen : Pen Float32) (drawing : pen.ended = false) :
    (penTokens [.number x, .number y, .operator .setcurrentpoint]).foldlM (Pen.step setting) ⟨pen, []⟩ =
      pure ⟨{ pen with current := ⟨coordinate x, coordinate y⟩ }, []⟩ := by
  simp [Pen.step, drawing, Pen.operate]

theorem draw_finish (x y : Int) (pen : Pen Float32) (drawing : pen.ended = false) :
    (penTokens [.number 0, .operator .callothersubr, .number x, .number y,
        .operator .setcurrentpoint]).foldlM (Pen.step setting) ⟨pen, []⟩ = (do
      let left ← pen.endFlex setting.glyph
      pure ⟨{ left with current := ⟨coordinate x, coordinate y⟩ }, []⟩) := by
  have numbered : Pen.step setting ⟨pen, []⟩ (.number (coordinate 0)) =
      pure ⟨pen, [coordinate 0]⟩ := Pen.step_number drawing _
  have marked : Pen.step setting ⟨pen, [coordinate 0]⟩ (.operator .callothersubr) = (do
      let left ← pen.endFlex setting.glyph
      pure ⟨left, []⟩) := by
    rw [Pen.step_callothersubr drawing rfl, truncate_coordinate_zero]
    rfl
  rw [pen_tokens_number, pen_tokens_operator, List.foldlM_cons, numbered, pure_bind, List.foldlM_cons,
    marked, bind_assoc]
  apply Report.bind_congr_of_value
  rw [pure_bind]
  exact draw_point setting x y _ (((pen.frame_end_flex setting.glyph).1).trans drawing)

theorem draw_flex (flex : Flex) (pen : Pen Float32) (drawing : pen.ended = false)
    (waiting : List Float32) :
    (penTokens flex.tokens).foldlM (Pen.step setting) ⟨pen, waiting⟩ = (do
      let left ← { pen with flex? := some (flex.moves.map FlexMove.vector).reverse }.endFlex setting.glyph
      pure ⟨{ left with current := ⟨coordinate flex.x, coordinate flex.y⟩ }, []⟩) := by
  rw [tokens, pen_tokens_append, pen_tokens_append, List.foldlM_append, List.foldlM_append,
    draw_start setting pen drawing, pure_bind, draw_moves setting flex.moves pen drawing, pure_bind,
    List.append_nil]
  exact draw_finish setting flex.x flex.y _ drawing

variable {flex : Flex} {pen : Pen Float32} (drawing : pen.ended = false) (waiting : List Float32)

include drawing

theorem after_flex :
    ((penTokens flex.tokens).foldlM (Pen.step setting) ⟨pen, waiting⟩).value.pen.flex? = none ∧
      ((penTokens flex.tokens).foldlM (Pen.step setting) ⟨pen, waiting⟩).value.pen.current =
        ⟨coordinate flex.x, coordinate flex.y⟩ := by
  rw [draw_flex setting flex pen drawing]
  exact ⟨(Pen.frame_end_flex _ setting.glyph).2, rfl⟩

variable (outside : pen.flex? = none)

include outside

theorem draw_curves {p₀ p₁ p₂ p₃ p₄ p₅ p₆ : Point Float32} {more : List (Point Float32)}
    (points : flex.moves.map FlexMove.vector = p₀ :: p₁ :: p₂ :: p₃ :: p₄ :: p₅ :: p₆ :: more) :
    (penTokens flex.tokens).foldlM (Pen.step setting) ⟨pen, waiting⟩ = (do
      let half ← pen.curveBy setting.glyph (p₀ + p₁) p₂ p₃
      let whole ← half.curveBy setting.glyph p₄ p₅ p₆
      pure ⟨{ whole with current := ⟨coordinate flex.x, coordinate flex.y⟩ }, []⟩) := by
  have left : { pen with flex? := none } = pen := by rw [← outside]
  rw [draw_flex setting flex pen drawing, points]
  simp only [Pen.endFlex, Option.getD_some, List.reverse_reverse, left, bind_assoc]

theorem draw_short (few : flex.moves.length < 7) :
    (penTokens flex.tokens).foldlM (Pen.step setting) ⟨pen, waiting⟩ = (do
      Report.note (.shortFlex flex.moves.length setting.glyph)
      pure ⟨{ pen with current := ⟨coordinate flex.x, coordinate flex.y⟩ }, []⟩) := by
  have left : { pen with flex? := none } = pen := by rw [← outside]
  have count : (flex.moves.map FlexMove.vector).reverse.length = flex.moves.length := by simp
  rw [draw_flex setting flex pen drawing, Pen.end_flex_short pen setting.glyph (by rwa [count]), count,
    left, bind_assoc]
  simp only [pure_bind]

end Drawing

section Writing

def write (part : FlexPart → Bytes) (flex : Flex) : Bytes :=
  part .begins ++ flex.moves.flatMap (fun move => move.tokens.flatMap encodeToken ++ part .counts) ++
    [Token.number flex.height, .number flex.x, .number flex.y].flatMap encodeToken ++ part .ends

structure Writable (flex : Flex) : Prop where
  moves : ∀ move ∈ flex.moves, ∀ value, .number value ∈ move.tokens → Small value
  others : ∀ value ∈ [flex.height, flex.x, flex.y], Small value

variable {subrs : Option Index} {nesting : Nat} {part : FlexPart → Bytes}
  (parts : ∀ each : FlexPart, each.WrittenAs subrs nesting (part each))

include parts

theorem moves_written_write {moves : List FlexMove}
    (small : ∀ move ∈ moves, ∀ value, .number value ∈ move.tokens → Small value) :
    MovesWritten subrs nesting moves
      (moves.flatMap fun move => move.tokens.flatMap encodeToken ++ part .counts) := by
  induction moves with
  | nil => exact .nil
  | cons move moves ih =>
      obtain ⟨first, others⟩ := List.forall_mem_cons.mp small
      have moved : Encodes SpeltBy move.tokens (move.tokens.flatMap encodeToken) :=
        encodes_small first (by cases move <;> simp [FlexMove.tokens])
      exact .cons moved (parts .counts) (ih others)

theorem written_as_write {flex : Flex} (writable : flex.Writable) :
    flex.WrittenAs subrs nesting (flex.write part) := by
  have given : Encodes SpeltBy [.number flex.height, .number flex.x, .number flex.y]
      ([Token.number flex.height, .number flex.x, .number flex.y].flatMap encodeToken) :=
    encodes_small (fun value member => writable.others value (by simpa using member)) (by simp)
  exact .parts (parts .begins) (moves_written_write parts writable.moves) given (parts .ends)

end Writing

theorem decode_flex {subrs : Option Index} {flex : Flex} {before bytes : Bytes}
    {earlier : List (Token Type1Op Int)} (decodes : (decode subrs before).outcome = .ok earlier)
    (room : Token.pending earlier.reverse + 2 ≤ maxArguments)
    (written : flex.WrittenAs subrs maxNesting bytes) :
    (decode subrs (before ++ bytes)).outcome = .ok (earlier ++ flex.tokens) := by
  have apart : ¬ BeginsWithPop bytes := by
    cases written with
    | parts begun moved given ended =>
        rw [List.append_assoc, List.append_assoc]
        exact begun.not_begins_with_pop _
  have ran := leads_flex written room []
  rw [List.append_nil, decode_nested_nil] at ran
  apply decode_append_of_reached decodes apart
  rw [ran]
  rfl

end Flex

/-- Where a flex is written, in line or with the customary subroutines, and 46 numbers at most wait, it
becomes its two curves, whatever the charstring goes on with: a pen that is not in a flex draws from where
it is as for the two curves, the first of them by the sum of the first two moves. With fewer than seven
moves it draws nothing. Then the flex is over, and the pen is at the point given. -/
theorem flex_is_two_curves (flex : Flex) :
    (∀ subrs nesting bytes stack, flex.WrittenAs subrs nesting bytes → Token.pending stack ≤ 46 →
      ∀ tail, decodeNested subrs nesting (bytes ++ tail) stack =
        decodeNested subrs nesting tail (flex.tokens.reverse ++ stack)) ∧
    (∀ subrs before earlier bytes, (decode subrs before).outcome = .ok earlier →
      Token.pending earlier.reverse ≤ 46 → flex.WrittenAs subrs maxNesting bytes →
      (decode subrs (before ++ bytes)).outcome = .ok (earlier ++ flex.tokens)) ∧
    ∀ (setting : Setting Float32) pen waiting, pen.flex? = none → pen.ended = false →
      (∀ p₀ p₁ p₂ p₃ p₄ p₅ p₆ more,
        flex.moves.map FlexMove.vector = p₀ :: p₁ :: p₂ :: p₃ :: p₄ :: p₅ :: p₆ :: more →
        (penTokens flex.tokens).foldlM (Pen.step setting) ⟨pen, waiting⟩ = (do
          let half ← pen.curveBy setting.glyph (p₀ + p₁) p₂ p₃
          let whole ← half.curveBy setting.glyph p₄ p₅ p₆
          pure ⟨{ whole with current := ⟨coordinate flex.x, coordinate flex.y⟩ }, []⟩)) ∧
      (flex.moves.length < 7 →
        (penTokens flex.tokens).foldlM (Pen.step setting) ⟨pen, waiting⟩ = (do
          Report.note (.shortFlex flex.moves.length setting.glyph)
          pure ⟨{ pen with current := ⟨coordinate flex.x, coordinate flex.y⟩ }, []⟩)) ∧
      ((penTokens flex.tokens).foldlM (Pen.step setting) ⟨pen, waiting⟩).value.pen.flex? = none ∧
      ((penTokens flex.tokens).foldlM (Pen.step setting) ⟨pen, waiting⟩).value.pen.current =
        ⟨coordinate flex.x, coordinate flex.y⟩ :=
  ⟨fun _ _ _ _ written room => Flex.leads_flex written (Nat.add_le_add_right room 2),
    fun _ _ _ _ decodes room => Flex.decode_flex decodes (Nat.add_le_add_right room 2),
    fun setting _ waiting outside drawing =>
      ⟨fun _ _ _ _ _ _ _ _ => Flex.draw_curves setting drawing waiting outside,
        Flex.draw_short setting drawing waiting outside, Flex.after_flex setting drawing waiting⟩⟩

def FlexPart.inLine (part : FlexPart) : Bytes := part.tokens.flatMap encodeToken

def FlexPart.body (part : FlexPart) : Bytes := part.inLine ++ Type1Op.subrReturn.key.bytes

def FlexPart.byCall (part : FlexPart) : Bytes :=
  Integer.short part.subroutine ++ Type1Op.callsubr.key.bytes

def customary : Index := 
  .ofObjects 1 [FlexPart.ends.body, FlexPart.begins.body, FlexPart.counts.body]

theorem FlexPart.encodes_in_line (part : FlexPart) : Encodes SpeltBy part.tokens part.inLine := by
  cases part <;>
    exact encodes_small (by simp [FlexPart.tokens, otherCall]) (by simp [FlexPart.tokens, otherCall])

theorem FlexPart.written_as_by_call (part : FlexPart) :
    part.WrittenAs (some customary) 10 part.byCall := by
  have kept : customary.get? part.subroutine = some (part.inLine ++ Type1Op.subrReturn.key.bytes) := by
    cases part <;> rfl
  have low : -1131 ≤ (part.subroutine : Int) := by cases part <;> decide
  have high : (part.subroutine : Int) ≤ 1131 := by cases part <;> decide
  exact .called rfl kept part.encodes_in_line (.short low high)

def wave : Flex where
  moves := [.both 30 5, .across (-20), .both 10 5, .across 10, .across 10, .both 10 (-5), .both 10 (-5)]
  height := 50
  x := 60
  y := 0

theorem writable_wave : wave.Writable where
  moves := by simp [wave, FlexMove.tokens, Small]
  others := by simp [wave, Small]

theorem wave_is_two_curves :
    (decode (some customary) ([139, 139, 21] ++ wave.write FlexPart.byCall)).outcome =
        .ok ([.number 0, .number 0, .operator .rmoveto] ++ wave.tokens) ∧
      (penTokens wave.tokens).foldlM (Pen.step ⟨0, none⟩) ⟨Pen.start.moveBy 0, []⟩ = (do
        let half ← (Pen.start.moveBy 0).curveBy 0
          (⟨coordinate 30, coordinate 5⟩ + ⟨coordinate (-20), coordinate 0⟩)
          ⟨coordinate 10, coordinate 5⟩ ⟨coordinate 10, coordinate 0⟩
        let whole ← half.curveBy 0 ⟨coordinate 10, coordinate 0⟩ ⟨coordinate 10, coordinate (-5)⟩
          ⟨coordinate 10, coordinate (-5)⟩
        pure ⟨{ whole with current := ⟨coordinate 60, coordinate 0⟩ }, []⟩) ∧
      (penTokens { wave with moves := [.both 10 10] }.tokens).foldlM (Pen.step ⟨0, none⟩)
          ⟨Pen.start.moveBy 0, []⟩ = (do
        Report.note (.shortFlex 1 0)
        pure ⟨{ Pen.start.moveBy 0 with current := ⟨coordinate 60, coordinate 0⟩ }, []⟩) := by
  have decodes : (decode (some customary) [139, 139, 21]).outcome =
      .ok [.number 0, .number 0, .operator .rmoveto] := Attempt.ok_of_to_option (by decide +kernel)
  have written := Flex.written_as_write FlexPart.written_as_by_call writable_wave
  obtain ⟨-, decoded, drawn⟩ := flex_is_two_curves wave
  obtain ⟨curves, -⟩ := drawn ⟨0, none⟩ (Pen.start.moveBy 0) [] rfl rfl
  obtain ⟨-, -, drawnShort⟩ := flex_is_two_curves { wave with moves := [.both 10 10] }
  obtain ⟨-, short, -⟩ := drawnShort ⟨0, none⟩ (Pen.start.moveBy 0) [] rfl rfl
  exact ⟨decoded _ _ _ _ decodes (by decide) written, curves _ _ _ _ _ _ _ [] rfl, short (by decide)⟩

theorem flex_fails_after_many_numbers :
    ¬ ∀ subrs before earlier (flex : Flex) bytes, (decode subrs before).outcome = .ok earlier →
      flex.WrittenAs subrs maxNesting bytes → flex.moves.length = 7 →
      (decode subrs (before ++ bytes)).outcome = .ok (earlier ++ flex.tokens) := by
  intro decoded
  have decodes : (decode none (List.replicate 47 139)).outcome = .ok (List.replicate 47 (.number 0)) :=
    Attempt.ok_of_to_option (by decide +kernel)
  have written : wave.WrittenAs none maxNesting (wave.write FlexPart.inLine) :=
    Flex.written_as_write (fun part => .inLine part.encodes_in_line) writable_wave
  have fails : (decode none (List.replicate 47 139 ++
      wave.write FlexPart.inLine)).outcome.toOption = none := by decide +kernel
  rw [decoded none _ _ wave _ decodes written rfl] at fails
  cases fails

end Type1

end CompactFont
