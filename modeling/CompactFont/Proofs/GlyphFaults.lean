import CompactFont.Proofs.IndexLayout
import CompactFont.Proofs.Outcome
import CompactFont.Proofs.Reading
import CompactFont.Proofs.RequestHistory
import CompactFont.Proofs.Type1Run

set_option autoImplicit false

namespace CompactFont

inductive LexicalFault : ReadError → Prop where
  | endOfData : LexicalFault .endOfData
  | badValue : LexicalFault .badValue

inductive LexemeFault : CharstringError → Prop where
  | lexical {error : ReadError} (fault : LexicalFault error) : LexemeFault (.read error)
  | invalidOperator : LexemeFault .invalidOperator
  | argumentLimit : LexemeFault .argumentLimit
  | missingArguments : LexemeFault .missingArguments

inductive DecodingFault : CharstringError → Prop where
  | lexical {error : ReadError} (fault : LexicalFault error) : DecodingFault (.read error)
  | invalidOperator : DecodingFault .invalidOperator
  | nestingLimit : DecodingFault .nestingLimit
  | argumentLimit : DecodingFault .argumentLimit
  | missingArguments : DecodingFault .missingArguments

theorem LexemeFault.decoding {error : CharstringError} (fault : LexemeFault error) :
    DecodingFault error := by
  cases fault with
  | lexical fault => exact .lexical fault
  | invalidOperator => exact .invalidOperator
  | argumentLimit => exact .argumentLimit
  | missingArguments => exact .missingArguments

theorem Integer.fails_only_read (first : Nat) : Reader.FailsOnly LexicalFault (Integer.read first) := by
  unfold Integer.read
  split
  · exact Reader.fails_only_throw .badValue
  · split
    · exact Reader.fails_only_pure _
    · split
      · exact Reader.fails_only_bind (Field.fails_only_read .endOfData _) fun _ => Reader.fails_only_pure _
      · split
        · exact Reader.fails_only_bind (Field.fails_only_read .endOfData _)
            fun _ => Reader.fails_only_pure _
        · exact Reader.fails_only_throw .badValue

theorem Key.fails_only_read_from (first : Nat) : Reader.FailsOnly LexicalFault (Key.readFrom first) := by
  unfold Key.readFrom
  split
  · exact Reader.fails_only_map _ (Field.fails_only_read .endOfData _)
  · exact Reader.fails_only_pure _

namespace Lexeme

theorem fails_only_read_type1 : Reader.FailsOnly LexicalFault readType1 := by
  refine Reader.fails_only_bind (Field.fails_only_read .endOfData _) fun first => ?_
  unfold type1From
  repeat' split
  · exact Reader.fails_only_map _ (Key.fails_only_read_from _)
  · exact Reader.fails_only_map _ (Field.fails_only_read .endOfData _)
  · exact Reader.fails_only_map _ (Integer.fails_only_read _)

theorem fails_only_read_type2 : Reader.FailsOnly LexicalFault readType2 := by
  refine Reader.fails_only_bind (Field.fails_only_read .endOfData _) fun first => ?_
  unfold type2From
  repeat' split
  · exact Reader.fails_only_map _ (Field.fails_only_read .endOfData _)
  · exact Reader.fails_only_map _ (Field.fails_only_read .endOfData _)
  · exact Reader.fails_only_map _ (Key.fails_only_read_from _)
  · exact Reader.fails_only_map _ (Integer.fails_only_read _)

end Lexeme

theorem Token.push_fault {O N : Type} {value : N} {stack : List (Token O N)}
    {error : CharstringError} (failed : Token.push value stack = .error error) :
    LexemeFault error := by
  unfold Token.push at failed
  split at failed
  · cases failed
    exact .argumentLimit
  · cases failed

namespace Type2

variable {call : Index → State → Decoding State} (subroutines : Subroutines)
  {expected : CharstringError → Prop}

theorem fails_only_call {enter : Bytes → State → Decoding State}
    (entered : ∀ bytes state, Attempt.FailsOnly expected (enter bytes state)) (index : Index)
    (state : State) : Attempt.FailsOnly expected (Type2.call enter index state) := by
  unfold Type2.call
  split
  · split
    · exact Attempt.fails_only_map _ (entered _ _)
    · exact Attempt.fails_only_bind (Attempt.fails_only_report _) fun _ _ => Attempt.fails_only_pure _
  · exact Attempt.fails_only_bind (Attempt.fails_only_report _) fun _ _ => Attempt.fails_only_pure _

theorem fails_only_add_mask (bytes : Bytes) (op : Type2Op) (state : State) :
    Attempt.FailsOnly LexemeFault (addMask bytes op state) := by
  unfold addMask
  refine Attempt.fails_only_bind (Attempt.fails_only_lift fun error failed => ?_)
    fun _ _ => Attempt.fails_only_pure _
  cases taken : Reader.take state.declareStems.maskLength bytes with
  | ok result =>
      rw [taken] at failed
      cases failed
  | error cause =>
      rw [taken] at failed
      cases failed
      exact .lexical (Reader.fails_only_take .endOfData _ _ _ taken)

section Steps

variable (own : ∀ error, LexemeFault error → expected error)
  (called : ∀ index state, Attempt.FailsOnly expected (call index state))

include own called

theorem fails_only_operate (bytes : Bytes) (state : State) (op : Type2Op) :
    Attempt.FailsOnly expected (operate call subroutines bytes state op) := by
  have calling (index : Index) (op : Type2Op) :
      Attempt.FailsOnly expected (callOrAdd call index state op) := by
    unfold callOrAdd
    split
    · exact Attempt.fails_only_pure _
    · exact Attempt.fails_only_bind (called _ _) fun _ _ => Attempt.fails_only_pure _
  cases op with
  | callsubr | callgsubr => exact calling _ _
  | hintmask | cntrmask => exact Attempt.fails_only_mono own (fails_only_add_mask bytes _ state)
  | _ => exact Attempt.fails_only_pure _

theorem fails_only_step (bytes : Bytes) (state : State) (lexeme : Lexeme Number) :
    Attempt.FailsOnly expected (step call subroutines bytes state lexeme) := by
  cases lexeme with
  | number value =>
      exact Attempt.fails_only_bind (Attempt.fails_only_lift fun _ failed => own _ (Token.push_fault failed))
        fun _ _ => Attempt.fails_only_pure _
  | command key =>
      simp only [step]
      split
      · exact fails_only_operate subroutines own called bytes state _
      · exact Attempt.fails_only_bind (Attempt.fails_only_report _) fun _ _ => Attempt.fails_only_pure _

end Steps

theorem fails_only_run
    (called : ∀ index state, Attempt.FailsOnly DecodingFault (call index state)) (bytes : Bytes)
    (state : State) : Attempt.FailsOnly DecodingFault (run call subroutines bytes state) := by
  fun_induction run call subroutines bytes state with
  | case1 bytes state stopped => exact Attempt.fails_only_pure _
  | case2 bytes state more error failed =>
      exact Attempt.fails_only_throw (.lexical (Lexeme.fails_only_read_type2 _ _ failed))
  | case3 bytes state more lexeme rest found ih =>
      exact Attempt.fails_only_bind
        (fails_only_step subroutines (fun _ => LexemeFault.decoding) called rest state lexeme)
        fun result _ => ih result.1 result.2

theorem fails_only_decode_nested (nesting : Nat) (bytes : Bytes) (state : State) :
    Attempt.FailsOnly DecodingFault (decodeNested subroutines nesting bytes state) := by
  induction nesting generalizing bytes state with
  | zero =>
      have stopped := fails_only_call fun _ _ => Attempt.fails_only_throw DecodingFault.nestingLimit
      exact fails_only_run subroutines stopped bytes state
  | succ nesting ih => exact fails_only_run subroutines (fails_only_call ih) bytes state

theorem fails_only_decode (charstring : Bytes) :
    Attempt.FailsOnly DecodingFault (decode subroutines charstring) :=
  Attempt.fails_only_map _ (fails_only_decode_nested subroutines _ _ _)

end Type2

namespace Type1

theorem quotient_fault {dividend divisor : Int} {error : CharstringError}
    (failed : quotient dividend divisor = .error error) : LexemeFault error := by
  unfold quotient at failed
  split at failed
  · cases failed
    exact .lexical .badValue
  · cases failed

theorem bind_fault {α β : Type} {result : Except CharstringError α}
    {next : α → Except CharstringError β} {error : CharstringError}
    (failed : result >>= next = .error error)
    (head : ∀ error, result = .error error → LexemeFault error)
    (tail : ∀ value error, next value = .error error → LexemeFault error) :
    LexemeFault error := by
  cases first : result with
  | error other =>
      rw [first] at failed
      cases failed
      exact head error first
  | ok value =>
      rw [first] at failed
      exact tail value error failed

theorem take_integer_fault (stack : Stack) (error : CharstringError)
    (failed : takeInteger stack = .error error) : LexemeFault error := by
  fun_induction takeInteger stack generalizing error with
  | case1 =>
      cases failed
      exact .missingArguments
  | case2 value rest => cases failed
  | case3 rest divisorTaken dividendTaken =>
      refine bind_fault failed divisorTaken fun taken error failed => ?_
      obtain ⟨divisor, below, shorter⟩ := taken
      refine bind_fault failed (dividendTaken below shorter) fun dividend error failed => ?_
      refine bind_fault failed (fun _ => quotient_fault) fun value error failed => ?_
      cases failed
  | case4 =>
      cases failed
      exact .invalidOperator

theorem pop_integer_fault (stack : Stack) (error : CharstringError)
    (failed : popInteger stack = .error error) : LexemeFault error :=
  bind_fault failed (take_integer_fault stack) nofun

theorem pop_integers_fault (count : Nat) (taken : List Int) (stack : Stack) (error : CharstringError)
    (failed : popIntegers count taken stack = .error error) : LexemeFault error := by
  induction count generalizing taken stack error with
  | zero => cases failed
  | succ count ih =>
      exact bind_fault failed (pop_integer_fault stack) fun value error => ih _ _ error

theorem call_other_fault (number count : Int) (stack : Stack) (error : CharstringError)
    (failed : callOther number count stack = .error error) : LexemeFault error := by
  unfold callOther at failed
  split at failed
  · exact bind_fault failed (pop_integers_fault _ _ _) nofun
  · cases failed
  · exact pop_integers_fault _ _ _ _ failed
  · exact pop_integers_fault _ _ _ _ failed

theorem deliver_fault (results : List Int) (bytes : Bytes) (stack : Stack) (error : CharstringError)
    (failed : deliver results bytes stack = .error error) : LexemeFault error := by
  fun_induction deliver results bytes stack generalizing error with
  | case1 result results bytes stack ih =>
      refine bind_fault failed (fun _ => Token.push_fault) fun stack error failed => ?_
      refine bind_fault failed (ih _) fun delivered error failed => ?_
      cases failed
  | case2 => cases failed

theorem fails_only_othersubr (bytes : Bytes) (stack : Stack) :
    Attempt.FailsOnly LexemeFault (othersubr bytes stack) := by
  refine Attempt.fails_only_bind (Attempt.fails_only_lift (pop_integer_fault stack)) fun _ _ => ?_
  refine Attempt.fails_only_bind (Attempt.fails_only_lift (pop_integer_fault _)) fun _ _ => ?_
  refine Attempt.fails_only_bind (Attempt.fails_only_lift (call_other_fault _ _ _)) fun _ _ => ?_
  refine Attempt.fails_only_bind (Attempt.fails_only_lift (deliver_fault _ _ _)) fun _ _ => ?_
  dsimp only
  split
  · exact Attempt.fails_only_bind (Attempt.fails_only_report _) fun _ _ => Attempt.fails_only_pure _
  · exact Attempt.fails_only_pure _

theorem fails_only_call {expected : CharstringError → Prop} (subrs : Option Index)
    {enter : Bytes → Stack → Decoding Stack}
    (entered : ∀ bytes stack, Attempt.FailsOnly expected (enter bytes stack)) (stack : Stack) :
    Attempt.FailsOnly expected (Type1.call subrs enter stack) := by
  unfold Type1.call
  split
  · split
    · exact Attempt.fails_only_map _ (entered _ _)
    · exact Attempt.fails_only_bind (Attempt.fails_only_report _) fun _ _ => Attempt.fails_only_pure _
  · exact Attempt.fails_only_bind (Attempt.fails_only_report _) fun _ _ => Attempt.fails_only_pure _

variable {call : Stack → Decoding Stack}

theorem fails_only_step {expected : CharstringError → Prop}
    (own : ∀ error, LexemeFault error → expected error)
    (called : ∀ stack, Attempt.FailsOnly expected (call stack)) (bytes : Bytes) (stack : Stack)
    (lexeme : Lexeme Int) : Attempt.FailsOnly expected (step call bytes stack lexeme) := by
  cases lexeme with
  | number value =>
      exact Attempt.fails_only_bind (Attempt.fails_only_lift fun _ failed => own _ (Token.push_fault failed))
        fun _ _ => Attempt.fails_only_pure _
  | command key =>
      simp only [step]
      split
      · exact Attempt.fails_only_bind (called stack) fun _ _ => Attempt.fails_only_pure _
      · exact Attempt.fails_only_mono own (fails_only_othersubr bytes stack)
      · exact Attempt.fails_only_pure _
      · exact Attempt.fails_only_bind (Attempt.fails_only_report _) fun _ _ => Attempt.fails_only_pure _

theorem fails_only_run (called : ∀ stack, Attempt.FailsOnly DecodingFault (call stack))
    (bytes : Bytes) (stack : Stack) : Attempt.FailsOnly DecodingFault (run call bytes stack) := by
  fun_induction run call bytes stack with
  | case1 stack => exact Attempt.fails_only_pure _
  | case2 bytes stack more error failed =>
      exact Attempt.fails_only_throw (.lexical (Lexeme.fails_only_read_type1 _ _ failed))
  | case3 bytes stack more lexeme rest found ih =>
      exact Attempt.fails_only_bind
        (fails_only_step (fun _ => LexemeFault.decoding) called rest stack lexeme)
        fun result _ => ih result.1 result.2

theorem fails_only_decode_nested (subrs : Option Index) (nesting : Nat) (bytes : Bytes)
    (stack : Stack) : Attempt.FailsOnly DecodingFault (decodeNested subrs nesting bytes stack) := by
  induction nesting generalizing bytes stack with
  | zero =>
      have stopped := fails_only_call subrs fun _ _ => Attempt.fails_only_throw DecodingFault.nestingLimit
      exact fails_only_run stopped bytes stack
  | succ nesting ih => exact fails_only_run (fails_only_call subrs ih) bytes stack

theorem fails_only_decode (subrs : Option Index) (charstring : Bytes) :
    Attempt.FailsOnly DecodingFault (decode subrs charstring) :=
  Attempt.fails_only_map _ (fails_only_decode_nested subrs _ _ _)

end Type1

inductive NumberFault : ReadError → Prop where
  | badValue : NumberFault .badValue
  | limitExceeded : NumberFault .limitExceeded

namespace Dict

theorem Real.fails_only_add (spelling : Real.Spelling) (nibble : Nat) :
    Attempt.FailsOnly NumberFault (spelling.add nibble) := by
  unfold Real.Spelling.add
  by_cases tooLong : Real.maxText < spelling.reversed.length
  · rw [if_pos tooLong]
    exact Attempt.fails_only_throw .limitExceeded
  · rw [if_neg tooLong]
    repeat' split
    all_goals exact Attempt.fails_only_pure _

theorem Real.literal_value_fault {text : List Char} {error : ReadError}
    (failed : Real.literalValue text = .error error) : NumberFault error := by
  unfold Real.literalValue at failed
  split at failed
  · cases failed
  · split at failed
    · cases failed
    · cases failed
      exact .badValue

theorem Operand.fails_only_to_float (operand : Operand) :
    Attempt.FailsOnly NumberFault operand.toFloat := by
  cases operand with
  | integer value => exact Attempt.fails_only_pure _
  | offset value => exact Attempt.fails_only_pure _
  | real value =>
      refine Attempt.fails_only_bind ?_ fun _ _ => Attempt.fails_only_lift fun _ => Real.literal_value_fault
      exact Attempt.fails_only_map _ (Attempt.fails_only_foldl_m Real.fails_only_add _ _)

theorem fails_only_number {kind : Kind} (dict : Dict kind) (operator : Operator) :
    Attempt.FailsOnly NumberFault (dict.number? operator) := by
  unfold number?
  split
  · exact Attempt.fails_only_pure _
  · exact Attempt.fails_only_map _ (Operand.fails_only_to_float _)
  · exact Attempt.fails_only_throw .badValue

end Dict

inductive GlyphFault : CharstringError → Prop where
  | decoding {error : CharstringError} (fault : DecodingFault error) : GlyphFault error
  | width {error : ReadError} (fault : NumberFault error) : GlyphFault (.read error)

theorem GlyphFault.ne_bad_index {error : CharstringError} (fault : GlyphFault error) :
    error ≠ .read .badIndex := by
  rintro rfl
  cases fault with
  | decoding fault =>
      cases fault with
      | lexical fault => cases fault
  | width fault => cases fault

namespace Font

variable {font : Font}

theorem fails_only_widths (glyph : Nat) : Attempt.FailsOnly NumberFault (font.widths glyph) := by
  unfold widths
  split
  · exact Attempt.fails_only_pure _
  · refine Attempt.fails_only_bind (Dict.fails_only_number _ _) fun _ _ => ?_
    exact Attempt.fails_only_bind (Dict.fails_only_number _ _) fun _ _ => Attempt.fails_only_pure _

theorem charstring_of_lt (whole : font.charstrings.Whole) {glyph : Nat}
    (inside : glyph < font.glyphCount) :
    ∃ data, font.charstrings.get? glyph = some data ∧ font.charstring glyph = .ok data := by
  obtain ⟨data, found⟩ := whole.found_of_lt inside
  refine ⟨data, found, ?_⟩
  rw [charstring, found]

theorem resolve_lt (nonempty : 0 < font.glyphCount) (glyph : Nat) :
    font.resolve glyph < font.glyphCount := by
  unfold resolve
  split
  · assumption
  · exact nonempty

variable (whole : font.charstrings.Whole) (nonempty : 0 < font.glyphCount)

include whole nonempty

theorem fails_only_charstring (glyph : Nat) :
    Attempt.FailsOnly GlyphFault (liftM (font.charstring (font.resolve glyph)) :
      Attempt CharstringError Bytes) := by
  obtain ⟨charstring, -, found⟩ := charstring_of_lt whole (resolve_lt nonempty glyph)
  intro error failed
  rw [Attempt.outcome_lift, found] at failed
  cases failed

theorem fails_only_decode_type2 (glyph : Nat) :
    Attempt.FailsOnly GlyphFault (font.decodeType2 (font.resolve glyph)) := by
  refine Attempt.fails_only_bind (fails_only_charstring whole nonempty glyph) fun charstring _ => ?_
  refine Attempt.fails_only_map _ fun error failed => .decoding ?_
  exact Type2.fails_only_decode _ charstring error failed

theorem fails_only_type1_tokens (glyph : Nat) :
    Attempt.FailsOnly GlyphFault (font.type1Tokens glyph) := by
  unfold type1Tokens
  dsimp only
  split
  · refine Attempt.fails_only_bind (fails_only_charstring whole nonempty glyph) fun charstring _ => ?_
    refine Attempt.fails_only_map _ fun error failed => .decoding ?_
    exact Type1.fails_only_decode _ charstring error failed
  · refine Attempt.fails_only_bind (fails_only_decode_type2 whole nonempty glyph) fun tokens _ => ?_
    refine Attempt.fails_only_bind ?_ fun widths _ => Attempt.fails_only_report _
    exact Attempt.fails_only_map_error (fails_only_widths _) fun _ fault => .width fault

theorem fails_only_draw_with (draw? : Option (Nat → Attempt CharstringError (Glyph Float32)))
    (glyph : Nat) : Attempt.FailsOnly GlyphFault (font.drawWith draw? glyph) := by
  refine Attempt.fails_only_bind (fails_only_type1_tokens whole nonempty glyph) fun tokens _ => ?_
  exact Attempt.fails_only_bind (Attempt.fails_only_report _) fun pen _ => Attempt.fails_only_pure _

theorem answer_fault {cache : GlyphCache} {glyph : Nat} {error : CharstringError}
    (failed : font.answer cache glyph = .error error) : GlyphFault error := by
  cases found : cache.get? (font.resolve glyph) with
  | some drawn =>
      rw [font.answer_cached found] at failed
      cases failed
  | none =>
      rw [font.answer_drawn found] at failed
      exact fails_only_draw_with whole nonempty _ _ error failed

end Font

end CompactFont
