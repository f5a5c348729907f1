import CompactFont.Charstring.Lexeme
import CompactFont.Index
import CompactFont.Report

set_option autoImplicit false

namespace CompactFont.Type1

abbrev Stack := List (Token Type1Op Int)

abbrev Decoding := Attempt CharstringError

def maxInteger : Int := 0x7fffffff

def quotient (dividend divisor : Int) : Except CharstringError Int :=
  if divisor = 0 ∨ maxInteger < Int.tdiv dividend divisor then .error (.read .badValue)
  else .ok (Int.tdiv dividend divisor)

def takeInteger : (stack : Stack) →
    Except CharstringError (Int × { rest : Stack // rest.length < stack.length })
  | [] => .error .missingArguments
  | .number value :: rest => .ok (value, ⟨rest, by simp⟩)
  | .operator .div :: rest => do
      let (divisor, ⟨below, shorter⟩) ← takeInteger rest
      let (dividend, ⟨bottom, shortest⟩) ← takeInteger below
      let value ← quotient dividend divisor
      pure (value, ⟨bottom, by rw [List.length_cons]; omega⟩)
  | _ :: _ => .error .invalidOperator
termination_by stack => stack.length

def popInteger (stack : Stack) : Except CharstringError (Int × Stack) := do
  let (value, ⟨rest, _⟩) ← takeInteger stack
  pure (value, rest)

-- Takes `count` integers, the topmost first; the last one taken is the first of the list.
def popIntegers : Nat → List Int → Stack → Except CharstringError (List Int × Stack)
  | 0, taken, stack => .ok (taken, stack)
  | count + 1, taken, stack => do
      let (value, rest) ← popInteger stack
      popIntegers count (value :: taken) rest

-- Carries out OtherSubr `number` on its arguments: the results, in the order in which `pop`
-- returns them, and the stack without the arguments.
def callOther (number count : Int) (stack : Stack) : Except CharstringError (List Int × Stack) :=
  match number with
  | 0 => do
      let (results, rest) ← popIntegers 2 [] stack
      pure (results, .operator .callothersubr :: .number 0 :: rest.drop 1)
  | 1 => .ok ([], .operator .callothersubr :: .number 1 :: stack)
  | 3 => popIntegers 1 [] stack
  | _ => popIntegers count.toNat [] stack

-- Hands results to the `pop` operators at the start of `bytes`: the results left over, the stack,
-- and how many bytes the operators take.
def deliver : List Int → Bytes → Stack → Except CharstringError (List Int × Stack × Nat)
  | result :: results, 12 :: 17 :: bytes, stack => do
      let stack ← Token.push result stack
      let (unused, stack, used) ← deliver results bytes stack
      pure (unused, stack, used + 2)
  | results, _, stack => .ok (results, stack, 0)

def othersubr (bytes : Bytes) (stack : Stack) : Decoding (Stack × Nat) := do
  let (number, rest) ← popInteger stack
  let (count, rest) ← popInteger rest
  let (results, rest) ← callOther number count rest
  let (unused, stack, used) ← deliver results bytes rest
  if unused ≠ [] then Report.note (.unusedResults unused.length number)
  pure (stack, used)

def dropReturn : Stack → Stack
  | .operator .subrReturn :: rest => rest
  | stack => stack

def subroutine? (subrs : Option Index) (number : Int) : Option Bytes :=
  if 0 ≤ number then subrs.bind (·.get? number.toNat) else none

def call (subrs : Option Index) (enter : Bytes → Stack → Decoding Stack) (stack : Stack) :
    Decoding Stack :=
  match stack with
  | .number number :: rest =>
      match subroutine? subrs number with
      | some body => dropReturn <$> enter body rest
      | none => do
          Report.note (.noType1Subroutine number)
          pure (Token.dropPending rest)
  | other => do
      Report.note (.type1CallWithout other.head?)
      pure other.tail

def step (call : Stack → Decoding Stack) (bytes : Bytes) (stack : Stack) :
    Lexeme Int → Decoding (Stack × Nat)
  | .number value => do
      let stack ← Token.push value stack
      pure (stack, 0)
  | .command key =>
      match Type1Op.ofKey? key with
      | some .callsubr => do
          let stack ← call stack
          pure (stack, 0)
      | some .callothersubr => othersubr bytes stack
      | some op => pure (.operator op :: stack, 0)
      | none => do
          Report.note (.unknownType1Operator key)
          pure (stack, 0)

def run (call : Stack → Decoding Stack) (bytes : Bytes) (stack : Stack) : Decoding Stack :=
  if bytes = [] then pure stack
  else
    match _found : Lexeme.readType1 bytes with
    | .error error => throw (.read error)
    | .ok (lexeme, rest) => do
        let (next, used) ← step call rest stack lexeme
        run call (rest.drop used) next
termination_by bytes.length
decreasing_by
  have := Reader.length_lt_of_consumes Lexeme.consumes_read_type1 _found
  rw [List.length_drop]
  omega

def decodeNested (subrs : Option Index) : Nat → Bytes → Stack → Decoding Stack
  | 0 => run (call subrs fun _ _ => throw .nestingLimit)
  | nesting + 1 => run (call subrs (decodeNested subrs nesting))

def decode (subrs : Option Index) (charstring : Bytes) : Decoding (List (Token Type1Op Int)) :=
  List.reverse <$> decodeNested subrs maxNesting charstring []

end CompactFont.Type1
