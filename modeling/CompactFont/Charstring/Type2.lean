import CompactFont.Charstring.Lexeme
import CompactFont.Index
import CompactFont.Report

set_option autoImplicit false

namespace CompactFont.Type2

abbrev Stack := List (Token Type2Op Number)

structure State where
  tokens : Stack
  stems : Nat
  ended : Bool
deriving DecidableEq, Repr

namespace State

def start : State := ⟨[], 0, false⟩

def add (state : State) (op : Type2Op) : State :=
  { state with tokens := .operator op :: state.tokens }

def declareStems (state : State) : State :=
  { state with stems := state.stems + Token.pending state.tokens / 2 }

def maskLength (state : State) : Nat := (state.stems + 7) / 8

def dropReturn (state : State) : State :=
  match state.tokens with
  | .operator .subrReturn :: rest => { state with tokens := rest }
  | _ => state

end State

abbrev Decoding := Attempt CharstringError

structure Subroutines where
  globals : Index
  locals? : Option Index

def bias (count : Nat) : Int :=
  if count < 1240 then 107 else if count < 33900 then 1131 else 32768

-- The place is computed in 32 bits. An operand that does not fit is taken for the nearest number that
-- does, and a sum that does not fit or is negative is no place.
def place? (count : Nat) (operand : Number) : Option Nat :=
  let word := Int32.ofIntClamp operand.truncate
  let shift := Int32.ofInt (bias count)
  if word.toBitVec.saddOverflow shift.toBitVec then none
  else if word + shift < 0 then none
  else some (word + shift).toNatClampNeg

def subroutine? (index : Index) (operand : Number) : Option Bytes :=
  (place? index.count operand).bind index.get?

def call (enter : Bytes → State → Decoding State) (index : Index) (state : State) :
    Decoding State :=
  match state.tokens with
  | .number operand :: rest =>
      match subroutine? index operand with
      | some body => State.dropReturn <$> enter body { state with tokens := rest }
      | none => do
          Report.note (.noType2Subroutine operand)
          pure { state with tokens := rest }
  | other => do
      Report.note (.type2CallWithout other.head?)
      pure { state with tokens := other.tail }

-- Adds a mask operator and the mask at the start of `bytes`. Numbers before the first mask are
-- stems of their own.
def addMask (bytes : Bytes) (op : Type2Op) (state : State) : Decoding (State × Nat) := do
  let declared := state.declareStems
  let (mask, _) ← (Reader.take declared.maskLength bytes).mapError CharstringError.read
  pure ({ declared with tokens := .mask mask :: .operator op :: declared.tokens }, mask.length)

def callOrAdd (call : Index → State → Decoding State) (index : Index) (state : State)
    (op : Type2Op) : Decoding (State × Nat) :=
  if index.isEmpty then pure (state.add op, 0)
  else do
    let state ← call index state
    pure (state, 0)

def operate (call : Index → State → Decoding State) (subroutines : Subroutines) (bytes : Bytes)
    (state : State) (op : Type2Op) : Decoding (State × Nat) :=
  match op with
  | .callsubr => callOrAdd call (subroutines.locals?.getD .empty) state op
  | .callgsubr => callOrAdd call subroutines.globals state op
  | .hstem => pure (state.declareStems.add op, 0)
  | .hstemhm => pure (state.declareStems.add op, 0)
  | .vstem => pure (state.declareStems.add op, 0)
  | .vstemhm => pure (state.declareStems.add op, 0)
  | .hintmask => addMask bytes op state
  | .cntrmask => addMask bytes op state
  | .endchar => pure ({ state.add op with ended := true }, 0)
  | _ => pure (state.add op, 0)

def step (call : Index → State → Decoding State) (subroutines : Subroutines) (bytes : Bytes)
    (state : State) : Lexeme Number → Decoding (State × Nat)
  | .number value => do
      let tokens ← Token.push value state.tokens
      pure ({ state with tokens }, 0)
  | .command key =>
      match Type2Op.ofKey? key with
      | some op => operate call subroutines bytes state op
      | none => do
          Report.note (.unknownType2Operator key)
          pure (state, 0)

def run (call : Index → State → Decoding State) (subroutines : Subroutines) (bytes : Bytes)
    (state : State) : Decoding State :=
  if state.ended ∨ bytes = [] then pure state
  else
    match _found : Lexeme.readType2 bytes with
    | .error error => throw (.read error)
    | .ok (lexeme, rest) => do
        let (next, used) ← step call subroutines rest state lexeme
        run call subroutines (rest.drop used) next
termination_by bytes.length
decreasing_by
  have := Reader.length_lt_of_consumes Lexeme.consumes_read_type2 _found
  rw [List.length_drop]
  omega

def decodeNested (subroutines : Subroutines) : Nat → Bytes → State → Decoding State
  | 0 => run (call fun _ _ => throw .nestingLimit) subroutines
  | nesting + 1 => run (call (decodeNested subroutines nesting)) subroutines

def decode (subroutines : Subroutines) (charstring : Bytes) :
    Decoding (List (Token Type2Op Number)) :=
  (fun state => state.tokens.reverse) <$> decodeNested subroutines maxNesting charstring .start

end CompactFont.Type2
