import CompactFont.Charstring.Token
import CompactFont.Decimal.Shortest
import CompactFont.Error

set_option autoImplicit false

namespace CompactFont

inductive Severity where
  | warning
  | debug
deriving DecidableEq, Repr

inductive Notice where
  | unknownDictOperator (code : Nat)
  | reservedDictByte (byte : Nat)
  | repeatedExponent
  | unknownType1Operator (key : Key)
  | unknownType2Operator (key : Key)
  | type1CallWithout (found : Option (Token Type1Op Int))
  | type2CallWithout (found : Option (Token Type2Op Number))
  | noType1Subroutine (number : Int)
  | noType2Subroutine (operand : Number)
  | unusedResults (count : Nat) (othersubr : Int)
  | tooFewArguments (op : Type2Op) (count : Nat)
  | droppedGlobalCall
  | droppedOperator (op : Type2Op)
  | glyphTooFewArguments (op : Type1Op) (count glyph : Nat)
  | unexpectedOthersubr (number : Int) (glyph : Nat)
  | unexpectedOperator (op : Type1Op) (glyph : Nat)
  | invalidDivision (glyph : Nat)
  | drawingBeforeMove (glyph : Nat)
  | closingNothing (glyph : Nat)
  | shortFlex (points glyph : Nat)
  | seacWithoutNames (glyph : Nat)
  | invalidSeacCode (code : String) (glyph : Nat)
  | componentNotFound (name : String) (glyph : Nat)
  | componentsTooDeep (glyph : Nat)
  | componentFailed (name : String) (error : CharstringError)
deriving DecidableEq, Repr

namespace Notice

def severity : Notice → Severity
  | .unknownDictOperator _ => .debug
  | _ => .warning

def foundText {O N : Type} (label : O → String) (number : N → String) :
    Option (Token O N) → String
  | none => "None"
  | some (.number value) => "Some(Number(" ++ number value ++ "))"
  | some (.operator op) => "Some(Operator(" ++ label op ++ "))"
  | some (.mask bytes) =>
      "Some(Mask([" ++ ", ".intercalate (bytes.map fun byte => toString byte.toNat) ++ "]))"

def argumentsText (name : String) (count : Nat) : String :=
  name ++ " with " ++ toString count ++ " arguments"

def glyphText (glyph : Nat) : String := " glyph " ++ toString glyph

def text : Notice → String
  | .unknownDictOperator code =>
      "ignoring unknown DICT operator 0x" ++ String.ofList (Tag.hexDigits 4 code)
  | .reservedDictByte byte => "reserved DICT byte " ++ toString byte ++ " terminates entry"
  | .repeatedExponent => "duplicate exponent in real number"
  | .unknownType1Operator key => "unknown Type 1 charstring operator " ++ key.text
  | .unknownType2Operator key => "unknown Type 2 charstring operator " ++ key.text
  | .type1CallWithout found =>
      "callsubr with non-integer operand " ++ foundText Type1Op.label toString found
  | .type2CallWithout found =>
      "subroutine call with non-numeric operand " ++
        foundText Type2Op.label (fun value => Decimal.ofFloat value.toFloat) found
  | .noType1Subroutine number => "invalid Type 1 subroutine index " ++ toString number
  | .noType2Subroutine operand =>
      CharstringError.invalidSubroutine.message ++ ": " ++ Decimal.ofFloat operand.toFloat
  | .unusedResults count othersubr =>
      toString count ++ " unused results from othersubr " ++ toString othersubr
  | .tooFewArguments op count => argumentsText op.name count
  | .droppedGlobalCall => "dropping callgsubr without global subroutines"
  | .droppedOperator op => "dropping unsupported Type 2 operator " ++ op.name
  | .glyphTooFewArguments op count glyph =>
      argumentsText op.name count ++ " in" ++ glyphText glyph
  | .unexpectedOthersubr number glyph =>
      "unexpected othersubr " ++ toString number ++ " in" ++ glyphText glyph
  | .unexpectedOperator op glyph => "unexpected " ++ op.name ++ " in" ++ glyphText glyph
  | .invalidDivision glyph => "invalid div in" ++ glyphText glyph
  | .drawingBeforeMove glyph => "path operator without moveto in" ++ glyphText glyph
  | .closingNothing glyph => "closepath without an open subpath in" ++ glyphText glyph
  | .shortFlex points glyph => "flex with " ++ toString points ++ " points in" ++ glyphText glyph
  | .seacWithoutNames glyph => "seac in CID-keyed" ++ glyphText glyph
  | .invalidSeacCode code glyph =>
      CharstringError.invalidSeacCode.message ++ " " ++ code ++ " in" ++ glyphText glyph
  | .componentNotFound name glyph =>
      "seac component " ++ name ++ " not found for" ++ glyphText glyph
  | .componentsTooDeep glyph => "seac nesting too deep in" ++ glyphText glyph
  | .componentFailed name error => "seac component " ++ name ++ " failed: " ++ error.message

end Notice

end CompactFont
