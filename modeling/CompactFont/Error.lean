import CompactFont.Tag

set_option autoImplicit false

namespace CompactFont

inductive ReadError where
  | endOfData
  | badValue
  | badVersion
  | badOffset
  | badIndex
  | malformedIndex
  | limitExceeded
  | missingValue
  | missingTable (tag : Tag)
  | unsupportedContainer (tag : Tag)
  | wrongKind
  | notImplemented
deriving DecidableEq, Repr

def ReadError.message : ReadError → String
  | .endOfData => "end of data reached unexpectedly"
  | .badValue => "invalid value"
  | .badVersion => "unexpected data version"
  | .badOffset => "invalid data offset"
  | .badIndex => "invalid data index"
  | .malformedIndex => "malformed INDEX offsets"
  | .limitExceeded => "limit exceeded"
  | .missingValue => "an expected data value was missing"
  | .missingTable tag => "font is missing '" ++ tag.text ++ "' table"
  | .unsupportedContainer tag => "unsupported font container '" ++ tag.text ++ "'"
  | .wrongKind => "operation does not apply to this kind of font"
  | .notImplemented => "feature not implemented"

inductive CharstringError where
  | read (error : ReadError)
  | invalidOperator
  | nestingLimit
  | argumentLimit
  | missingArguments
  | invalidSubroutine
  | invalidSeacCode
deriving DecidableEq, Repr

def CharstringError.message : CharstringError → String
  | .read error => "parse error: " ++ error.message
  | .invalidOperator => "an invalid operator occurred"
  | .nestingLimit => "subroutines nesting limit reached"
  | .argumentLimit => "arguments stack limit reached"
  | .missingArguments => "an invalid amount of items are in an arguments stack"
  | .invalidSubroutine => "an invalid subroutine index"
  | .invalidSeacCode => "invalid seac code"

end CompactFont
