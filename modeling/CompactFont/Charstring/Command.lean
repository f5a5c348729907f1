import CompactFont.Charstring.Token

set_option autoImplicit false

namespace CompactFont

structure Command (O N : Type) where
  arguments : List N
  op : O
deriving DecidableEq, Repr

namespace Command

variable {O N : Type}

def tokens (command : Command O N) : List (Token O N) :=
  command.arguments.map .number ++ [.operator command.op]

def groupAfter : List N → List (Token O N) → List (Command O N)
  | _, [] => []
  | waiting, .number value :: rest => groupAfter (value :: waiting) rest
  | waiting, .operator op :: rest => ⟨waiting.reverse, op⟩ :: groupAfter [] rest
  | waiting, .mask _ :: rest => groupAfter waiting rest

def group (tokens : List (Token O N)) : List (Command O N) := groupAfter [] tokens

end Command

end CompactFont
