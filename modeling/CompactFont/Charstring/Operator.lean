set_option autoImplicit false

namespace CompactFont

inductive Key where
  | single (byte : UInt8)
  | escape (byte : UInt8)
deriving DecidableEq, Repr

def Key.text : Key → String
  | .single byte => toString byte.toNat
  | .escape byte => "12 " ++ toString byte.toNat

inductive Type1Op where
  | hstem
  | vstem
  | vmoveto
  | rlineto
  | hlineto
  | vlineto
  | rrcurveto
  | closepath
  | callsubr
  | subrReturn
  | hsbw
  | endchar
  | rmoveto
  | hmoveto
  | vhcurveto
  | hvcurveto
  | dotsection
  | vstem3
  | hstem3
  | seac
  | sbw
  | div
  | callothersubr
  | pop
  | setcurrentpoint
deriving DecidableEq, Repr

namespace Type1Op

def all : List Type1Op := [
  .hstem, .vstem, .vmoveto, .rlineto, .hlineto, .vlineto, .rrcurveto, .closepath, .callsubr,
  .subrReturn, .hsbw, .endchar, .rmoveto, .hmoveto, .vhcurveto, .hvcurveto, .dotsection,
  .vstem3, .hstem3, .seac, .sbw, .div, .callothersubr, .pop, .setcurrentpoint]

def key : Type1Op → Key
  | .hstem => .single 1
  | .vstem => .single 3
  | .vmoveto => .single 4
  | .rlineto => .single 5
  | .hlineto => .single 6
  | .vlineto => .single 7
  | .rrcurveto => .single 8
  | .closepath => .single 9
  | .callsubr => .single 10
  | .subrReturn => .single 11
  | .hsbw => .single 13
  | .endchar => .single 14
  | .rmoveto => .single 21
  | .hmoveto => .single 22
  | .vhcurveto => .single 30
  | .hvcurveto => .single 31
  | .dotsection => .escape 0
  | .vstem3 => .escape 1
  | .hstem3 => .escape 2
  | .seac => .escape 6
  | .sbw => .escape 7
  | .div => .escape 12
  | .callothersubr => .escape 16
  | .pop => .escape 17
  | .setcurrentpoint => .escape 33

def name : Type1Op → String
  | .hstem => "hstem"
  | .vstem => "vstem"
  | .vmoveto => "vmoveto"
  | .rlineto => "rlineto"
  | .hlineto => "hlineto"
  | .vlineto => "vlineto"
  | .rrcurveto => "rrcurveto"
  | .closepath => "closepath"
  | .callsubr => "callsubr"
  | .subrReturn => "return"
  | .hsbw => "hsbw"
  | .endchar => "endchar"
  | .rmoveto => "rmoveto"
  | .hmoveto => "hmoveto"
  | .vhcurveto => "vhcurveto"
  | .hvcurveto => "hvcurveto"
  | .dotsection => "dotsection"
  | .vstem3 => "vstem3"
  | .hstem3 => "hstem3"
  | .seac => "seac"
  | .sbw => "sbw"
  | .div => "div"
  | .callothersubr => "callothersubr"
  | .pop => "pop"
  | .setcurrentpoint => "setcurrentpoint"

def label : Type1Op → String
  | .hstem => "HStem"
  | .vstem => "VStem"
  | .vmoveto => "VMoveTo"
  | .rlineto => "RLineTo"
  | .hlineto => "HLineTo"
  | .vlineto => "VLineTo"
  | .rrcurveto => "RRCurveTo"
  | .closepath => "ClosePath"
  | .callsubr => "CallSubr"
  | .subrReturn => "Return"
  | .hsbw => "Hsbw"
  | .endchar => "EndChar"
  | .rmoveto => "RMoveTo"
  | .hmoveto => "HMoveTo"
  | .vhcurveto => "VHCurveTo"
  | .hvcurveto => "HVCurveTo"
  | .dotsection => "DotSection"
  | .vstem3 => "VStem3"
  | .hstem3 => "HStem3"
  | .seac => "Seac"
  | .sbw => "Sbw"
  | .div => "Div"
  | .callothersubr => "CallOtherSubr"
  | .pop => "Pop"
  | .setcurrentpoint => "SetCurrentPoint"

def ofKey? (key : Key) : Option Type1Op := all.find? fun op => op.key == key

theorem of_key_key (op : Type1Op) : ofKey? op.key = some op := by
  cases op <;> decide

theorem key_of_of_key {key : Key} {op : Type1Op} (found : ofKey? key = some op) : op.key = key := by
  simpa using List.find?_some found

end Type1Op

inductive Type2Op where
  | hstem
  | vstem
  | vmoveto
  | rlineto
  | hlineto
  | vlineto
  | rrcurveto
  | callsubr
  | subrReturn
  | endchar
  | hstemhm
  | hintmask
  | cntrmask
  | rmoveto
  | hmoveto
  | vstemhm
  | rcurveline
  | rlinecurve
  | vvcurveto
  | hhcurveto
  | callgsubr
  | vhcurveto
  | hvcurveto
  | dotsection
  | and
  | or
  | not
  | abs
  | add
  | sub
  | div
  | neg
  | eq
  | drop
  | put
  | get
  | ifelse
  | random
  | mul
  | sqrt
  | dup
  | exch
  | index
  | roll
  | hflex
  | flex
  | hflex1
  | flex1
deriving DecidableEq, Repr

namespace Type2Op

def all : List Type2Op := [
  .hstem, .vstem, .vmoveto, .rlineto, .hlineto, .vlineto, .rrcurveto, .callsubr, .subrReturn,
  .endchar, .hstemhm, .hintmask, .cntrmask, .rmoveto, .hmoveto, .vstemhm, .rcurveline,
  .rlinecurve, .vvcurveto, .hhcurveto, .callgsubr, .vhcurveto, .hvcurveto, .dotsection, .and,
  .or, .not, .abs, .add, .sub, .div, .neg, .eq, .drop, .put, .get, .ifelse, .random, .mul,
  .sqrt, .dup, .exch, .index, .roll, .hflex, .flex, .hflex1, .flex1]

def key : Type2Op → Key
  | .hstem => .single 1
  | .vstem => .single 3
  | .vmoveto => .single 4
  | .rlineto => .single 5
  | .hlineto => .single 6
  | .vlineto => .single 7
  | .rrcurveto => .single 8
  | .callsubr => .single 10
  | .subrReturn => .single 11
  | .endchar => .single 14
  | .hstemhm => .single 18
  | .hintmask => .single 19
  | .cntrmask => .single 20
  | .rmoveto => .single 21
  | .hmoveto => .single 22
  | .vstemhm => .single 23
  | .rcurveline => .single 24
  | .rlinecurve => .single 25
  | .vvcurveto => .single 26
  | .hhcurveto => .single 27
  | .callgsubr => .single 29
  | .vhcurveto => .single 30
  | .hvcurveto => .single 31
  | .dotsection => .escape 0
  | .and => .escape 3
  | .or => .escape 4
  | .not => .escape 5
  | .abs => .escape 9
  | .add => .escape 10
  | .sub => .escape 11
  | .div => .escape 12
  | .neg => .escape 14
  | .eq => .escape 15
  | .drop => .escape 18
  | .put => .escape 20
  | .get => .escape 21
  | .ifelse => .escape 22
  | .random => .escape 23
  | .mul => .escape 24
  | .sqrt => .escape 26
  | .dup => .escape 27
  | .exch => .escape 28
  | .index => .escape 29
  | .roll => .escape 30
  | .hflex => .escape 34
  | .flex => .escape 35
  | .hflex1 => .escape 36
  | .flex1 => .escape 37

def name : Type2Op → String
  | .hstem => "hstem"
  | .vstem => "vstem"
  | .vmoveto => "vmoveto"
  | .rlineto => "rlineto"
  | .hlineto => "hlineto"
  | .vlineto => "vlineto"
  | .rrcurveto => "rrcurveto"
  | .callsubr => "callsubr"
  | .subrReturn => "return"
  | .endchar => "endchar"
  | .hstemhm => "hstemhm"
  | .hintmask => "hintmask"
  | .cntrmask => "cntrmask"
  | .rmoveto => "rmoveto"
  | .hmoveto => "hmoveto"
  | .vstemhm => "vstemhm"
  | .rcurveline => "rcurveline"
  | .rlinecurve => "rlinecurve"
  | .vvcurveto => "vvcurveto"
  | .hhcurveto => "hhcurveto"
  | .callgsubr => "callgsubr"
  | .vhcurveto => "vhcurveto"
  | .hvcurveto => "hvcurveto"
  | .dotsection => "dotsection"
  | .and => "and"
  | .or => "or"
  | .not => "not"
  | .abs => "abs"
  | .add => "add"
  | .sub => "sub"
  | .div => "div"
  | .neg => "neg"
  | .eq => "eq"
  | .drop => "drop"
  | .put => "put"
  | .get => "get"
  | .ifelse => "ifelse"
  | .random => "random"
  | .mul => "mul"
  | .sqrt => "sqrt"
  | .dup => "dup"
  | .exch => "exch"
  | .index => "index"
  | .roll => "roll"
  | .hflex => "hflex"
  | .flex => "flex"
  | .hflex1 => "hflex1"
  | .flex1 => "flex1"

def label : Type2Op → String
  | .hstem => "HStem"
  | .vstem => "VStem"
  | .vmoveto => "VMoveTo"
  | .rlineto => "RLineTo"
  | .hlineto => "HLineTo"
  | .vlineto => "VLineTo"
  | .rrcurveto => "RRCurveTo"
  | .callsubr => "CallSubr"
  | .subrReturn => "Return"
  | .endchar => "EndChar"
  | .hstemhm => "HStemHm"
  | .hintmask => "HintMask"
  | .cntrmask => "CntrMask"
  | .rmoveto => "RMoveTo"
  | .hmoveto => "HMoveTo"
  | .vstemhm => "VStemHm"
  | .rcurveline => "RCurveLine"
  | .rlinecurve => "RLineCurve"
  | .vvcurveto => "VVCurveTo"
  | .hhcurveto => "HHCurveTo"
  | .callgsubr => "CallGSubr"
  | .vhcurveto => "VHCurveTo"
  | .hvcurveto => "HVCurveTo"
  | .dotsection => "DotSection"
  | .and => "And"
  | .or => "Or"
  | .not => "Not"
  | .abs => "Abs"
  | .add => "Add"
  | .sub => "Sub"
  | .div => "Div"
  | .neg => "Neg"
  | .eq => "Eq"
  | .drop => "Drop"
  | .put => "Put"
  | .get => "Get"
  | .ifelse => "IfElse"
  | .random => "Random"
  | .mul => "Mul"
  | .sqrt => "Sqrt"
  | .dup => "Dup"
  | .exch => "Exch"
  | .index => "Index"
  | .roll => "Roll"
  | .hflex => "HFlex"
  | .flex => "Flex"
  | .hflex1 => "HFlex1"
  | .flex1 => "Flex1"

def ofKey? (key : Key) : Option Type2Op := all.find? fun op => op.key == key

theorem mem_all (op : Type2Op) : op ∈ all := by
  cases op <;> decide

theorem of_key_key (op : Type2Op) : ofKey? op.key = some op := by
  cases op <;> decide

def declaresStems : Type2Op → Bool
  | .hstem | .vstem | .hstemhm | .vstemhm => true
  | _ => false

def takesMask : Type2Op → Bool
  | .hintmask | .cntrmask => true
  | _ => false

def startsSubpath : Type2Op → Bool
  | .rmoveto | .hmoveto | .vmoveto => true
  | _ => false

end Type2Op

end CompactFont
