set_option autoImplicit false

namespace CompactFont.Dict

inductive Operator where
  | version
  | notice
  | fullName
  | familyName
  | weight
  | fontBBox
  | blueValues
  | otherBlues
  | familyBlues
  | familyOtherBlues
  | stdHW
  | stdVW
  | uniqueId
  | xuid
  | charset
  | encoding
  | charStrings
  | privateDict
  | subrs
  | defaultWidthX
  | nominalWidthX
  | copyright
  | isFixedPitch
  | italicAngle
  | underlinePosition
  | underlineThickness
  | paintType
  | charstringType
  | fontMatrix
  | strokeWidth
  | blueScale
  | blueShift
  | blueFuzz
  | stemSnapH
  | stemSnapV
  | forceBold
  | languageGroup
  | expansionFactor
  | initialRandomSeed
  | syntheticBase
  | postScript
  | baseFontName
  | baseFontBlend
  | ros
  | cidFontVersion
  | cidFontRevision
  | cidFontType
  | cidCount
  | uidBase
  | fdArray
  | fdSelect
  | fontName
deriving DecidableEq, Repr

namespace Operator

def all : List Operator := [
  .version, .notice, .fullName, .familyName, .weight, .fontBBox, .blueValues, .otherBlues,
  .familyBlues, .familyOtherBlues, .stdHW, .stdVW, .uniqueId, .xuid, .charset, .encoding,
  .charStrings, .privateDict, .subrs, .defaultWidthX, .nominalWidthX, .copyright,
  .isFixedPitch, .italicAngle, .underlinePosition, .underlineThickness, .paintType,
  .charstringType, .fontMatrix, .strokeWidth, .blueScale, .blueShift, .blueFuzz, .stemSnapH,
  .stemSnapV, .forceBold, .languageGroup, .expansionFactor, .initialRandomSeed, .syntheticBase,
  .postScript, .baseFontName, .baseFontBlend, .ros, .cidFontVersion, .cidFontRevision,
  .cidFontType, .cidCount, .uidBase, .fdArray, .fdSelect, .fontName]

def code : Operator → Nat
  | .version => 0
  | .notice => 1
  | .fullName => 2
  | .familyName => 3
  | .weight => 4
  | .fontBBox => 5
  | .blueValues => 6
  | .otherBlues => 7
  | .familyBlues => 8
  | .familyOtherBlues => 9
  | .stdHW => 10
  | .stdVW => 11
  | .uniqueId => 13
  | .xuid => 14
  | .charset => 15
  | .encoding => 16
  | .charStrings => 17
  | .privateDict => 18
  | .subrs => 19
  | .defaultWidthX => 20
  | .nominalWidthX => 21
  | .copyright => 0x0c00
  | .isFixedPitch => 0x0c01
  | .italicAngle => 0x0c02
  | .underlinePosition => 0x0c03
  | .underlineThickness => 0x0c04
  | .paintType => 0x0c05
  | .charstringType => 0x0c06
  | .fontMatrix => 0x0c07
  | .strokeWidth => 0x0c08
  | .blueScale => 0x0c09
  | .blueShift => 0x0c0a
  | .blueFuzz => 0x0c0b
  | .stemSnapH => 0x0c0c
  | .stemSnapV => 0x0c0d
  | .forceBold => 0x0c0e
  | .languageGroup => 0x0c11
  | .expansionFactor => 0x0c12
  | .initialRandomSeed => 0x0c13
  | .syntheticBase => 0x0c14
  | .postScript => 0x0c15
  | .baseFontName => 0x0c16
  | .baseFontBlend => 0x0c17
  | .ros => 0x0c1e
  | .cidFontVersion => 0x0c1f
  | .cidFontRevision => 0x0c20
  | .cidFontType => 0x0c21
  | .cidCount => 0x0c22
  | .uidBase => 0x0c23
  | .fdArray => 0x0c24
  | .fdSelect => 0x0c25
  | .fontName => 0x0c26

def name : Operator → String
  | .version => "version"
  | .notice => "Notice"
  | .fullName => "FullName"
  | .familyName => "FamilyName"
  | .weight => "Weight"
  | .fontBBox => "FontBBox"
  | .blueValues => "BlueValues"
  | .otherBlues => "OtherBlues"
  | .familyBlues => "FamilyBlues"
  | .familyOtherBlues => "FamilyOtherBlues"
  | .stdHW => "StdHW"
  | .stdVW => "StdVW"
  | .uniqueId => "UniqueID"
  | .xuid => "XUID"
  | .charset => "charset"
  | .encoding => "Encoding"
  | .charStrings => "CharStrings"
  | .privateDict => "Private"
  | .subrs => "Subrs"
  | .defaultWidthX => "defaultWidthX"
  | .nominalWidthX => "nominalWidthX"
  | .copyright => "Copyright"
  | .isFixedPitch => "isFixedPitch"
  | .italicAngle => "ItalicAngle"
  | .underlinePosition => "UnderlinePosition"
  | .underlineThickness => "UnderlineThickness"
  | .paintType => "PaintType"
  | .charstringType => "CharstringType"
  | .fontMatrix => "FontMatrix"
  | .strokeWidth => "StrokeWidth"
  | .blueScale => "BlueScale"
  | .blueShift => "BlueShift"
  | .blueFuzz => "BlueFuzz"
  | .stemSnapH => "StemSnapH"
  | .stemSnapV => "StemSnapV"
  | .forceBold => "ForceBold"
  | .languageGroup => "LanguageGroup"
  | .expansionFactor => "ExpansionFactor"
  | .initialRandomSeed => "initialRandomSeed"
  | .syntheticBase => "SyntheticBase"
  | .postScript => "PostScript"
  | .baseFontName => "BaseFontName"
  | .baseFontBlend => "BaseFontBlend"
  | .ros => "ROS"
  | .cidFontVersion => "CIDFontVersion"
  | .cidFontRevision => "CIDFontRevision"
  | .cidFontType => "CIDFontType"
  | .cidCount => "CIDCount"
  | .uidBase => "UIDBase"
  | .fdArray => "FDArray"
  | .fdSelect => "FDSelect"
  | .fontName => "FontName"

def ofCode? (code : Nat) : Option Operator := all.find? fun operator => operator.code == code

theorem of_code_code (operator : Operator) : ofCode? operator.code = some operator := by
  cases operator <;> decide

end Operator

end CompactFont.Dict
