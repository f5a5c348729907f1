import CompactFont.Proofs.DictSpelling
import CompactFont.Proofs.Placement
import CompactFont.Proofs.StringIds

set_option autoImplicit false

namespace CompactFont

structure PrivatePlan where
  entries : Bytes
  subrs : List Bytes

structure FontDictPlan where
  entries : Bytes
  privateData : PrivatePlan

structure CidPlan where
  fontDicts : List FontDictPlan
  select : Bytes

structure Blueprint where
  name : String
  topEntries : Bytes
  strings : List Bytes
  globalSubrs : List Bytes
  charstrings : List Bytes
  charset? : Option Bytes
  encoding? : Option Bytes
  privateData : PrivatePlan
  cid? : Option CidPlan

def utf8 (text : String) : Bytes := text.toList.flatMap String.utf8EncodeChar

def offsetEntry (offset : Nat) (operator : Dict.Operator) : Bytes :=
  29 :: toBigEndian 4 offset ++ operator.bytes

def privateEntry (length offset : Nat) : Bytes :=
  29 :: toBigEndian 4 length ++ offsetEntry offset .privateDict

namespace PrivatePlan

def dict (plan : PrivatePlan) : Bytes :=
  if plan.subrs = [] then plan.entries
  else plan.entries ++ offsetEntry (plan.entries.length + 6) .subrs

def index (plan : PrivatePlan) : Bytes :=
  if plan.subrs = [] then [] else Index.write 4 plan.subrs

def bytes (plan : PrivatePlan) : Bytes := plan.dict ++ plan.index

end PrivatePlan

namespace FontDictPlan

def dict (plan : FontDictPlan) (length offset : Nat) : Bytes :=
  plan.entries ++ privateEntry length offset

def dictsFrom : Nat → List FontDictPlan → List Bytes
  | _, [] => []
  | offset, plan :: rest =>
      plan.dict plan.privateData.dict.length offset ::
        dictsFrom (offset + plan.privateData.bytes.length) rest

end FontDictPlan

namespace CidPlan

def arrayLength (plan : CidPlan) : Nat :=
  (Index.write 4 (plan.fontDicts.map fun fontDict => fontDict.dict 0 0)).length

def privateData (plan : CidPlan) : Bytes :=
  plan.fontDicts.flatMap fun fontDict => fontDict.privateData.bytes

def bytes (plan : CidPlan) (start : Nat) : Bytes :=
  Index.write 4 (FontDictPlan.dictsFrom (start + plan.arrayLength) plan.fontDicts) ++
    (plan.privateData ++ plan.select)

end CidPlan

structure Layout where
  charstrings : Nat
  charset : Nat
  encoding : Nat
  privateLength : Nat
  privateDict : Nat
  fdArray : Nat
  fdSelect : Nat

namespace Blueprint

variable (blueprint : Blueprint)

def allStrings : List Bytes :=
  match blueprint.cid? with
  | none => blueprint.strings
  | some _ => utf8 "Adobe" :: utf8 "Identity" :: blueprint.strings

def collectionEntry : Bytes :=
  Integer.short 391 ++ Integer.short 392 ++ Integer.short 0 ++ Dict.Operator.ros.bytes

def topDict (layout : Layout) : Bytes :=
  (if blueprint.cid?.isSome then collectionEntry else []) ++ (blueprint.topEntries ++
    ((if blueprint.charset?.isSome then offsetEntry layout.charset .charset else []) ++
      ((if blueprint.encoding?.isSome then offsetEntry layout.encoding .encoding else []) ++
        (offsetEntry layout.charstrings .charStrings ++
          if blueprint.cid?.isSome then
            offsetEntry layout.fdArray .fdArray ++ offsetEntry layout.fdSelect .fdSelect
          else privateEntry layout.privateLength layout.privateDict))))

def opening (layout : Layout) : Bytes :=
  [1, 0, 4, 4] ++ (Index.write 4 [utf8 blueprint.name] ++
    (Index.write 4 [blueprint.topDict layout] ++
      (Index.write 4 blueprint.allStrings ++ Index.write 4 blueprint.globalSubrs)))

def layout : Layout :=
  let charstrings := (blueprint.opening ⟨0, 0, 0, 0, 0, 0, 0⟩).length
  let charset := charstrings + (Index.write 4 blueprint.charstrings).length
  let encoding := charset + (blueprint.charset?.getD []).length
  let keying := encoding + (blueprint.encoding?.getD []).length
  { charstrings, charset, encoding
    privateLength := blueprint.privateData.dict.length
    privateDict := keying
    fdArray := keying
    fdSelect :=
      match blueprint.cid? with
      | none => 0
      | some plan => keying + plan.arrayLength + plan.privateData.length }

def keyingData : Bytes :=
  match blueprint.cid? with
  | none => blueprint.privateData.bytes
  | some plan => plan.bytes blueprint.layout.fdArray

def build : Bytes :=
  blueprint.opening blueprint.layout ++ (Index.write 4 blueprint.charstrings ++
    (blueprint.charset?.getD [] ++ (blueprint.encoding?.getD [] ++ blueprint.keyingData)))

end Blueprint

theorem latin1_utf8 {text : String} (ascii : ∀ char ∈ text.toList, char.toNat < 128) :
    latin1 (utf8 text) = text := by
  have each : ∀ chars : List Char, (∀ char ∈ chars, char.toNat < 128) →
      (chars.flatMap String.utf8EncodeChar).map (fun byte => Char.ofNat byte.toNat) = chars := by
    intro chars small
    induction chars with
    | nil => rfl
    | cons char rest ih =>
        have low := small char (List.mem_cons_self ..)
        have byte : (UInt8.ofNat char.toNat).toNat = char.toNat :=
          UInt8.toNat_ofNat_of_lt' (Nat.lt_trans low (by decide))
        rw [List.flatMap_cons, utf8_encode_char_ascii low, List.singleton_append, List.map_cons,
          byte, Char.ofNat_toNat, ih fun other member => small other (List.mem_cons_of_mem _ member)]
  rw [latin1, utf8, each _ ascii, String.ofList_toList]

section Lengths

theorem length_offset_entry (offset other : Nat) (operator : Dict.Operator) :
    (offsetEntry offset operator).length = (offsetEntry other operator).length := by
  simp [offsetEntry, length_to_big_endian]

theorem length_private_entry (length other offset another : Nat) :
    (privateEntry length offset).length = (privateEntry other another).length := by
  simp [privateEntry, length_to_big_endian, length_offset_entry offset another]

theorem Index.length_write_congr {width : Nat} {objects others : List Bytes}
    (same : objects.map List.length = others.map List.length) :
    (Index.write width objects).length = (Index.write width others).length := by
  have count : objects.length = others.length := by simpa using congrArg List.length same
  have empty : objects = [] ↔ others = [] := by
    rw [← List.length_eq_zero_iff, count, List.length_eq_zero_iff]
  rw [Index.write, Index.write]
  by_cases none : objects = []
  · rw [if_pos none, if_pos (empty.mp none)]
  · rw [if_neg none, if_neg (mt empty.mpr none)]
    simp [length_to_big_endian, length_offsets_from, count, List.length_flatten, same]

theorem FontDictPlan.length_dicts_from (offset : Nat) (plans : List FontDictPlan) :
    (dictsFrom offset plans).map List.length =
      (plans.map fun plan => plan.dict 0 0).map List.length := by
  induction plans generalizing offset with
  | nil => rfl
  | cons plan rest ih =>
      rw [dictsFrom, List.map_cons, ih, List.map_cons, List.map_cons]
      simp [dict, length_private_entry _ 0 offset 0]

theorem FontDictPlan.count_dicts_from (offset : Nat) (plans : List FontDictPlan) :
    (dictsFrom offset plans).length = plans.length := by
  simpa using congrArg List.length (length_dicts_from offset plans)

end Lengths

namespace Blueprint

variable {blueprint : Blueprint}

theorem length_top_dict (layout other : Layout) :
    (blueprint.topDict layout).length = (blueprint.topDict other).length := by
  unfold topDict
  simp only [List.length_append]
  split <;> split <;> split <;>
    simp [length_offset_entry _ 0, length_private_entry _ 0 _ 0]

theorem length_opening (layout other : Layout) :
    (blueprint.opening layout).length = (blueprint.opening other).length := by
  have top : (Index.write 4 [blueprint.topDict layout]).length =
      (Index.write 4 [blueprint.topDict other]).length :=
    Index.length_write_congr (by simp [length_top_dict layout other])
  simp [opening, top]

def program (blueprint : Blueprint) : Window := .whole blueprint.build

theorem data_program : blueprint.program.data =
    blueprint.opening blueprint.layout ++ (Index.write 4 blueprint.charstrings ++
      (blueprint.charset?.getD [] ++ (blueprint.encoding?.getD [] ++ blueprint.keyingData))) := rfl

variable (blueprint)

theorem holds_charstrings_on : blueprint.program.Holds blueprint.layout.charstrings
    (Index.write 4 blueprint.charstrings ++
      (blueprint.charset?.getD [] ++ (blueprint.encoding?.getD [] ++ blueprint.keyingData))) :=
  ⟨_, [], by rw [List.append_nil, data_program], length_opening _ _⟩

theorem holds_charstrings : blueprint.program.Holds blueprint.layout.charstrings
    (Index.write 4 blueprint.charstrings) := (holds_charstrings_on blueprint).left

theorem holds_charset : blueprint.program.Holds blueprint.layout.charset
    (blueprint.charset?.getD []) := (holds_charstrings_on blueprint).right.left

theorem holds_keying_data : blueprint.program.Holds blueprint.layout.fdArray blueprint.keyingData :=
  (holds_charstrings_on blueprint).right.right.right

end Blueprint

namespace CidPlan

variable {plan : CidPlan} {program : Window} {start : Nat}

theorem length_array (offset : Nat) :
    (Index.write 4 (FontDictPlan.dictsFrom offset plan.fontDicts)).length = plan.arrayLength :=
  Index.length_write_congr (FontDictPlan.length_dicts_from offset plan.fontDicts)

theorem holds_private_data (held : program.Holds start (plan.bytes start)) :
    program.Holds (start + plan.arrayLength) plan.privateData := by
  have later := held.right.left
  rwa [length_array] at later

theorem holds_select (held : program.Holds start (plan.bytes start)) :
    program.Holds (start + plan.arrayLength + plan.privateData.length) plan.select := by
  have later := held.right.right
  rwa [length_array] at later

end CidPlan

end CompactFont
