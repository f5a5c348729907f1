import CompactFont.Font.Load
import CompactFont.Proofs.IndexLayout
import CompactFont.Proofs.Outcome

set_option autoImplicit false

namespace CompactFont

namespace FontDicts

variable (program : Window)

def entry (object : Bytes) : Attempt ReadError (Dict .font × PrivateData) := do
  let dict ← Dict.ofBytes object
  let privateData ← PrivateData.read program dict
  pure (dict, privateData)

def append (fontDicts : FontDicts) (entries : List (Dict .font × PrivateData)) : FontDicts where
  dicts := fontDicts.dicts ++ (entries.map fun entry => entry.1).toArray
  privateDicts := fontDicts.privateDicts ++ (entries.map fun entry => entry.2.dict).toArray
  subrs := fontDicts.subrs ++ (entries.map fun entry => entry.2.subrs?).toArray

def ofEntries (entries : List (Dict .font × PrivateData)) : FontDicts := empty.append entries

theorem append_nil (fontDicts : FontDicts) : fontDicts.append [] = fontDicts := by
  simp [append]

theorem add_eq (fontDicts : FontDicts) (object : Bytes) :
    add program fontDicts object = (fun added => fontDicts.append [added]) <$> entry program object := by
  simp [add, entry, append]

theorem append_cons (fontDicts : FontDicts) (first : Dict .font × PrivateData) :
    (fontDicts.append [first]).append = fun rest => fontDicts.append (first :: rest) := by
  funext rest
  simp [append]

theorem foldl_m_add_eq (objects : List Bytes) (fontDicts : FontDicts) :
    objects.foldlM (add program) fontDicts = fontDicts.append <$> objects.mapM (entry program) := by
  induction objects generalizing fontDicts with
  | nil => simp [append_nil]
  | cons object rest ih =>
      rw [List.foldlM_cons, List.mapM_cons, add_eq]
      simp [ih, append_cons]

theorem read_eq (objects : List Bytes) :
    read program objects = ofEntries <$> objects.mapM (entry program) :=
  foldl_m_add_eq program objects empty

variable {entries : List (Dict .font × PrivateData)}

theorem dicts_of_entries : (ofEntries entries).dicts.toList = entries.map fun entry => entry.1 := by
  simp [ofEntries, append, empty]

theorem private_dicts_of_entries :
    (ofEntries entries).privateDicts.toList = entries.map fun entry => entry.2.dict := by
  simp [ofEntries, append, empty]

theorem subrs_of_entries :
    (ofEntries entries).subrs.toList = entries.map fun entry => entry.2.subrs? := by
  simp [ofEntries, append, empty]

end FontDicts

theorem Dict.natural_ok {value : Int} {number : Nat} (natural : Dict.natural value = .ok number) :
    value = number := by
  unfold Dict.natural at natural
  split at natural
  · obtain rfl := Except.ok.inj natural
    omega
  · cases natural

theorem Window.read_at_ok {α : Type} {program : Window} {offset : Int} {reader : Reader α} {value : α}
    (read : program.readAt offset reader = .ok value) :
    ∃ start : Nat, offset = start ∧
      ∃ rest, reader (program.data.drop start) = .ok (value, rest) := by
  obtain ⟨start, located, found⟩ := Attempt.except_bind_ok read
  obtain ⟨result, done, rfl⟩ := Attempt.except_map_ok found
  exact ⟨start, Dict.natural_ok located, result.2, done⟩

def Index.LocatedBy (index : Index) (program : Window) (top : Dict .top) (operator : Dict.Operator) :
    Prop :=
  ∃ start : Nat, top.requiredInteger operator = .ok (start : Int) ∧
    index.StoredIn (program.data.drop start)

theorem Index.LocatedBy.whole {index : Index} {program : Window} {top : Dict .top}
    {operator : Dict.Operator} (located : index.LocatedBy program top operator) : index.Whole := by
  obtain ⟨start, -, stored⟩ := located
  exact stored.holds.whole

theorem Index.located_by_of_read_at {program : Window} {top : Dict .top} {operator : Dict.Operator}
    {offset : Int} {index : Index} (located : top.requiredInteger operator = .ok offset)
    (read : program.readAt offset Index.read = .ok index) : index.LocatedBy program top operator := by
  obtain ⟨start, rfl, rest, found⟩ := Window.read_at_ok read
  exact ⟨start, located, Index.stored_in_of_read found⟩

theorem Window.part_ok {program window : Window} {offset length : Nat}
    (part : program.part offset length = .ok window) :
    window.data = (program.data.drop offset).take length ∧
      (length = 0 ∨ offset + length ≤ program.data.length) := by
  by_cases enough : length = 0 ∨ offset + length ≤ program.data.length
  · rw [Window.part_of_le enough] at part
    exact ⟨(Except.ok.inj part) ▸ rfl, enough⟩
  · obtain ⟨error, failed⟩ := Window.part_of_lt (by omega)
      (show program.data.length < offset + length by omega)
    rw [failed] at part
    cases part

namespace Dict

variable {kind : Kind} {dict : Dict kind}

def Says (dict : Dict kind) (operator : Operator) (value : Int) : Prop :=
  dict.get? operator = some [.integer value] ∨ dict.get? operator = some [.offset value]

theorem says_of_integer {operator : Operator} {value : Int}
    (number : dict.integer? operator = .ok (some value)) : dict.Says operator value := by
  unfold integer? at number
  split at number
  · cases number
  · rename_i given
    exact .inl (Option.some.inj (Except.ok.inj number) ▸ given)
  · rename_i given
    exact .inr (Option.some.inj (Except.ok.inj number) ▸ given)
  · cases number

theorem absent_of_integer {operator : Operator} (none : dict.integer? operator = .ok .none) :
    dict.get? operator = .none := by
  unfold integer? at none
  split at none
  · assumption
  all_goals cases none

-- The bytes that the operands of `Private` tell are all there, and are this DICT.
def HasPrivate (dict : Dict kind) (program : Window) (privateDict : Dict .privateData)
    (start : Nat) : Prop :=
  ∃ length : Nat, dict.get? .privateDict = some [.offset length, .offset start] ∧
    (length = 0 ∨ start + length ≤ program.data.length) ∧
      (Dict.ofBytes ((program.data.drop start).take length)).outcome = .ok privateDict

theorem has_private_of_read {program : Window} {privateDict : Dict .privateData} {start : Nat}
    (read : (dict.readPrivate program).outcome = .ok (privateDict, start)) :
    dict.HasPrivate program privateDict start := by
  obtain ⟨⟨offset, length⟩, range, read⟩ := Attempt.bind_ok read
  obtain ⟨window, part, read⟩ := Attempt.bind_ok read
  obtain ⟨parsed, ofBytes, done⟩ := Attempt.bind_ok read
  obtain ⟨rfl, rfl⟩ := Prod.mk.inj (Except.ok.inj done)
  obtain ⟨data, enough⟩ := Window.part_ok part
  rw [data] at ofBytes
  unfold privateRange at range
  split at range
  · cases range
  · rename_i lengthValue offsetValue given
    obtain ⟨_, place, range⟩ := Attempt.except_bind_ok range
    obtain ⟨_, extent, same⟩ := Attempt.except_bind_ok range
    obtain ⟨rfl, rfl⟩ := Prod.mk.inj (Except.ok.inj same)
    rw [natural_ok place, natural_ok extent] at given
    exact ⟨_, given, enough, ofBytes⟩
  · cases range

end Dict

-- The local subroutines of a Private DICT: the INDEX as far behind its beginning as it says. A distance
-- that does not lead on stands for none.
inductive LocalSubrs (program : Window) (privateDict : Dict .privateData) (start : Nat) :
    Option Index → Prop
  | absent (absent : privateDict.get? .subrs = none) : LocalSubrs program privateDict start none
  | unplaced {distance : Int} (told : privateDict.Says .subrs distance) (back : distance ≤ 0) :
      LocalSubrs program privateDict start none
  | stored {distance : Nat} {index : Index} (told : privateDict.Says .subrs distance)
      (ahead : 0 < distance) (stored : index.StoredIn (program.data.drop (start + distance))) :
      LocalSubrs program privateDict start (some index)

theorem LocalSubrs.of_read {program : Window} {privateDict : Dict .privateData} {start : Nat}
    {subrs? : Option Index} (read : PrivateData.readSubrs program privateDict start = .ok subrs?) :
    LocalSubrs program privateDict start subrs? := by
  obtain ⟨distance?, number, read⟩ := Attempt.except_bind_ok read
  cases distance? with
  | none =>
      obtain rfl := Except.ok.inj read
      exact .absent (Dict.absent_of_integer number)
  | some distance =>
      have told := Dict.says_of_integer number
      by_cases ahead : 0 < distance
      · simp only [if_pos ahead] at read
        obtain ⟨index, located, rfl⟩ := Attempt.except_map_ok read
        obtain ⟨place, same, rest, found⟩ := Window.read_at_ok located
        obtain ⟨steps, rfl⟩ := Int.eq_ofNat_of_zero_le (Int.le_of_lt ahead)
        obtain rfl : place = start + steps := by omega
        exact .stored told (by omega) (Index.stored_in_of_read found)
      · simp only [if_neg ahead] at read
        obtain rfl := Except.ok.inj read
        exact .unplaced told (Int.not_lt.mp ahead)

structure StemsFrom (program : Window) (object : Bytes) (dict : Dict .font)
    (privateDict : Dict .privateData) (subrs? : Option Index) : Prop where
  fontDict : (Dict.ofBytes object).outcome = .ok dict
  privateData : ∃ start, Dict.HasPrivate dict program privateDict start ∧
    LocalSubrs program privateDict start subrs?

theorem StemsFrom.of_entry {program : Window} {object : Bytes} {added : Dict .font × PrivateData}
    (made : (FontDicts.entry program object).outcome = .ok added) :
    StemsFrom program object added.1 added.2.dict added.2.subrs? := by
  obtain ⟨dict, parsed, made⟩ := Attempt.bind_ok made
  obtain ⟨privateData, found, same⟩ := Attempt.bind_ok made
  obtain rfl := Except.ok.inj same
  obtain ⟨⟨privateDict, start⟩, first, more⟩ := Attempt.bind_ok found
  obtain ⟨subrs?, second, last⟩ := Attempt.bind_ok more
  obtain rfl := Except.ok.inj last
  exact ⟨parsed, start, Dict.has_private_of_read first, LocalSubrs.of_read second⟩

namespace FontDicts

structure Complete (fontDicts : FontDicts) (program : Window) (index : Index) : Prop where
  dicts : fontDicts.dicts.size = index.count
  privateDicts : fontDicts.privateDicts.size = index.count
  subrs : fontDicts.subrs.size = index.count
  stems : ∀ place < index.count, ∃ object dict privateDict subrs?,
    index.get? place = some object ∧ fontDicts.dicts[place]? = some dict ∧
      fontDicts.privateDicts[place]? = some privateDict ∧ fontDicts.subrs[place]? = some subrs? ∧
        StemsFrom program object dict privateDict subrs?

theorem complete_of_read {program : Window} {index : Index} (whole : index.Whole)
    {fontDicts : FontDicts} (read : (FontDicts.read program index.toList).outcome = .ok fontDicts) :
    fontDicts.Complete program index := by
  rw [read_eq, Attempt.outcome_map] at read
  obtain ⟨entries, made, rfl⟩ := Attempt.except_map_ok read
  obtain ⟨length, places⟩ := Attempt.map_m_ok made
  have count : entries.length = index.count := length.trans whole.count.symm
  refine
    { dicts := by rw [← Array.length_toList, dicts_of_entries, List.length_map, count]
      privateDicts := by rw [← Array.length_toList, private_dicts_of_entries, List.length_map, count]
      subrs := by rw [← Array.length_toList, subrs_of_entries, List.length_map, count]
      stems := fun place inside => ?_ }
  have added := List.getElem?_eq_getElem (count ▸ inside)
  obtain ⟨object, listed, stems⟩ := places place _ added
  refine ⟨object, _, _, _, (whole.get place).trans listed, ?_, ?_, ?_, StemsFrom.of_entry stems⟩
  · rw [← Array.getElem?_toList, dicts_of_entries, List.getElem?_map, added, Option.map_some]
  · rw [← Array.getElem?_toList, private_dicts_of_entries, List.getElem?_map, added, Option.map_some]
  · rw [← Array.getElem?_toList, subrs_of_entries, List.getElem?_map, added, Option.map_some]

end FontDicts

end CompactFont
