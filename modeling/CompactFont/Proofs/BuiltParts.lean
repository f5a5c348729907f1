import CompactFont.Proofs.Blueprint
import CompactFont.Proofs.FontDictLists

set_option autoImplicit false

namespace CompactFont

namespace Dict

theorem spells_offset {offset : Nat} (small : offset < 2147483648) {operator : Operator}
    (located : operator.meaning [.integer offset] = [.offset offset]) :
    Spells (offsetEntry offset operator) [⟨operator, [.offset offset]⟩] := by
  rw [← located]
  exact spells_known [.place offset small] (by simp) operator

theorem spells_private {length offset : Nat} (short : length < 2147483648)
    (small : offset < 2147483648) :
    Spells (privateEntry length offset) [⟨.privateDict, [.offset length, .offset offset]⟩] := by
  have located : Operator.privateDict.meaning [.integer length, .integer offset] =
    [.offset length, .offset offset] := rfl
  have known := spells_known [.place length short, .place offset small] (by simp) .privateDict
  rw [← located]
  simpa [privateEntry, offsetEntry, WrittenOperand.place] using known

theorem spells_collection :
    Spells Blueprint.collectionEntry [⟨.ros, [.integer 391, .integer 392, .integer 0]⟩] :=
  spells_known [⟨_, _, .short (by decide : -1131 ≤ (391 : Int)) (by decide)⟩,
    ⟨_, _, .short (by decide : -1131 ≤ (392 : Int)) (by decide)⟩,
    ⟨_, _, .short (by decide : -1131 ≤ (0 : Int)) (by decide)⟩] (by decide) .ros

end Dict

namespace PrivatePlan

variable {plan : PrivatePlan} {program : Window} {start : Nat}

def located (plan : PrivatePlan) : Dict .privateData :=
  ⟨if plan.subrs = [] then [] else [⟨.subrs, [.offset 6]⟩]⟩

inductive Stored (plan : PrivatePlan) : Option Index → Prop
  | none (missing : plan.subrs = []) : Stored plan none
  | some {index : Index} (given : plan.subrs ≠ []) (stores : index.Stores plan.subrs) :
      Stored plan (some index)

structure Plain (plan : PrivatePlan) : Prop where
  entries : plan.entries = []
  few : plan.subrs.length ≤ 65535

theorem dict_of_subrs (plain : plan.Plain) (some : plan.subrs ≠ []) :
    plan.dict = offsetEntry 6 .subrs := by
  rw [dict, if_neg some, plain.entries, List.nil_append]
  rfl

theorem read_of_no_subrs (plain : plan.Plain) (none : plan.subrs = []) :
    (Dict.ofBytes plan.dict : Attempt ReadError (Dict .privateData)).outcome = .ok plan.located ∧
      PrivateData.readSubrs program plan.located start = .ok .none := by
  rw [dict, located, if_pos none, if_pos none, plain.entries]
  exact ⟨Dict.outcome_of_bytes_of_spells Dict.spells_nil, rfl⟩

theorem read_of_subrs (plain : plan.Plain) (some : plan.subrs ≠ [])
    (held : program.Holds (start + 6) (Index.write 4 plan.subrs))
    (small : program.data.length < 2147483648) :
    (Dict.ofBytes plan.dict : Attempt ReadError (Dict .privateData)).outcome = .ok plan.located ∧
      PrivateData.readSubrs program plan.located start = .ok (Option.some (.ofObjects 4 plan.subrs)) := by
  rw [located, if_neg some, dict_of_subrs plain some]
  exact ⟨Dict.outcome_of_bytes_of_spells (Dict.spells_offset (by decide) rfl),
    congrArg (Except.map Option.some) (held.read_index plain.few small)⟩

theorem outcome_read (plain : plan.Plain) (held : program.Holds start plan.bytes)
    (small : program.data.length < 2147483648) {kind : Dict.Kind} {dict : Dict kind}
    (located : dict.get? .privateDict = some [.offset plan.dict.length, .offset start]) :
    ∃ subrs?, (PrivateData.read program dict).outcome = .ok ⟨plan.located, subrs?⟩ ∧
      plan.Stored subrs? := by
  have range : dict.privateRange = .ok (start, plan.dict.length) := by
    simp [Dict.privateRange, located, Dict.natural, bind, Except.bind, pure, Except.pure]
  have part := held.left.part
  obtain ⟨subrs?, parsed, found, stored⟩ : ∃ subrs?,
      (Dict.ofBytes plan.dict).outcome = .ok plan.located ∧
        PrivateData.readSubrs program plan.located start = .ok subrs? ∧ plan.Stored subrs? := by
    by_cases none : plan.subrs = []
    · obtain ⟨parsed, found⟩ := read_of_no_subrs plain none
      exact ⟨.none, parsed, found, .none none⟩
    · have after : program.Holds (start + 6) (Index.write 4 plan.subrs) := by
        have later := held.right
        rwa [dict_of_subrs plain none, index, if_neg none] at later
      obtain ⟨parsed, found⟩ := read_of_subrs plain none after small
      exact ⟨_, parsed, found, .some none (after.stores plain.few small)⟩
  refine ⟨subrs?, ?_, stored⟩
  have parsedAt : (dict.readPrivate program).outcome = .ok (plan.located, start) :=
    (Attempt.outcome_bind_lift range).trans <|
      (Attempt.outcome_bind_lift part).trans (Attempt.outcome_bind_of_ok parsed)
  exact (Attempt.outcome_bind_of_ok parsedAt).trans (Attempt.outcome_bind_lift found)

end PrivatePlan

namespace FontDictPlan

variable {plan : FontDictPlan} {program : Window} {start : Nat}

structure Plain (plan : FontDictPlan) : Prop where
  entries : plan.entries = []
  privateData : plan.privateData.Plain

def Located (plan : FontDictPlan) (dict : Dict .font) : Prop :=
  ∃ start : Nat,
    dict = ⟨[⟨.privateDict, [.offset plan.privateData.dict.length, .offset start]⟩]⟩

structure Reading (plan : FontDictPlan) (entry : Dict .font × PrivateData) : Prop where
  dict : plan.Located entry.1
  privateDict : entry.2.dict = plan.privateData.located
  subrs : plan.privateData.Stored entry.2.subrs?

theorem outcome_entry (plain : plan.Plain) (held : program.Holds start plan.privateData.bytes)
    (small : program.data.length < 2147483648) :
    ∃ entry, (FontDicts.entry program (plan.dict plan.privateData.dict.length start)).outcome =
      .ok entry ∧ plan.Reading entry := by
  have within := held.left.le
  let dict : Dict .font :=
    ⟨[⟨.privateDict, [.offset plan.privateData.dict.length, .offset start]⟩]⟩
  have spells : Dict.Spells (plan.dict plan.privateData.dict.length start) dict.entries := by
    rw [FontDictPlan.dict, plain.entries, List.nil_append]
    exact Dict.spells_private (by omega) (by omega)
  have located : dict.get? .privateDict =
    some [.offset plan.privateData.dict.length, .offset start] := rfl
  obtain ⟨subrs?, read, stored⟩ := PrivatePlan.outcome_read plain.privateData held small located
  refine ⟨(dict, ⟨plan.privateData.located, subrs?⟩), ?_, ⟨start, rfl⟩, rfl, stored⟩
  exact (Attempt.outcome_bind_of_ok (Dict.outcome_of_bytes_of_spells spells)).trans
    (Attempt.outcome_bind_of_ok read)

theorem outcome_map_m {plans : List FontDictPlan} (plain : ∀ plan ∈ plans, plan.Plain)
    (held : program.Holds start (plans.flatMap fun plan => plan.privateData.bytes))
    (small : program.data.length < 2147483648) :
    ∃ entries, ((dictsFrom start plans).mapM (FontDicts.entry program)).outcome = .ok entries ∧
      List.Forall₂ Reading plans entries := by
  induction plans generalizing start with
  | nil => exact ⟨[], rfl, .nil⟩
  | cons plan rest ih =>
      rw [List.flatMap_cons] at held
      have plainFirst := plain plan (List.mem_cons_self ..)
      have plainRest := fun other member => plain other (List.mem_cons_of_mem _ member)
      obtain ⟨first, readFirst, reading⟩ := outcome_entry plainFirst held.left small
      obtain ⟨later, readLater, readings⟩ := ih plainRest held.right
      refine ⟨first :: later, ?_, .cons reading readings⟩
      rw [dictsFrom, List.mapM_cons]
      exact (Attempt.outcome_bind_of_ok readFirst).trans (Attempt.outcome_bind_of_ok readLater)

end FontDictPlan

namespace CidPlan

variable {plan : CidPlan} {program : Window} {start glyphs : Nat}

structure Plain (plan : CidPlan) (glyphs : Nat) : Prop where
  nonempty : plan.fontDicts ≠ []
  few : plan.fontDicts.length ≤ 65535
  fontDicts : ∀ fontDict ∈ plan.fontDicts, fontDict.Plain
  select : ∃ places : Bytes, plan.select = 0 :: places ∧ places.length = glyphs

structure Reading (plan : CidPlan) (data : CidData) : Prop where
  dicts : List.Forall₂ FontDictPlan.Located plan.fontDicts data.fontDicts.dicts.toList
  privateDicts : data.fontDicts.privateDicts.toList =
    plan.fontDicts.map fun fontDict => fontDict.privateData.located
  subrs : List.Forall₂ (fun fontDict => fontDict.privateData.Stored) plan.fontDicts
    data.fontDicts.subrs.toList
  select : data.select = .perGlyph (plan.select.tail.map UInt8.toNat).toArray

theorem Reading.no_matrix {data : CidData} (reading : plan.Reading data) {first : Dict .font}
    (found : data.fontDicts.dicts[0]? = some first) : first.find? .fontMatrix = none := by
  have dicts := reading.dicts
  rw [← Array.getElem?_toList] at found
  cases shape : data.fontDicts.dicts.toList with
  | nil =>
      rw [shape] at found
      cases found
  | cons dict others =>
      rw [shape] at found dicts
      obtain rfl := Option.some.inj found
      obtain ⟨_, _, ⟨start, rfl⟩, -, -⟩ := List.forall₂_cons_right_iff.mp dicts
      rfl

theorem reading_of_entries {entries : List (Dict .font × PrivateData)} {collection : Nat × Nat × Int}
    {index : Index} {places : Bytes} (shape : plan.select = 0 :: places)
    (readings : List.Forall₂ FontDictPlan.Reading plan.fontDicts entries) :
    plan.Reading ⟨collection.1, collection.2.1, collection.2.2, index, .ofEntries entries,
      .perGlyph (places.map UInt8.toNat).toArray⟩ where
  dicts := by
    rw [FontDicts.dicts_of_entries]
    exact List.forall₂_map_right_iff.mpr (readings.imp fun _ _ reading => reading.dict)
  privateDicts := by
    rw [FontDicts.private_dicts_of_entries]
    generalize plan.fontDicts = plans at readings
    induction readings with
    | nil => rfl
    | cons reading _ ih => rw [List.map_cons, List.map_cons, reading.privateDict, ih]
  subrs := by
    rw [FontDicts.subrs_of_entries]
    exact List.forall₂_map_right_iff.mpr (readings.imp fun _ _ reading => reading.subrs)
  select := by
    rw [shape]
    rfl

theorem reads_select (places : Bytes) (few : places.length ≤ Field.maxArraySize) :
    Reader.Reads (FontDictSelect.read places.length) (0 :: places)
      (.perGlyph (places.map UInt8.toNat).toArray) :=
  Reader.reads_bind (Field.reads_u8 0)
    (Reader.reads_map (fun stored : List Nat => FontDictSelect.perGlyph stored.toArray)
      (Field.reads_u8_array places few))

theorem outcome_read_collection {top : Dict .top}
    (ros : top.find? .ros = some [.integer 391, .integer 392, .integer 0]) :
    ∃ collection, (CidData.readCollection top).outcome = .ok collection := by
  refine ⟨(391, 392, clampedInteger (Float.ofInt 0)), ?_⟩
  simp only [CidData.readCollection, ros]
  rfl

theorem outcome_of_parts {top : Dict .top} {collection : Nat × Nat × Int}
    {arrayOffset selectOffset : Int} {index : Index} {select : FontDictSelect}
    {entries : List (Dict .font × PrivateData)}
    (collected : (CidData.readCollection top).outcome = .ok collection)
    (array : top.requiredInteger .fdArray = .ok arrayOffset)
    (indexed : program.readAt arrayOffset Index.read = .ok index) (nonempty : index.isEmpty = false)
    (located : top.requiredInteger .fdSelect = .ok selectOffset)
    (selected : program.readAt selectOffset (FontDictSelect.read glyphs) = .ok select)
    (read : (index.toList.mapM (FontDicts.entry program)).outcome = .ok entries) :
    (CidData.read program top glyphs).outcome =
      .ok ⟨collection.1, collection.2.1, collection.2.2, index, .ofEntries entries, select⟩ := by
  have lists : (FontDicts.read program index.toList).outcome = .ok (.ofEntries entries) := by
    rw [FontDicts.read_eq, Attempt.outcome_map, read]
    rfl
  refine (Attempt.outcome_bind_of_ok collected).trans ?_
  refine (Attempt.outcome_bind_lift array).trans ?_
  refine (Attempt.outcome_bind_lift indexed).trans ?_
  rw [nonempty]
  refine (Attempt.outcome_bind_lift located).trans ?_
  refine (Attempt.outcome_bind_lift selected).trans ?_
  exact Attempt.outcome_bind_of_ok lists

theorem outcome_read (plain : plan.Plain glyphs) (held : program.Holds start (plan.bytes start))
    (small : program.data.length < 2147483648) {top : Dict .top}
    (ros : top.find? .ros = some [.integer 391, .integer 392, .integer 0])
    (array : top.requiredInteger .fdArray = .ok start)
    (select : top.requiredInteger .fdSelect =
      .ok ((start + plan.arrayLength + plan.privateData.length : Nat) : Int)) :
    ∃ data, (CidData.read program top glyphs).outcome = .ok data ∧ plan.Reading data := by
  obtain ⟨collection, collected⟩ := outcome_read_collection ros
  obtain ⟨places, shape, length⟩ := plain.select
  have count := FontDictPlan.count_dicts_from (start + plan.arrayLength) plan.fontDicts
  have index := held.left.read_index (count ▸ plain.few) small
  have stores := held.left.stores (count ▸ plain.few) small
  have nonempty : (Index.ofObjects 4
      (FontDictPlan.dictsFrom (start + plan.arrayLength) plan.fontDicts)).isEmpty = false := by
    rw [Index.is_empty_of_objects, List.isEmpty_eq_false_iff, ← List.length_pos_iff, count,
      List.length_pos_iff]
    exact plain.nonempty
  have last := holds_select held
  rw [shape] at last
  have within := last.le
  rw [List.length_cons] at within
  have few : places.length ≤ Field.maxArraySize := by
    rw [Field.maxArraySize]
    omega
  have selected := last.read_at (reads_select places few)
  rw [length] at selected
  obtain ⟨entries, read, readings⟩ :=
    FontDictPlan.outcome_map_m plain.fontDicts (holds_private_data held) small
  rw [← stores.holds.toList] at read
  exact ⟨_, outcome_of_parts collected array index nonempty select selected read,
    reading_of_entries shape readings⟩

end CidPlan

section Charsets

def idList (ids : List Nat) : Bytes := 0 :: ids.flatMap (toBigEndian 2)

theorem CustomCharset.reads_ids {ids : List Nat} (small : ∀ id ∈ ids, id ≤ maxId)
    (fits : ids.length * 2 ≤ Field.maxArraySize) :
    Reader.Reads (CustomCharset.read (ids.length + 1)) (idList ids) (.ids ids.toArray) := by
  rw [CustomCharset.read, if_neg (Nat.succ_ne_zero _)]
  exact Reader.reads_bind (Field.reads_u8 0)
    (Reader.reads_map (fun stored : List Nat => CustomCharset.ids stored.toArray)
      (Field.reads_unsigned_array (fun id member => Nat.lt_succ_of_le (small id member)) fits))

theorem Charset.load_of_located {program : Window} {top : Dict .top} {glyphs offset : Nat}
    {stored : CustomCharset} (located : top.find? .charset = some [.offset offset])
    (large : 2 < offset) (read : program.readAt offset (CustomCharset.read glyphs) = .ok stored)
    (isCid : Bool) :
    Charset.load program top glyphs isCid = .ok (if isCid then .cid stored else .custom stored) := by
  simp only [Charset.load, located]
  cases isCid with
  | true => simp [read, Functor.map, Except.map]
  | false =>
      rw [if_neg Bool.false_ne_true]
      split
      · omega
      · omega
      · omega
      · simp [read, Functor.map, Except.map]

theorem Charset.load_of_absent {program : Window} {top : Dict .top}
    (absent : top.find? .charset = none) (glyphs : Nat) (isCid : Bool) :
    Charset.load program top glyphs isCid = .ok (if isCid then .identity glyphs else .isoAdobe) := by
  simp only [Charset.load, absent]

end Charsets

end CompactFont
