import CompactFont.Proofs.LoadedFont
import CompactFont.Proofs.Placement

set_option autoImplicit false

namespace CompactFont

section Relocation

variable {program other : Window}

theorem Window.part_of_data_eq (same : program.data = other.data) (offset length : Nat) :
    program.part offset length =
      (fun piece => ⟨program.base + offset, piece.data⟩) <$> other.part offset length := by
  simp only [Window.part, same]
  split
  · rfl
  · split <;> rfl

theorem Window.read_at_of_data_eq (same : program.data = other.data) {α : Type} (offset : Int)
    (reader : Reader α) : program.readAt offset reader = other.readAt offset reader := by
  simp only [Window.readAt, Window.read, Window.startingAt, same]

theorem Dict.read_private_of_data_eq {kind : Dict.Kind} (same : program.data = other.data)
    (dict : Dict kind) : dict.readPrivate program = dict.readPrivate other := by
  unfold Dict.readPrivate
  congr 1
  funext (offset, length)
  dsimp only
  rw [Window.part_of_data_eq same]
  cases other.part offset length <;> rfl

theorem PrivateData.read_of_data_eq {kind : Dict.Kind} (same : program.data = other.data)
    (dict : Dict kind) : PrivateData.read program dict = PrivateData.read other dict := by
  simp only [PrivateData.read, readSubrs, Dict.read_private_of_data_eq same,
    Window.read_at_of_data_eq same]

theorem FontDicts.add_of_data_eq (same : program.data = other.data) :
    FontDicts.add program = FontDicts.add other := by
  funext fontDicts object
  simp only [FontDicts.add, PrivateData.read_of_data_eq same]

theorem CidData.read_of_data_eq (same : program.data = other.data) (top : Dict .top)
    (glyphs : Nat) : CidData.read program top glyphs = CidData.read other top glyphs := by
  simp only [CidData.read, FontDicts.read, FontDicts.add_of_data_eq same,
    Window.read_at_of_data_eq same]

theorem Encoding.load_of_data_eq (same : program.data = other.data) (top : Dict .top) :
    Encoding.load program top = Encoding.load other top := by
  simp only [Encoding.load, Window.read_at_of_data_eq same]

theorem Charset.load_of_data_eq (same : program.data = other.data) (top : Dict .top)
    (glyphs : Nat) (isCid : Bool) :
    Charset.load program top glyphs isCid = Charset.load other top glyphs isCid := by
  simp only [Charset.load, Window.read_at_of_data_eq same]

theorem Font.read_keying_of_data_eq (same : program.data = other.data) (top : Dict .top)
    (glyphs : Nat) : Font.readKeying program top glyphs = Font.readKeying other top glyphs := by
  simp only [Font.readKeying, CidData.read_of_data_eq same, PrivateData.read_of_data_eq same,
    Encoding.load_of_data_eq same]

theorem Font.load_of_data_eq (same : program.data = other.data) (name : String) (top : Dict .top)
    (globalSubrs : Index) (strings : Strings) :
    Font.load program name top globalSubrs strings =
      Font.load other name top globalSubrs strings := by
  simp only [Font.load, Font.read_keying_of_data_eq same, Charset.load_of_data_eq same,
    Window.read_at_of_data_eq same]

theorem FontProgram.read_font_of_data_eq (same : program.data = other.data)
    (opening : FontProgram.Opening) :
    FontProgram.readFont program opening = FontProgram.readFont other opening := by
  funext place
  simp only [FontProgram.readFont, Font.load_of_data_eq same]

theorem FontProgram.data_of_read {result : FontProgram}
    (done : (FontProgram.read program).outcome = .ok result) : result.data = program.data := by
  obtain ⟨opening, -, done⟩ := Attempt.bind_ok done
  split at done
  · cases done
  · obtain ⟨fonts, -, done⟩ := Attempt.bind_ok done
    exact (Except.ok.inj done) ▸ rfl

theorem FontProgram.read_of_data_eq (same : program.data = other.data) :
    FontProgram.read program = FontProgram.read other := by
  simp only [FontProgram.read, FontProgram.read_font_of_data_eq same, Window.read, same]

end Relocation

namespace TableRecord

def bytes (record : TableRecord) : Bytes :=
  toBigEndian 4 record.tag.code ++ toBigEndian 4 record.checksum ++
    (toBigEndian 4 record.offset ++ toBigEndian 4 record.length)

theorem length_bytes (record : TableRecord) : record.bytes.length = 16 := by
  simp only [bytes, List.length_append, length_to_big_endian]

structure Fits (record : TableRecord) : Prop where
  tag : record.tag.code < byteSpan 4
  checksum : record.checksum < byteSpan 4
  offset : record.offset < byteSpan 4
  length : record.length < byteSpan 4

theorem spells_bytes {record : TableRecord} (fits : record.Fits) :
    field.Spells record.bytes record :=
  (((Field.spells_unsigned fits.tag).pair (Field.spells_unsigned fits.checksum)).pair
    ((Field.spells_unsigned fits.offset).pair (Field.spells_unsigned fits.length))).map _

end TableRecord

namespace TableDirectory

def bytes (directory : TableDirectory) : Bytes :=
  toBigEndian 4 directory.version.code ++ (toBigEndian 2 directory.records.length ++
    (toBigEndian 2 directory.searchRange ++ (toBigEndian 2 directory.entrySelector ++
      (toBigEndian 2 directory.rangeShift ++ directory.records.flatMap TableRecord.bytes))))

structure Fits (directory : TableDirectory) : Prop where
  count : directory.records.length < byteSpan 2
  searchRange : directory.searchRange < byteSpan 2
  entrySelector : directory.entrySelector < byteSpan 2
  rangeShift : directory.rangeShift < byteSpan 2
  records : ∀ record ∈ directory.records, record.Fits

variable {directory : TableDirectory}

theorem length_bytes (directory : TableDirectory) :
    directory.bytes.length = 12 + 16 * directory.records.length := by
  have records : (directory.records.flatMap TableRecord.bytes).length =
      directory.records.length * 16 := by
    simp only [List.length_flatMap, TableRecord.length_bytes, List.map_const',
      List.sum_replicate_nat]
  simp only [bytes, List.length_append, length_to_big_endian, records]
  omega

theorem reads_bytes (known : directory.version = .openType) (fits : directory.Fits) :
    Reader.Reads TableDirectory.read directory.bytes directory := by
  have version : Tag.openType.code < byteSpan 4 := by decide
  have span : byteSpan 2 = 65536 := rfl
  have sixteen : TableRecord.field.size = 16 := rfl
  have count := fits.count
  have records := Field.reads_array
    (fun record member => TableRecord.spells_bytes (fits.records record member))
    (by rw [sixteen, Field.maxArraySize]; omega)
  obtain ⟨_, searchRange, entrySelector, rangeShift, listed⟩ := directory
  subst known
  refine Reader.reads_bind (Field.reads_unsigned version) ?_
  rw [if_pos rfl]
  refine Reader.reads_bind (Field.reads_unsigned fits.count) ?_
  refine Reader.reads_bind (Field.reads_unsigned fits.searchRange) ?_
  refine Reader.reads_bind (Field.reads_unsigned fits.entrySelector) ?_
  refine Reader.reads_bind (Field.reads_unsigned fits.rangeShift) ?_
  exact Reader.reads_map _ records

end TableDirectory

structure Table where
  tag : Tag
  data : Bytes
  fits : tag.code < byteSpan 4

namespace Table

def recordsFrom : Nat → List Table → List TableRecord
  | _, [] => []
  | start, table :: rest =>
      ⟨table.tag, 0, start, table.data.length⟩ :: recordsFrom (start + table.data.length) rest

def directory (version : Tag) (tables : List Table) : TableDirectory where
  version
  searchRange := 0
  entrySelector := 0
  rangeShift := 0
  records := recordsFrom (12 + 16 * tables.length) tables

def wrap (version : Tag) (tables : List Table) : Bytes :=
  (directory version tables).bytes ++ tables.flatMap Table.data

variable {tables : List Table} {table : Table} {tag : Tag} {start : Nat}

theorem length_records_from (start : Nat) (tables : List Table) :
    (recordsFrom start tables).length = tables.length := by
  induction tables generalizing start with
  | nil => rfl
  | cons table rest ih => rw [recordsFrom, List.length_cons, ih, List.length_cons]

theorem length_directory (version : Tag) (tables : List Table) :
    (directory version tables).bytes.length = 12 + 16 * tables.length := by
  rw [TableDirectory.length_bytes, directory, length_records_from]

theorem length_wrap (version : Tag) (tables : List Table) :
    (wrap version tables).length =
      12 + 16 * tables.length + (tables.flatMap Table.data).length := by
  rw [wrap, List.length_append, length_directory]

theorem fits_of_mem_records_from
    (small : start + (tables.flatMap Table.data).length < byteSpan 4) :
    ∀ record ∈ recordsFrom start tables, record.Fits := by
  induction tables generalizing start with
  | nil => nofun
  | cons table rest ih =>
      rw [List.flatMap_cons, List.length_append] at small
      intro record member
      rcases List.mem_cons.mp member with rfl | later
      · have positive : 0 < byteSpan 4 := by decide
        exact ⟨table.fits, positive, by dsimp only; omega, by dsimp only; omega⟩
      · exact ih (by omega) record later

theorem fits_directory (version : Tag) (few : tables.length ≤ 65535)
    (small : 12 + 16 * tables.length + (tables.flatMap Table.data).length < byteSpan 4) :
    (directory version tables).Fits where
  count := by
    rw [directory, length_records_from]
    exact Nat.lt_succ_of_le few
  searchRange := show 0 < byteSpan 2 by decide
  entrySelector := show 0 < byteSpan 2 by decide
  rangeShift := show 0 < byteSpan 2 by decide
  records := fits_of_mem_records_from small

theorem find_records_from {container : Window}
    (held : container.Holds start (tables.flatMap Table.data))
    (found : tables.find? (fun table => table.tag = tag) = some table) :
    ∃ record, (recordsFrom start tables).find? (fun record => record.tag = tag) = some record ∧
      record.table container = .ok ⟨container.base + record.offset, table.data⟩ := by
  induction tables generalizing start with
  | nil => cases found
  | cons first rest ih =>
      rw [List.flatMap_cons] at held
      rw [recordsFrom]
      by_cases same : first.tag = tag
      · rw [List.find?_cons_of_pos (by simpa using same)] at found ⊢
        obtain rfl := Option.some.inj found
        exact ⟨_, rfl, held.left.part⟩
      · rw [List.find?_cons_of_neg (by simpa using same)] at found ⊢
        exact ih held.right found

end Table

theorem Window.font_program_of_directory {container program : Window} {directory : TableDirectory}
    {record : TableRecord} (magic : container.read Field.u32.read = .ok Tag.openType.code)
    (listed : container.read TableDirectory.read = .ok directory)
    (found : directory.find? .compactFont = some record)
    (placed : record.table container = .ok program) : container.fontProgram = .ok program := by
  refine Eq.trans ?_ placed
  simp only [fontProgram, magic, if_pos List.mem_cons_self, listed, bind, Except.bind, found]

theorem Table.font_program_wrap {tables : List Table} {program : Bytes}
    (few : tables.length ≤ 65535)
    (found : (tables.find? fun table => table.tag = .compactFont).map Table.data = some program)
    (small : (wrap .openType tables).length < byteSpan 4) :
    ∃ base, (Window.whole (wrap .openType tables)).fontProgram = .ok ⟨base, program⟩ := by
  obtain ⟨table, first, rfl⟩ := Option.map_eq_some_iff.mp found
  rw [length_wrap] at small
  have written : Window.Holds _ 0 (_ ++ _) := Window.holds_whole (wrap .openType tables)
  have fits := fits_directory .openType few small
  have version : Tag.openType.code < byteSpan 4 := by decide
  have magic := written.left.left.read (Field.reads_unsigned version)
  have listed := written.left.read (TableDirectory.reads_bytes rfl fits)
  have data : (Window.whole (wrap .openType tables)).Holds (12 + 16 * tables.length)
      (tables.flatMap Table.data) := by
    have after := written.right
    rwa [length_directory, Nat.zero_add] at after
  obtain ⟨record, recorded, placed⟩ := find_records_from data first
  exact ⟨_, Window.font_program_of_directory magic listed recorded placed⟩

namespace FontProgram

theorem wrapped_program_reads_alone (tables : List Table) (program : Bytes)
    (few : tables.length ≤ 65535)
    (found : (tables.find? fun table => table.tag = .compactFont).map Table.data = some program)
    (small : (Table.wrap .openType tables).length < 4294967296) :
    ofBytes (Table.wrap .openType tables) = read (Window.whole program) ∧
      (∀ result, (ofBytes (Table.wrap .openType tables)).outcome = .ok result →
        result.data = program) ∧
      ∀ base, read ⟨base, program⟩ = read (Window.whole program) := by
  have alone (base : Nat) : read ⟨base, program⟩ = read (Window.whole program) :=
    read_of_data_eq rfl
  obtain ⟨base, located⟩ := Table.font_program_wrap few found small
  have wrapped : ofBytes (Table.wrap .openType tables) = read (Window.whole program) := by
    rw [ofBytes, located, Attempt.lift_ok_bind, alone]
  exact ⟨wrapped, fun result done => data_of_read (wrapped ▸ done), alone⟩

def enclosed : List Table :=
  [⟨⟨0x68656164⟩, [0, 0, 0, 0], by decide⟩, ⟨.compactFont, keyedByCid.data, by decide⟩,
    ⟨.compactFont, [1, 0], by decide⟩]

def cutShort : List Table :=
  [⟨.compactFont, keyedByCid.data.take 46, by decide⟩,
    ⟨⟨0x68656164⟩, keyedByCid.data.drop 46, by decide⟩]

theorem enclosed_program_reads_alone :
    (∃ result, (ofBytes (Table.wrap .openType enclosed)).outcome = .ok result ∧
      result.data = keyedByCid.data ∧ result.fonts.length = 1) ∧
    (ofBytes (Table.wrap .openType cutShort)).outcome = .error .endOfData := by
  obtain ⟨loaded, kept, -⟩ := wrapped_program_reads_alone enclosed keyedByCid.data
    (by decide) rfl (by decide +kernel)
  obtain ⟨failed, -, -⟩ := wrapped_program_reads_alone cutShort (keyedByCid.data.take 46)
    (by decide) rfl (by decide +kernel)
  have fonts : (read (Window.whole keyedByCid.data)).outcome.toOption.map
      (fun result => result.fonts.length) = some 1 := by
    decide +kernel
  have stops : (fun _ => ()) <$> (read (Window.whole (keyedByCid.data.take 46))).outcome =
      .error .endOfData := by
    decide +kernel
  constructor
  · obtain ⟨result, read, count⟩ := Option.map_eq_some_iff.mp fonts
    have read := Attempt.ok_of_to_option read
    exact ⟨result, loaded ▸ read, kept result (loaded ▸ read), count⟩
  · rw [failed]
    exact Attempt.except_map_error_iff.mp stops

end FontProgram

end CompactFont
