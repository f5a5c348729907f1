import Mathlib.Data.List.Infix
import CompactFont.Proofs.ArrayReading
import CompactFont.Proofs.WrittenItems

set_option autoImplicit false

namespace CompactFont

def LiesAt (buffer : Bytes) (place : Nat) (bytes : Bytes) : Prop := bytes <+: buffer.drop place

namespace LiesAt

variable {buffer bytes : Bytes} {place : Nat}

theorem front (lies : LiesAt buffer place bytes) (length : Nat) :
    LiesAt buffer place (bytes.take length) := (List.take_prefix length bytes).trans lies

theorem behind (lies : LiesAt buffer place bytes) (offset : Nat) :
    LiesAt buffer (place + offset) (bytes.drop offset) := by
  rw [LiesAt, ← List.drop_drop]
  exact List.IsPrefix.drop lies offset

end LiesAt

namespace CursorStack

def place (stack : CursorStack) : Nat := stack.top.window.base + stack.top.position

def moved (stack : CursorStack) (length : Nat) : CursorStack :=
  stack.withTop (stack.top.seek (stack.top.position + length))

def Shows (buffer : Bytes) (stack : CursorStack) : Prop :=
  ∀ cursor ∈ stack.cursors, LiesAt buffer cursor.window.base cursor.window.data

def Short (stack : CursorStack) (offset length : Nat) : Prop :=
  length ≠ 0 ∧ stack.top.window.data.length < stack.top.position + offset + length

-- What the step asks for is not all there. An array of too many bytes to count never is.
def Lacks (stack : CursorStack) : ReadStep → Prop
  | .value layout => stack.top.window.data.length < stack.top.position + layout.field.size
  | .array layout count =>
      Field.maxArraySize < count * layout.field.size ∨ stack.Short 0 (count * layout.field.size)
  | .bytes length => stack.Short 0 length
  | .throughNibble nibble => ∀ byte ∈ stack.top.ahead, Cursor.hasNibble nibble byte = false
  | .window length => stack.Short 0 length
  | .peek offset => stack.Short offset 1
  | .enterPart offset length => stack.Short offset length
  | .seek _ | .hasMore | .here | .enter _ | .leave => False

inductive Answers (buffer : Bytes) (before : CursorStack) : ReadStep → ReadReply → CursorStack → Prop
  | value {layout : ItemLayout} {bytes : Bytes} {item : ItemValue} (lies : LiesAt buffer before.place bytes)
      (written : layout.Writes bytes item) :
      Answers buffer before (.value layout) (.item item) (before.moved bytes.length)
  | array {layout : ItemLayout} {array : PackedArray layout.field} {pieces : List Bytes}
      (lies : LiesAt buffer before.place array.window.data)
      (based : array.window.base = before.place) (cut : pieces.flatten = array.window.data)
      (counted : pieces.length = array.count)
      (written : List.Forall₂ layout.Writes pieces array.toList) :
      Answers buffer before (.array layout array.count) (.array array)
        (before.moved array.window.data.length)
  | bytes {bytes : Bytes} (lies : LiesAt buffer before.place bytes) :
      Answers buffer before (.bytes bytes.length) (.bytes bytes) (before.moved bytes.length)
  | throughNibble {nibble : Nat} {front : Bytes} {last : UInt8}
      (lies : LiesAt buffer before.place (front ++ [last]))
      (without : ∀ byte ∈ front, Cursor.hasNibble nibble byte = false)
      (has : Cursor.hasNibble nibble last = true) :
      Answers buffer before (.throughNibble nibble) (.bytes (front ++ [last]))
        (before.moved (front.length + 1))
  | window {bytes : Bytes} (lies : LiesAt buffer before.place bytes) :
      Answers buffer before (.window bytes.length) (.window ⟨before.place, bytes⟩)
        ((before.moved bytes.length).push ⟨before.place, bytes⟩)
  | peek {offset : Nat} {byte : UInt8} (lies : LiesAt buffer (before.place + offset) [byte]) :
      Answers buffer before (.peek offset) (.byte byte.toNat) before
  | seek (position : Nat) :
      Answers buffer before (.seek position) .done (before.withTop (before.top.seek position))
  | hasMore {more : Bool} (told : more = true ↔ ¬ before.Short 0 1) :
      Answers buffer before .hasMore (.flag more) before
  | here (lies : LiesAt buffer before.place before.top.ahead) :
      Answers buffer before .here (.window ⟨before.place, before.top.ahead⟩) before
  | enter {offset : Nat} {bytes : Bytes} (rest : bytes = before.top.ahead.drop offset)
      (lies : LiesAt buffer (before.place + offset) bytes) :
      Answers buffer before (.enter offset) (.window ⟨before.place + offset, bytes⟩)
        (before.push ⟨before.place + offset, bytes⟩)
  | enterPart {offset : Nat} {bytes : Bytes} (lies : LiesAt buffer (before.place + offset) bytes) :
      Answers buffer before (.enterPart offset bytes.length) (.window ⟨before.place + offset, bytes⟩)
        (before.push ⟨before.place + offset, bytes⟩)
  | leave : Answers buffer before .leave .done before.pop

inductive Ends (buffer : Bytes) (before : CursorStack) (next : ReadStep) :
    Except ReadError ReadReply × CursorStack → Prop
  | answered {reply : ReadReply} {after : CursorStack} (enough : ¬ before.Lacks next)
      (answers : Answers buffer before next reply after) : Ends buffer before next (.ok reply, after)
  | refused {error : ReadError} (lacks : before.Lacks next) :
      Ends buffer before next (.error error, before)

section Step

variable {buffer : Bytes} {before : CursorStack}

theorem perform_on_top {α : Type} (steps : Steps Cursor α) (stack : CursorStack) :
    (onTop steps).perform stack =
      ((steps.perform stack.top).1, stack.withTop (steps.perform stack.top).2) := by
  rw [onTop, Steps.perform_get_bind]
  exact Steps.perform_lift_except _ _

theorem Shows.ahead (shows : Shows buffer before) : LiesAt buffer before.place before.top.ahead :=
  (shows before.top List.mem_cons_self).behind before.top.position

theorem not_short_iff {stack : CursorStack} {offset length : Nat} :
    ¬ stack.Short offset length ↔
      length = 0 ∨ stack.top.position + offset + length ≤ stack.top.window.data.length := by
  rw [Short]
  omega

theorem length_take_behind {offset length : Nat} (enough : ¬ before.Short offset length) :
    ((before.top.ahead.drop offset).take length).length = length := by
  rw [not_short_iff] at enough
  rw [List.length_take, List.length_drop, Cursor.length_ahead]
  omega

theorem length_take_ahead {length : Nat} (enough : ¬ before.Short 0 length) :
    (before.top.ahead.take length).length = length := length_take_behind enough

theorem ends_value (shows : Shows buffer before) (layout : ItemLayout) :
    Ends buffer before (.value layout) ((step (.value layout)).perform before) := by
  rw [step, Steps.perform_map, perform_on_top]
  by_cases enough : before.top.position + layout.field.size ≤ before.top.window.data.length
  · have sized := length_take_ahead (not_short_iff.mpr (.inr enough))
    have answers := Answers.value (shows.ahead.front layout.field.size) (ItemLayout.writes_decode sized)
    rw [sized] at answers
    rw [Cursor.perform_take_value_of_le enough]
    exact .answered (Nat.not_lt.mpr enough) answers
  · rw [Cursor.perform_take_value_of_lt (Nat.not_le.mp enough)]
    exact .refused (Nat.not_le.mp enough)

theorem answers_array {layout : ItemLayout} {array : PackedArray layout.field}
    (lies : LiesAt buffer before.place array.window.data) (based : array.window.base = before.place)
    (sized : array.window.data.length = array.count * layout.field.size) :
    Answers buffer before (.array layout array.count) (.array array)
      (before.moved array.window.data.length) := by
  obtain ⟨pieces, cut, written⟩ := ItemLayout.exists_pieces sized
  rw [← PackedArray.to_list_eq sized] at written
  have counted : pieces.length = array.count := by
    rw [written.length_eq, PackedArray.to_list_eq sized, Field.length_items]
  exact .array lies based cut counted written

theorem ends_array (shows : Shows buffer before) (layout : ItemLayout) (count : Nat) :
    Ends buffer before (.array layout count) ((step (.array layout count)).perform before) := by
  rw [step, Steps.perform_map, perform_on_top]
  by_cases fits : count * layout.field.size ≤ Field.maxArraySize
  · by_cases short : before.Short 0 (count * layout.field.size)
    · rw [Cursor.perform_take_array_of_lt fits short.1 short.2]
      exact .refused (.inr short)
    · have sized := length_take_ahead short
      have answers := @answers_array buffer before layout
        ⟨⟨before.place, before.top.ahead.take (count * layout.field.size)⟩, count⟩
        (shows.ahead.front _) rfl sized
      rw [sized] at answers
      rw [Cursor.perform_take_array_of_le fits (not_short_iff.mp short)]
      exact .answered (not_or.mpr ⟨Nat.not_lt.mpr fits, short⟩) answers
  · rw [Cursor.takeArray, if_pos (Nat.not_le.mp fits)]
    exact .refused (.inl (Nat.not_le.mp fits))

theorem ends_bytes (shows : Shows buffer before) (length : Nat) :
    Ends buffer before (.bytes length) ((step (.bytes length)).perform before) := by
  rw [step, Steps.perform_map, perform_on_top, Cursor.takeBytes, Steps.perform_map]
  by_cases short : before.Short 0 length
  · rw [Cursor.perform_take_window_of_lt short.1 short.2]
    exact .refused short
  · have answers := Answers.bytes (shows.ahead.front length)
    rw [length_take_ahead short] at answers
    rw [Cursor.perform_take_window_of_le (not_short_iff.mp short)]
    exact .answered short answers

theorem ends_through_nibble (shows : Shows buffer before) (nibble : Nat) :
    Ends buffer before (.throughNibble nibble) ((step (.throughNibble nibble)).perform before) := by
  rw [step, Steps.perform_map, perform_on_top, Cursor.takeThroughNibble, Steps.perform_get_bind]
  cases found : before.top.ahead.findIdx? (Cursor.hasNibble nibble) with
  | none =>
      have lacks := List.findIdx?_eq_none_iff.mp found
      split
      · exact .refused lacks
      · exact .refused lacks
  | some place =>
      obtain ⟨inside, has, without⟩ := List.findIdx?_eq_some_iff_getElem.mp found
      have length := before.top.length_ahead
      have enough : ¬ before.Short 0 (place + 1) := not_short_iff.mpr (.inr (by omega))
      have lies := shows.ahead.front (place + 1)
      rw [← List.take_concat_get' _ _ inside] at lies
      have earlier : ∀ byte ∈ before.top.ahead.take place, Cursor.hasNibble nibble byte = false := by
        intro byte member
        obtain ⟨index, inFront, rfl⟩ := List.mem_take_iff_getElem.mp member
        exact Bool.eq_false_iff.mpr (without index (by omega))
      have answers := Answers.throughNibble lies earlier has
      rw [List.take_concat_get', List.length_take_of_le (Nat.le_of_lt inside)] at answers
      rw [if_neg (by omega)]
      simp only [Cursor.takeBytes, Steps.perform_map,
        Cursor.perform_take_window_of_le (not_short_iff.mp enough)]
      refine .answered (fun lacks => ?_) answers
      cases has.symm.trans (lacks _ (List.getElem_mem inside))

theorem ends_window (shows : Shows buffer before) (length : Nat) :
    Ends buffer before (.window length) ((step (.window length)).perform before) := by
  have top := perform_on_top (Cursor.takeWindow length) before
  by_cases short : before.Short 0 length
  · rw [Cursor.perform_take_window_of_lt short.1 short.2] at top
    rw [step, Steps.perform_bind_error top]
    exact .refused short
  · have answers := Answers.window (shows.ahead.front length)
    rw [length_take_ahead short] at answers
    rw [Cursor.perform_take_window_of_le (not_short_iff.mp short)] at top
    rw [step, Steps.perform_bind_ok top]
    exact .answered short answers

theorem ends_peek (shows : Shows buffer before) (offset : Nat) :
    Ends buffer before (.peek offset) ((step (.peek offset)).perform before) := by
  rw [step, Steps.perform_get_bind, Steps.perform_map, Steps.perform_lift_except, Cursor.peek]
  by_cases inside : before.top.position + offset < before.top.window.data.length
  · have lies := (shows.ahead.behind offset).front 1
    rw [Cursor.ahead, List.drop_drop, List.drop_eq_getElem_cons inside] at lies
    rw [List.getElem?_eq_getElem inside]
    exact .answered (not_short_iff.mpr (.inr inside)) (.peek lies)
  · rw [List.getElem?_eq_none (Nat.not_lt.mp inside)]
    exact .refused ⟨Nat.one_ne_zero, by omega⟩

theorem ends_enter_part (shows : Shows buffer before) (offset length : Nat) :
    Ends buffer before (.enterPart offset length)
      ((step (.enterPart offset length)).perform before) := by
  rw [step, Steps.perform_get_bind]
  have left : before.top.here.data.length = before.top.window.data.length - before.top.position :=
    before.top.length_ahead
  by_cases short : before.Short offset length
  · obtain ⟨some, missing⟩ := short
    have past : before.top.here.data.length < offset + length := by omega
    obtain ⟨error, failed⟩ := Window.part_of_lt some past
    rw [failed, Steps.perform_bind_error (Steps.perform_lift_except _ _)]
    exact .refused ⟨some, missing⟩
  · have enough := not_short_iff.mp short
    have answers := Answers.enterPart ((shows.ahead.behind offset).front length)
    rw [length_take_behind short] at answers
    rw [Window.part_of_le (by omega), Steps.perform_bind_ok (Steps.perform_lift_except _ _)]
    exact .answered short answers

theorem ends_step (shows : Shows buffer before) (next : ReadStep) :
    Ends buffer before next ((step next).perform before) := by
  cases next with
  | value layout => exact ends_value shows layout
  | array layout count => exact ends_array shows layout count
  | bytes length => exact ends_bytes shows length
  | throughNibble nibble => exact ends_through_nibble shows nibble
  | window length => exact ends_window shows length
  | peek offset => exact ends_peek shows offset
  | seek position => exact .answered id (.seek position)
  | hasMore =>
      refine .answered id (.hasMore ?_)
      rw [not_short_iff, Cursor.hasMore, decide_eq_true_iff]
      omega
  | here => exact .answered id (.here shows.ahead)
  | enter offset => exact .answered id (.enter rfl (shows.ahead.behind offset))
  | enterPart offset length => exact ends_enter_part shows offset length
  | leave => exact .answered id .leave

theorem Shows.seek (shows : Shows buffer before) (position : Nat) :
    Shows buffer (before.withTop (before.top.seek position)) := by
  intro cursor member
  cases member with
  | head => exact shows before.top List.mem_cons_self
  | tail _ below => exact shows cursor (List.mem_cons_of_mem _ below)

theorem Shows.push {base : Nat} {bytes : Bytes} (shows : Shows buffer before)
    (lies : LiesAt buffer base bytes) : Shows buffer (before.push ⟨base, bytes⟩) := by
  intro cursor member
  cases member with
  | head => exact lies
  | tail _ below => exact shows cursor below

theorem Shows.pop (shows : Shows buffer before) : Shows buffer before.pop := by
  obtain ⟨top, below⟩ := before
  cases below with
  | nil => exact shows
  | cons next others => exact fun cursor member => shows cursor (List.mem_cons_of_mem _ member)

theorem Answers.shows {next : ReadStep} {reply : ReadReply} {after : CursorStack}
    (answers : Answers buffer before next reply after) (shows : Shows buffer before) :
    Shows buffer after := by
  cases answers with
  | value | array | bytes | throughNibble | seek => exact shows.seek _
  | window lies => exact (shows.seek _).push lies
  | peek | hasMore | here => exact shows
  | enter _ lies => exact shows.push lies
  | enterPart lies => exact shows.push lies
  | leave => exact shows.pop

theorem Ends.shows {next : ReadStep} {result : Except ReadError ReadReply × CursorStack}
    (ends : Ends buffer before next result) (shows : Shows buffer before) :
    Shows buffer result.2 := by
  cases ends with
  | answered enough answers => exact answers.shows shows
  | refused lacks => exact shows

theorem shows_whole (buffer : Bytes) : Shows buffer (whole buffer) := by
  intro cursor member
  obtain rfl := List.mem_singleton.mp member
  exact List.prefix_refl buffer

-- By induction on the steps, each from the stack that the one before it left.
theorem shows_after_all (shows : Shows buffer before) (steps : List ReadStep) :
    Shows buffer (before.afterAll steps) := by
  induction steps generalizing before with
  | nil => exact shows
  | cons next later ih => exact ih ((ends_step shows next).shows shows)

end Step

theorem windows_stay_in_place (buffer : Bytes) (earlier : List ReadStep) (next : ReadStep) :
    (∀ cursor ∈ ((whole buffer).afterAll earlier).cursors,
        LiesAt buffer cursor.window.base cursor.window.data) ∧
      (∀ reply after,
        (step next).perform ((whole buffer).afterAll earlier) = (.ok reply, after) →
          Answers buffer ((whole buffer).afterAll earlier) next reply after) ∧
      (∀ error after,
        (step next).perform ((whole buffer).afterAll earlier) = (.error error, after) →
          after = (whole buffer).afterAll earlier) ∧
      ((∃ error after,
          (step next).perform ((whole buffer).afterAll earlier) = (.error error, after)) ↔
        ((whole buffer).afterAll earlier).Lacks next) := by
  have shows := shows_after_all (shows_whole buffer) earlier
  have ends := ends_step shows next
  generalize (whole buffer).afterAll earlier = stack at shows ends
  generalize (step next).perform stack = result at ends
  cases ends with
  | answered enough answers =>
      refine ⟨shows, ?_, nofun, iff_of_false nofun enough⟩
      rintro reply after same
      cases same
      exact answers
  | refused lacks =>
      refine ⟨shows, nofun, ?_, iff_of_true ⟨_, _, rfl⟩ lacks⟩
      rintro error after same
      cases same
      rfl

example : (step (.value (.unsigned 2))).perform
      ((whole [0, 1, 2, 3, 4, 5]).afterAll [.seek 1, .window 4, .enterPart 1 3]) =
    (.ok (.item (.number 0x0203)),
      ⟨⟨⟨2, [2, 3, 4]⟩, 2⟩, [⟨⟨1, [1, 2, 3, 4]⟩, 0⟩, ⟨⟨0, [0, 1, 2, 3, 4, 5]⟩, 5⟩]⟩) := rfl

end CursorStack

end CompactFont
