import CompactFont.PackedArray

set_option autoImplicit false

namespace CompactFont

inductive ItemLayout where
  | unsigned (size : Nat)
  | signed (size : Nat)
  | pair (first second : ItemLayout)
deriving DecidableEq, Repr

inductive ItemValue where
  | number (value : Int)
  | pair (first second : ItemValue)
deriving DecidableEq, Repr

def ItemLayout.field : ItemLayout → Field ItemValue
  | .unsigned size => (Field.unsigned size).map fun (value : Nat) => .number value
  | .signed size => (Field.signed size).map .number
  | .pair first second => (first.field.pair second.field).map fun (one, other) => .pair one other

structure CursorStack where
  top : Cursor
  below : List Cursor
deriving DecidableEq, Repr

inductive ReadStep where
  | value (layout : ItemLayout)
  | array (layout : ItemLayout) (count : Nat)
  | bytes (length : Nat)
  | throughNibble (nibble : Nat)
  | window (length : Nat)
  | peek (offset : Nat)
  | seek (position : Nat)
  | hasMore
  | here
  | enter (offset : Nat)
  | enterPart (offset length : Nat)
  | leave
deriving DecidableEq, Repr

inductive ReadReply where
  | item (item : ItemValue)
  | array {layout : ItemLayout} (array : PackedArray layout.field)
  | bytes (bytes : Bytes)
  | byte (value : Nat)
  | flag (value : Bool)
  | window (window : Window)
  | done

namespace CursorStack

def whole (buffer : Bytes) : CursorStack := ⟨.ofWindow (.whole buffer), []⟩

def cursors (stack : CursorStack) : List Cursor := stack.top :: stack.below

def withTop (stack : CursorStack) (top : Cursor) : CursorStack := { stack with top }

def push (stack : CursorStack) (window : Window) : CursorStack := ⟨.ofWindow window, stack.cursors⟩

def pop (stack : CursorStack) : CursorStack :=
  match stack.below with
  | [] => stack
  | top :: below => ⟨top, below⟩

def onTop {α : Type} (steps : Steps Cursor α) : Steps CursorStack α := do
  let stack ← get
  let (result, top) := steps.perform stack.top
  set (stack.withTop top)
  liftExcept result

def go (window : Window) : Steps CursorStack ReadReply := do
  modify (·.push window)
  pure (.window window)

def step : ReadStep → Steps CursorStack ReadReply
  | .value layout => .item <$> onTop (Cursor.takeValue layout.field)
  | .array layout count => .array <$> onTop (Cursor.takeArray layout.field count)
  | .bytes length => .bytes <$> onTop (Cursor.takeBytes length)
  | .throughNibble nibble => .bytes <$> onTop (Cursor.takeThroughNibble nibble)
  | .window length => onTop (Cursor.takeWindow length) >>= go
  | .peek offset => do
      let stack ← get
      .byte <$> liftExcept (stack.top.peek offset)
  | .seek position => do
      modify fun stack => stack.withTop (stack.top.seek position)
      pure .done
  | .hasMore => do
      let stack ← get
      pure (.flag stack.top.hasMore)
  | .here => do
      let stack ← get
      pure (.window stack.top.here)
  | .enter offset => do
      let stack ← get
      go (stack.top.here.startingAt offset)
  | .enterPart offset length => do
      let stack ← get
      let window ← liftExcept (stack.top.here.part offset length)
      go window
  | .leave => do
      modify pop
      pure .done

def afterAll (stack : CursorStack) (steps : List ReadStep) : CursorStack :=
  steps.foldl (fun stack next => ((step next).perform stack).2) stack

end CursorStack

end CompactFont
