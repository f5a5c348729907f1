import CompactFont.Reader

set_option autoImplicit false

namespace CompactFont

structure Field (α : Type) where
  size : Nat
  decode : Bytes → α

namespace Field

variable {α β : Type}

def unsigned (size : Nat) : Field Nat := ⟨size, bigEndian⟩

def signed (size : Nat) : Field Int := ⟨size, signedBigEndian⟩

def u8 : Field Nat := unsigned 1

def u16 : Field Nat := unsigned 2

def u32 : Field Nat := unsigned 4

def i16 : Field Int := signed 2

def i32 : Field Int := signed 4

def pair (first : Field α) (second : Field β) : Field (α × β) where
  size := first.size + second.size
  decode bytes := (first.decode (bytes.take first.size), second.decode (bytes.drop first.size))

def map (f : α → β) (field : Field α) : Field β := ⟨field.size, f ∘ field.decode⟩

def read (field : Field α) : Reader α := field.decode <$> Reader.take field.size

def items (field : Field α) : Nat → Bytes → List α
  | 0, _ => []
  | count + 1, bytes =>
      field.decode (bytes.take field.size) :: items field count (bytes.drop field.size)

def maxArraySize : Nat := 0xffffffffffffffff

-- An array whose size in bytes does not fit in 64 bits is refused outright.
def readArray (field : Field α) (count : Nat) : Reader (List α) :=
  if maxArraySize < count * field.size then throw .limitExceeded
  else items field count <$> Reader.take (count * field.size)

theorem length_items (field : Field α) (count : Nat) (bytes : Bytes) :
    (items field count bytes).length = count := by
  induction count generalizing bytes with
  | zero => rfl
  | succ count ih => simp [items, ih]

theorem consumes_read (field : Field α) : Reader.Consumes field.size field.read :=
  Reader.consumes_map _ (Reader.consumes_take _)

end Field

end CompactFont
