import NetLowering.Buffer

/-!
# Values

The value of an operator argument: numbers in a buffer, or text.  Bytes arrive
as a `uint8` buffer and become text only where their meaning is known.
-/

namespace NetLowering

inductive Value where
  | numbers (buffer : Buffer)
  | text (content : String)
deriving DecidableEq

namespace Value

def buffer? : Value → Option Buffer
  | numbers buffer => some buffer
  | text _ => none

def text? : Value → Option String
  | text content => some content
  | numbers _ => none

def ints? (value : Value) : Option (Array Int32) := value.buffer?.bind Buffer.ints?

/-- Elements of a buffer, bytes of a text. -/
def size : Value → Nat
  | numbers buffer => buffer.size
  | text content => content.utf8ByteSize

def isEmpty (value : Value) : Bool := value.size == 0

/-- The one integer of an `int32` buffer of size 1. -/
def int? (value : Value) : Option Int32 :=
  match value.ints? with
  | some #[number] => some number
  | _ => none

/-- The one number of a buffer of size 1, whatever its element type. -/
def single? (value : Value) : Option Single :=
  match value.buffer?.map Buffer.singles with
  | some [number] => some number
  | _ => none

/-- Bytes read as text, one character per byte; text as it is. -/
def latin? : Value → Option String
  | numbers (.uint8 bytes) =>
    some (String.ofList (bytes.toList.map fun byte => Char.ofNat byte.toNat))
  | numbers _ => none
  | text content => some content

def render : Value → String
  | numbers buffer => buffer.render
  | text content => s!"str({Text.quoted content})"

end Value

end NetLowering
