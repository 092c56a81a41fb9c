import NetLowering.Decimal.Style
import NetLowering.Text.Quoted

/-!
# Buffers

A buffer is the flat content of a tensor: elements of one of four numeric types
in memory order.  What rearranges elements without looking at them is written
once, for every element type, and lifted by `Buffer.rearrange`.
-/

namespace NetLowering

inductive ElemType where
  | float32
  | int32
  | uint8
  | int8
deriving DecidableEq, Repr

def ElemType.name : ElemType → String
  | .float32 => "float32"
  | .int32 => "int32"
  | .uint8 => "uint8"
  | .int8 => "int8"

inductive Buffer where
  | float32 (values : Array Single)
  | int32 (values : Array Int32)
  | uint8 (values : Array UInt8)
  | int8 (values : Array Int8)
deriving DecidableEq

namespace Buffer

def elemType : Buffer → ElemType
  | float32 _ => .float32
  | int32 _ => .int32
  | uint8 _ => .uint8
  | int8 _ => .int8

def size : Buffer → Nat
  | float32 values => values.size
  | int32 values => values.size
  | uint8 values => values.size
  | int8 values => values.size

def isEmpty (buffer : Buffer) : Bool := buffer.size == 0

def zeros : ElemType → Nat → Buffer
  | .float32, size => float32 (.replicate size .zero)
  | .int32, size => int32 (.replicate size 0)
  | .uint8, size => uint8 (.replicate size 0)
  | .int8, size => int8 (.replicate size 0)

def ints? : Buffer → Option (Array Int32)
  | int32 values => some values
  | _ => none

/-- An element as a number that holds every element of every type exactly. -/
def double? (buffer : Buffer) (index : Nat) : Option Double :=
  match buffer with
  | float32 values => values[index]?.map .ofSingle
  | int32 values => values[index]?.map fun value => .ofInt value.toInt
  | uint8 values => values[index]?.map fun value => .ofInt value.toNat
  | int8 values => values[index]?.map fun value => .ofInt value.toInt

/-- Every element as a single-precision number, rounded where it has to be. -/
def singles : Buffer → List Single
  | float32 values => values.toList
  | int32 values => values.toList.map fun value => .ofInt value.toInt
  | uint8 values => values.toList.map fun value => .ofInt value.toNat
  | int8 values => values.toList.map fun value => .ofInt value.toInt

/-- The content of `target` once `source` is copied over it; only a buffer of
the same type and size can be. -/
def overwrite? (target source : Buffer) : Option Buffer :=
  if target.elemType = source.elemType ∧ target.size = source.size then some source else none

/-- Applies one rearrangement of arrays, whatever the elements are. -/
def rearrange [Monad m] (buffer : Buffer) (arrange : {α : Type} → Array α → m (Array α)) :
    m Buffer :=
  match buffer with
  | float32 values => float32 <$> arrange values
  | int32 values => int32 <$> arrange values
  | uint8 values => uint8 <$> arrange values
  | int8 values => int8 <$> arrange values

/-! ## Rendering -/

/-- Elements are written positionally from `10 ^ -4` up to `10 ^ 16`, always with a fraction. -/
def elementStyle : Decimal.Style where
  positional leading := -4 ≤ leading && leading < 16
  pointZero := true

def renderElements : Buffer → String
  | float32 values => Text.listing values.toList (Single.render elementStyle)
  | int32 values => Text.listing values.toList fun value => toString value.toInt
  | uint8 values => Text.listing values.toList fun value => toString value.toNat
  | int8 values => Text.listing values.toList fun value => toString value.toInt

def render (buffer : Buffer) : String :=
  s!"{buffer.elemType.name}({buffer.size}, {buffer.renderElements})"

/-! ## Sizes -/

@[simp] theorem size_zeros (type : ElemType) (size : Nat) : (zeros type size).size = size := by
  cases type <;> simp [zeros, Buffer.size]

@[simp] theorem elemType_zeros (type : ElemType) (size : Nat) :
    (zeros type size).elemType = type := by
  cases type <;> rfl

theorem length_singles (buffer : Buffer) : buffer.singles.length = buffer.size := by
  cases buffer <;> simp [singles, size]

end Buffer

end NetLowering
