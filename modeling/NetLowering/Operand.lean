import NetLowering.Buffer

/-!
# Operands

An operand is a typed slot of a graph: a scalar or a tensor, plain or
quantized.  An identifier names an operand by its place and says whether it is
an operand of the graph at hand or of some other graph.
-/

namespace NetLowering

inductive OperandCode where
  | float32
  | int32
  | uint32
  | tensorFloat32
  | tensorInt32
  | tensorQuant8Asymm
  | tensorQuant8SymmPerChannel
  | tensorQuant8AsymmSigned
deriving DecidableEq, Repr

namespace OperandCode

def all : List OperandCode :=
  [.float32, .int32, .uint32, .tensorFloat32, .tensorInt32, .tensorQuant8Asymm,
    .tensorQuant8SymmPerChannel, .tensorQuant8AsymmSigned]

def number : OperandCode → Nat
  | .float32 => 0
  | .int32 => 1
  | .uint32 => 2
  | .tensorFloat32 => 3
  | .tensorInt32 => 4
  | .tensorQuant8Asymm => 5
  | .tensorQuant8SymmPerChannel => 11
  | .tensorQuant8AsymmSigned => 14

def name : OperandCode → String
  | .float32 => "FLOAT32"
  | .int32 => "INT32"
  | .uint32 => "UINT32"
  | .tensorFloat32 => "TENSOR_FLOAT32"
  | .tensorInt32 => "TENSOR_INT32"
  | .tensorQuant8Asymm => "TENSOR_QUANT8_ASYMM"
  | .tensorQuant8SymmPerChannel => "TENSOR_QUANT8_SYMM_PER_CHANNEL"
  | .tensorQuant8AsymmSigned => "TENSOR_QUANT8_ASYMM_SIGNED"

def isQuantized : OperandCode → Bool
  | .tensorQuant8Asymm | .tensorQuant8SymmPerChannel | .tensorQuant8AsymmSigned => true
  | _ => false

/-- Whether elements of this type can be stored for an operand of this code. -/
def accepts : OperandCode → ElemType → Bool
  | .float32, type | .tensorFloat32, type => type == .float32
  | .int32, type | .uint32, type | .tensorInt32, type => type == .int32
  | .tensorQuant8Asymm, type | .tensorQuant8SymmPerChannel, type
  | .tensorQuant8AsymmSigned, type => type == .uint8 || type == .int8

end OperandCode

structure OperandType where
  code : OperandCode
  dims : List UInt32
  scale : Option Single
  zeroPoint : Option Int32
deriving DecidableEq, Repr

namespace OperandType

def plain (code : OperandCode) (dims : List UInt32) : OperandType := ⟨code, dims, none, none⟩

def scalar (code : OperandCode) : OperandType := plain code []

def quantized (code : OperandCode) (dims : List UInt32) (scale : Single) (zeroPoint : Int32) :
    OperandType :=
  ⟨code, dims, some scale, some zeroPoint⟩

/-- How many elements the dimensions span; a scalar has one.  The product is taken in a machine
word, so it is cut to 64 bits. -/
def elements (type : OperandType) : Nat :=
  (type.dims.foldl (fun count dim => count * dim.toUInt64) (1 : UInt64)).toNat

end OperandType

/-- The scales of a tensor that is quantized per slice along one dimension. -/
structure ChannelQuant where
  channelDim : UInt32
  scales : List Single
deriving DecidableEq, Repr

structure Operand where
  name : Option String
  type : OperandType
deriving DecidableEq, Repr

/-! ## Identifiers -/

structure OperandId where
  index : Nat
  foreign : Bool
deriving DecidableEq, Repr

namespace OperandId

def own (index : Nat) : OperandId := ⟨index, false⟩

/-- The operand at this place of some other graph. -/
def other (index : Nat) : OperandId := ⟨index, true⟩

/-- The place as a backend is told it, in 32 bits. -/
def word (id : OperandId) : UInt32 := .ofNat id.index

/-- Identifiers are ordered by place; of two with the same place the graph's own comes first. -/
instance : Ord OperandId := ⟨compareLex (compareOn index) (compareOn foreign)⟩

instance : Std.TransOrd OperandId :=
  inferInstanceAs (Std.TransCmp (compareLex (compareOn index) (compareOn foreign)))

instance : Std.LawfulEqOrd OperandId where
  eq_of_compare {left right} same := by
    have := compareLex_eq_eq.mp same
    simp only [compareOn, Std.LawfulEqOrd.compare_eq_iff_eq] at this
    cases left
    cases right
    simp_all

end OperandId

/-! ## Rendering -/

/-- Scales are written out in full, without an exponent and without a needless fraction. -/
def scaleStyle : Decimal.Style where
  positional _ := true
  pointZero := false

def renderDims (dims : List UInt32) : String :=
  Text.bracketed (dims.map fun dim => toString dim.toNat)

def OperandType.render (type : OperandType) : String :=
  let shape := type.code.name ++ renderDims type.dims
  match type.scale, type.zeroPoint with
  | some scale, some zeroPoint =>
    s!"{shape} scale={scale.render scaleStyle} zero_point={zeroPoint.toInt}"
  | _, _ => shape

def renderScales (scales : List Single) : String :=
  Text.bracketed (scales.map (Single.render Buffer.elementStyle))

end NetLowering
