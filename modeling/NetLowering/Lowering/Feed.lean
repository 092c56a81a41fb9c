import NetLowering.Lowering.Assembly
import NetLowering.Lowering.Window

/-!
# Feeds

What an operator is fed with: an operand that some earlier part of the graph
has defined, with its type and the axes of its image.  The types of inputs and
outputs depend on whether the graph is quantized.
-/

namespace NetLowering

inductive SoftmaxPolicy where
  /-- It adds nothing: its output is another name for its input. -/
  | skip
  | emit
deriving DecidableEq, Repr

structure LoweringOptions where
  quantized : Bool := false
  signedRemap : Bool := false
  /-- Height, width and channels, of a batch of 1 unless its size stands before them. -/
  inputSize : List UInt32 := []
  softmax : SoftmaxPolicy := .skip
deriving DecidableEq, Repr

def LoweringOptions.quantCode (options : LoweringOptions) : OperandCode :=
  if options.signedRemap then .tensorQuant8AsymmSigned else .tensorQuant8Asymm

structure Feed where
  id : OperandId
  type : OperandType
  axes : Axes
deriving DecidableEq, Repr

def Graph.feed (graph : Graph) (tensor : Tensor) : Except LoweringError Feed := do
  let id ← graph.resolve tensor.name
  let type ← graph.typeOf id
  let axes ← Axes.ofDims tensor.name type.dims
  return { id, type, axes }

namespace FlatOp

/-- The type of the operator's output: quantized as the operator says, or by
default, if the graph is quantized. -/
def outputType (operator : FlatOp) (options : LoweringOptions) (code : OperandCode)
    (dims : List UInt32) (scale : Single) (zeroPoint : Int32) :
    Except LoweringError OperandType := do
  if options.quantized then
    let (scale, zeroPoint) ← operator.outputQuant scale zeroPoint
    return .quantized code dims scale zeroPoint
  else return .plain code dims

end FlatOp

end NetLowering
