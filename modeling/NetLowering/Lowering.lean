import NetLowering.Lowering.Convolution
import NetLowering.Lowering.Pooling

/-!
# Lowering a flat net to a graph

The graph starts with the net's input and grows by one step for every operator,
in order.  A softmax is either another name for its input or a layer of its
own; every other operator is a layer.
-/

namespace NetLowering

inductive OperatorKind where
  | conv
  | convRelu
  | averagePool
  | softmax
deriving DecidableEq, Repr

namespace OperatorKind

def all : List OperatorKind := [.conv, .convRelu, .averagePool, .softmax]

def type : OperatorKind → String
  | .conv => "Int8Conv"
  | .convRelu => "Int8ConvRelu"
  | .averagePool => "Int8AveragePool"
  | .softmax => "Softmax"

def ofType (type : String) : Except LoweringError OperatorKind :=
  match all.find? fun kind => kind.type == type with
  | some kind => .ok kind
  | none => .error (.unsupportedOperator type)

end OperatorKind

namespace Softmax

/-- Probabilities are spread evenly over the range of a byte. -/
def scale : Single := ⟨0x3b800000⟩

def layer (options : LoweringOptions) (operator : FlatOp) (name : String) (input : OperandId)
    (type : OperandType) : Layer where
  code := .softmax
  input
  params := [.single .one]
  output := do
    let zeroPoint := if options.signedRemap then -128 else 0
    return (name, ← operator.outputType options type.code type.dims scale zeroPoint)

def lower (options : LoweringOptions) (graph : Graph) (operator : FlatOp) :
    Except LoweringError Graph := do
  let source ← operator.input 0
  let name ← operator.outputName
  let input ← graph.resolve source.name
  match options.softmax with
  | .skip => graph.nameAs name input
  | .emit =>
    let type ← graph.typeOf input
    graph.addLayer (layer options operator name input type)

end Softmax

namespace FlatOp

def lower (options : LoweringOptions) (graph : Graph) (operator : FlatOp) :
    Except LoweringError Graph := do
  match ← OperatorKind.ofType operator.type with
  | .conv | .convRelu =>
    let convolution ← Convolution.ofOperator options graph operator
    graph.addLayer (convolution.layer options operator)
  | .averagePool =>
    let pooling ← Pooling.ofOperator graph operator
    graph.addLayer (pooling.layer options operator)
  | .softmax => Softmax.lower options graph operator

end FlatOp

namespace LoweringOptions

/-- The dimensions of the net's input; none of them may be 0. -/
def inputDims (options : LoweringOptions) : Except LoweringError (List UInt32) :=
  if 0 ∈ options.inputSize then .error (.invalidInputSize options.inputSize)
  else
    match options.inputSize with
    | [h, w, c] => .ok [1, h, w, c]
    | [n, h, w, c] => .ok [n, h, w, c]
    | size => .error (.invalidInputSize size)

def inputType (options : LoweringOptions) (first : FlatOp) : Except LoweringError OperandType := do
  let dims ← options.inputDims
  if options.quantized then
    let scale ← first.required "X_scale" (← first.single? "X_scale")
    let zeroPoint ←
      if options.signedRemap then pure 0
      else first.required "X_zero_point" (← first.int? "X_zero_point")
    return .quantized options.quantCode dims scale zeroPoint
  else return .plain .tensorFloat32 dims

end LoweringOptions

namespace FlatNet

def inputGraph (options : LoweringOptions) (first : FlatOp) : Except LoweringError Graph := do
  let source ← first.input 0
  let type ← options.inputType first
  Graph.empty.addTensor source.name type none

/-- Lowers all operators; the first output of the last one is the net's output. -/
def lower (options : LoweringOptions) (net : FlatNet) : Except LoweringError Graph := do
  let some first := net.operators.head? | throw .emptyModel
  let some last := net.operators.getLast? | throw .emptyModel
  let start ← inputGraph options first
  let grown ← net.operators.foldlM (FlatOp.lower options) start
  let output ← grown.resolve (← last.outputName)
  let graph := { grown with inputs := [Graph.empty.nextId], outputs := [output] }
  match graph.unknown? with
  | some id => throw (.unknownOperand id.index)
  | none => return graph

end FlatNet

end NetLowering
