import NetLowering.Graph
import NetLowering.Lowering.Error

/-!
# Assembling a graph

A graph grows by operands, values, tensor names and operations.  Every step
checks what it relies on, so a graph that was assembled without an error is
consistent.  A layer is what one operator adds: its parameters in order, its
output, and one operation from the input and the parameters to the output.
-/

namespace NetLowering

namespace Graph

/-! ## Single steps -/

def resolve (graph : Graph) (name : String) : Except LoweringError OperandId :=
  match graph.tensorIds.find? name with
  | some id => .ok id
  | none => .error (.unresolvedTensor name)

def typeOf (graph : Graph) (id : OperandId) : Except LoweringError OperandType :=
  match graph.operand? id with
  | some operand => .ok operand.type
  | none => .error (.unknownOperand id.index)

def push (graph : Graph) (operand : Operand) : Graph :=
  { graph with operands := graph.operands ++ [operand] }

def bindValue (graph : Graph) (id : OperandId) (value : Buffer) : Except LoweringError Graph := do
  let some operand := graph.operand? id | throw (.unknownOperand id.index)
  if operand.type.elements ≠ value.size then
    throw (.invalidShape (operand.name.getD s!"%{id.index}")
      (.valueCount value.size operand.type.dims))
  if graph.values.contains id then throw (.duplicateValue id.index)
  return { graph with values := graph.values.insert id value }

def bindChannelQuant (graph : Graph) (id : OperandId) (quant : ChannelQuant) :
    Except LoweringError Graph := do
  if !graph.contains id then throw (.unknownOperand id.index)
  if graph.channelQuants.contains id then throw (.duplicateValue id.index)
  return { graph with channelQuants := graph.channelQuants.insert id quant }

def nameAs (graph : Graph) (name : String) (id : OperandId) : Except LoweringError Graph := do
  if graph.tensorIds.contains name then throw (.duplicateTensor name)
  return { graph with tensorIds := graph.tensorIds.insert name id }

/-- Adds an operand, with its value if it is a constant. -/
def addOperand (graph : Graph) (operand : Operand) (value : Option Buffer) :
    Except LoweringError Graph :=
  match value with
  | some value => (graph.push operand).bindValue graph.nextId value
  | none => .ok (graph.push operand)

def addTensor (graph : Graph) (name : String) (type : OperandType) (value : Option Buffer) :
    Except LoweringError Graph := do
  if graph.tensorIds.contains name then throw (.duplicateTensor name)
  let extended ← graph.addOperand ⟨some name, type⟩ value
  return { extended with tensorIds := extended.tensorIds.insert name graph.nextId }

def addOperation (graph : Graph) (operation : Operation) : Except LoweringError Graph :=
  match (operation.inputs ++ operation.outputs).find? fun id => !graph.contains id with
  | some id => .error (.unknownOperand id.index)
  | none => .ok (graph.withOperation operation)

end Graph

/-! ## Layers -/

/-- A constant operand that an operator brings along. -/
structure Param where
  name : Option String
  type : OperandType
  value : Buffer
  channelQuant : Option ChannelQuant := none
deriving DecidableEq

def Param.int (number : Int32) : Param := ⟨none, .scalar .int32, .int32 #[number], none⟩

def Param.single (number : Single) : Param := ⟨none, .scalar .float32, .float32 #[number], none⟩

structure Layer where
  code : OperationCode
  input : OperandId
  params : List Param
  /-- The name and type of the output, or why there is none.  The question is
  put after the parameters, so a fault of theirs is reported before it. -/
  output : Except LoweringError (String × OperandType)

namespace Graph

def addParam (graph : Graph) (param : Param) : Except LoweringError Graph := do
  let extended ←
    match param.name with
    | some name => graph.addTensor name param.type (some param.value)
    | none => graph.addOperand ⟨none, param.type⟩ (some param.value)
  match param.channelQuant with
  | some quant => extended.bindChannelQuant graph.nextId quant
  | none => return extended

def nextIds (graph : Graph) (count : Nat) : List OperandId :=
  (List.range' graph.operands.length count).map .own

def addLayer (graph : Graph) (layer : Layer) : Except LoweringError Graph := do
  let withParams ← layer.params.foldlM addParam graph
  let (name, type) ← layer.output
  let withOutput ← withParams.addTensor name type none
  withOutput.addOperation {
    code := layer.code
    inputs := layer.input :: graph.nextIds layer.params.length
    outputs := [withParams.nextId] }

end Graph

end NetLowering
