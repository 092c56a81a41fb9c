import NetLowering.FlatNet.Initializer

/-!
# Flat nets

A flat net joins a predict net with its initializer net: its operators carry
their arguments as values and their inputs with all that is known of them, so
nothing has to be looked up elsewhere.
-/

namespace NetLowering

structure FlatOp where
  name : String := ""
  type : String := ""
  engine : String := ""
  inputs : List Tensor := []
  outputs : List String := []
  arguments : Table String Value := ∅
deriving DecidableEq

structure FlatNet where
  operators : List FlatOp
  initializers : Table String Tensor := ∅
  initLayout : Layout := .channelLast
  predictLayout : Layout := .channelLast
deriving DecidableEq

def FlatNet.inputName? (net : FlatNet) : Option String := do
  let first ← net.operators.head?
  let tensor ← first.inputs.head?
  return tensor.name

def FlatNet.outputName? (net : FlatNet) : Option String := do
  let last ← net.operators.getLast?
  last.outputs.head?

/-! ## Operators -/

/-- The value with its axes put into channel-last order, if it has four elements. -/
def Value.channelsLast : Value → Value
  | .numbers buffer =>
    .numbers (Id.run (buffer.rearrange fun values => NetLowering.channelsLast values))
  | .text content => .text content

/-- An order is read as text.  In a channel-first net all other arguments list
their axes channel-first too, except `pads`, which holds offsets. -/
def FlatOp.argumentValue (layout : Layout) (argument : Argument) : Except LoadError Value := do
  let value ← argument.value
  if argument.label = "order" then return .text (value.latin?.getD "")
  else if layout = .channelFirst ∧ argument.label ≠ "pads" then return value.channelsLast
  else return value

/-- The last argument of a name is the one that counts. -/
def FlatOp.argumentTable (layout : Layout) (arguments : List Argument) :
    Except LoadError (Table String Value) :=
  arguments.foldlM (fun table argument => do
    let value ← argumentValue layout argument
    return table.insert argument.label value) ∅

def FlatOp.ofOperator (layout : Layout) (initializers : Table String Tensor)
    (operator : NetOperator) : Except LoadError FlatOp := do
  let arguments ← argumentTable layout operator.arguments
  return {
    name := operator.name.getD ""
    type := operator.type.getD ""
    engine := operator.engine.getD ""
    inputs := operator.inputs.map fun name => (initializers.find? name).getD (.named name)
    outputs := operator.outputs
    arguments }

/-! ## Joining two nets -/

def FlatNet.addInitializer (options : LoadOptions) (layout : Layout)
    (initializers : Table String Tensor) (operator : NetOperator) :
    Except LoadError (Table String Tensor) := do
  let tensor ← Tensor.ofInitializer options layout operator
  if initializers.contains tensor.name then throw (.duplicateTensor tensor.name)
  return initializers.insert tensor.name tensor

/-- Resolves the inputs of the predict net by the tensors of the initializer net. -/
def FlatNet.join (options : LoadOptions) (predict init : Net) : Except LoadError FlatNet := do
  let initLayout ← init.layout
  let predictLayout ← predict.layout
  let initializers ← init.operators.foldlM (addInitializer options initLayout) ∅
  let operators ← predict.operators.mapM (FlatOp.ofOperator predictLayout initializers)
  return { operators, initializers, initLayout, predictLayout }

end NetLowering
