import NetLowering.Backend.Error
import NetLowering.Backend.Recording

/-!
# Models, compilations and executions

The reference backend checks every call and computes nothing: a computation
fills the outputs with zeros.  A model is filled until it is finished, then
compiled, and the compilation, finished in turn, is executed any number of
times.
-/

namespace NetLowering

open Recording

/-! ## Models -/

structure Model where
  supported : List OperationCode
  operands : List OperandType := []
  /-- The operands that have a value, each of them once. -/
  valued : List UInt32 := []
  inputs : List UInt32 := []
  outputs : List UInt32 := []
  finished : Bool := false
deriving DecidableEq

namespace Model

def ofOptions (options : ModelOptions) : Model := { supported := options.supported }

/-- The backend itself has no state but the log. -/
def create (options : ModelOptions) : Recording Unit Model := do
  record (.createModel options)
  return .ofOptions options

def operand (model : Model) (index : UInt32) : Except BackendError OperandType :=
  match model.operands[index.toNat]? with
  | some type => .ok type
  | none => .error (.unknownOperand index)

def checkUnfinished (model : Model) : Except BackendError Unit :=
  if model.finished then .error .alreadyFinished else .ok ()

def checkKnown (model : Model) (indices : List UInt32) : Except BackendError Unit :=
  match indices.find? fun index => model.operands.length ≤ index.toNat with
  | some index => .error (.unknownOperand index)
  | none => .ok ()

def addOperand (type : OperandType) : Recording Model UInt32 := do
  let model ← subject
  model.checkUnfinished
  let index := UInt32.ofNat model.operands.length
  change fun model => { model with operands := model.operands ++ [type] }
  record (.addOperand type index)
  return index

def setValue (index : UInt32) (value : Buffer) : Recording Model Unit := do
  let model ← subject
  model.checkUnfinished
  let type ← model.operand index
  if !type.code.accepts value.elemType then
    throw (.invalidOperand index (.valueType value.elemType type.code))
  if value.size ≠ type.elements then
    throw (.invalidOperand index (.valueCount value.size type.dims))
  change fun model => { model with valued := model.valued.insert index }
  if index ∈ model.valued then throw (.invalidOperand index .valueTwice)
  record (.setValue index value)

def setChannelQuant (index : UInt32) (quant : ChannelQuant) : Recording Model Unit := do
  let model ← subject
  model.checkUnfinished
  let type ← model.operand index
  if type.code ≠ .tensorQuant8SymmPerChannel then
    throw (.invalidOperand index (.notPerChannel type.code))
  if type.dims[quant.channelDim.toNat]?.map UInt32.toNat ≠ some quant.scales.length then
    throw (.invalidOperand index (.scaleCount quant.scales.length quant.channelDim type.dims))
  record (.setChannelQuant index quant)

def addOperation (code : OperationCode) (inputs outputs : List UInt32) :
    Recording Model Unit := do
  let model ← subject
  model.checkUnfinished
  if !model.supported.isEmpty && !model.supported.contains code then
    throw (.unsupportedOperation code)
  model.checkKnown (inputs ++ outputs)
  record (.addOperation code inputs outputs)

def identify (inputs outputs : List UInt32) : Recording Model Unit := do
  let model ← subject
  model.checkUnfinished
  model.checkKnown (inputs ++ outputs)
  change fun model => { model with inputs, outputs }
  record (.identify inputs outputs)

def perform : (request : Request) → Recording Model request.Answer
  | .addOperand type => addOperand type
  | .setValue index value => setValue index value
  | .setChannelQuant index quant => setChannelQuant index quant
  | .addOperation code inputs outputs => addOperation code inputs outputs
  | .identify inputs outputs => identify inputs outputs

def finish : Recording Model Unit := do
  (← subject).checkUnfinished
  change fun model => { model with finished := true }
  record .finish

end Model

/-- A model under recording, as a respondent with its log. -/
def recorded : Respondent (Model × List Call) := fun request => (Model.perform request).run

/-! ## Compilations -/

structure Compilation where
  inputs : List OperandType
  outputs : List OperandType
  preference : Preference := .fastSingleAnswer
  finished : Bool := false
deriving DecidableEq

def Model.resolveEnds (model : Model) : Except BackendError Compilation := do
  let inputs ← model.inputs.mapM model.operand
  let outputs ← model.outputs.mapM model.operand
  return { inputs, outputs }

/-- Recorded once the model is known to be finished, before its ends are looked up. -/
def Model.createCompilation : Recording Model Compilation := do
  let model ← subject
  if !model.finished then throw .notFinished
  record .createCompilation
  model.resolveEnds

namespace Compilation

def checkUnfinished (compilation : Compilation) : Except BackendError Unit :=
  if compilation.finished then .error .alreadyFinished else .ok ()

def setPreference (preference : Preference) : Recording Compilation Unit := do
  (← subject).checkUnfinished
  change fun compilation => { compilation with preference }
  record (.setPreference preference)

def finish : Recording Compilation Unit := do
  (← subject).checkUnfinished
  change fun compilation => { compilation with finished := true }
  record .finishCompilation

end Compilation

/-! ## Executions -/

structure Execution where
  inputTypes : List OperandType
  outputTypes : List OperandType
  /-- The inputs that have been set, by index. -/
  inputs : List (Option Buffer)
  /-- The element types of the outputs that have been set, by index. -/
  outputs : List (Option ElemType)
  /-- The outputs of the last computation. -/
  results : List Buffer := []
deriving DecidableEq

def Compilation.createExecution : Recording Compilation Execution := do
  let compilation ← subject
  if !compilation.finished then throw .notFinished
  record .createExecution
  return {
    inputTypes := compilation.inputs
    outputTypes := compilation.outputs
    inputs := compilation.inputs.map fun _ => none
    outputs := compilation.outputs.map fun _ => none }

namespace Execution

/-- The type at an index, if the buffer fits it. -/
def checkBuffer (types : List OperandType) (index : UInt32) (buffer : Buffer) :
    Except BackendError Unit := do
  let some type := types[index.toNat]? | throw (.badIndex index)
  if !type.code.accepts buffer.elemType || buffer.size != type.elements then
    throw (.invalidOperand index (.bufferType buffer.elemType type))

def setInput (index : UInt32) (buffer : Buffer) : Recording Execution Unit := do
  checkBuffer (← subject).inputTypes index buffer
  change fun execution =>
    { execution with inputs := execution.inputs.set index.toNat (some buffer) }
  record (.setInput index buffer)

/-- Of an output buffer only the element type is kept. -/
def setOutput (index : UInt32) (buffer : Buffer) : Recording Execution Unit := do
  checkBuffer (← subject).outputTypes index buffer
  change fun execution =>
    { execution with outputs := execution.outputs.set index.toNat (some buffer.elemType) }
  record (.setOutput index)

def result (index : Nat) (output : Option ElemType) (type : OperandType) :
    Except BackendError Buffer :=
  match output with
  | some elem => .ok (.zeros elem type.elements)
  | none => .error (.outputNotSet index)

def zeros (execution : Execution) : Except BackendError (List Buffer) :=
  (execution.outputs.zip execution.outputTypes).zipIdx.mapM
    fun ((output, type), index) => result index output type

def startCompute : Recording Execution Unit := do
  let execution ← subject
  if let some index := execution.inputs.findIdx? Option.isNone then
    throw (.inputNotSet index)
  let results ← execution.zeros
  change fun execution => { execution with results }
  record .startCompute

def output? (execution : Execution) (index : UInt32) : Option Buffer :=
  execution.results[index.toNat]?

def output (index : UInt32) : Recording Execution (Option Buffer) :=
  return (← subject).output? index

end Execution

end NetLowering
