import NetLowering.Backend.Model
import NetLowering.Graph
import NetLowering.Lowering.Error

/-!
# Emitting a graph

A graph is replayed into a backend's model: operand types in order, then
values, then per-channel quantization, both in the order of their operands,
then operations, then the ends.  The model has to number operands as the graph
does; the first call that fails ends the replay.
-/

namespace NetLowering

inductive SessionError where
  | load (error : LoadError)
  | lowering (error : LoweringError)
  | backend (error : BackendError)
  | notCompiled
  /-- The model numbered an operand differently from the graph. -/
  | idMismatch (expected : Nat) (actual : UInt32)
  /-- A result has not the element type and size of the buffer it is meant for. -/
  | outputMismatch (index : Nat)
deriving DecidableEq

def SessionError.message : SessionError → String
  | .load error => s!"Load: {error.message}"
  | .lowering error => s!"Build: {error.message}"
  | .backend error => s!"Backend: {error.message}"
  | .notCompiled => "Model is not compiled yet"
  | .idMismatch expected actual =>
    s!"Backend returned operand index {actual}, expected {expected}"
  | .outputMismatch index => s!"Something went wrong: output {index} does not match its buffer"

namespace Graph

def indices (ids : List OperandId) : List UInt32 := ids.map (·.word)

variable {σ : Type}

def request (respond : Respondent σ) (request : Request) :
    ExceptT SessionError (StateM σ) request.Answer := fun state =>
  match respond request state with
  | (.ok answer, changed) => (.ok answer, changed)
  | (.error error, changed) => (.error (.backend error), changed)

def emitOperand (respond : Respondent σ) (operand : Operand) (expected : Nat) :
    ExceptT SessionError (StateM σ) Unit := do
  let actual : UInt32 ← request respond (.addOperand operand.type)
  if actual.toNat ≠ expected then throw (.idMismatch expected actual)

def emit (respond : Respondent σ) (graph : Graph) : ExceptT SessionError (StateM σ) Unit := do
  graph.operands.zipIdx.forM fun (operand, index) => emitOperand respond operand index
  graph.sortedValues.forM fun (id, value) => request respond (.setValue id.word value)
  graph.sortedQuants.forM fun (id, quant) => request respond (.setChannelQuant id.word quant)
  graph.operations.forM fun operation =>
    request respond
      (.addOperation operation.code (indices operation.inputs) (indices operation.outputs))
  request respond (.identify (indices graph.inputs) (indices graph.outputs))

end Graph

end NetLowering
