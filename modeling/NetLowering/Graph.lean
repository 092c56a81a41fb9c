import NetLowering.Operation
import NetLowering.Table

/-!
# Graphs

A graph is a list of operands, named by their places, and a list of operations
on them.  Some operands are bound to constant values, some are quantized per
channel, and named tensors refer to operands through a table.
-/

namespace NetLowering

structure Graph where
  operands : List Operand
  values : Table OperandId Buffer
  channelQuants : Table OperandId ChannelQuant
  operations : List Operation
  tensorIds : Table String OperandId
  inputs : List OperandId
  outputs : List OperandId
  /-- The codes that the operations have brought in, each of them once. -/
  required : List OperationCode
deriving DecidableEq

namespace Graph

def empty : Graph := ⟨[], ∅, ∅, [], ∅, [], [], []⟩

instance : Inhabited Graph := ⟨empty⟩

/-- The identifier that the next new operand gets. -/
def nextId (graph : Graph) : OperandId := .own graph.operands.length

def operand? (graph : Graph) (id : OperandId) : Option Operand :=
  if id.foreign then none else graph.operands[id.index]?

def contains (graph : Graph) (id : OperandId) : Bool := (graph.operand? id).isSome

/-- Puts an operation behind the others and its code among those required. -/
def withOperation (graph : Graph) (operation : Operation) : Graph :=
  { graph with
    operations := graph.operations ++ [operation]
    required := graph.required.insert operation.code }

/-- The required codes in ascending order. -/
def requiredOps (graph : Graph) : List OperationCode :=
  graph.required.mergeSort fun left right => left.number ≤ right.number

/-- Puts a binding before the first one whose place is not smaller. -/
def insertByPlace (binding : OperandId × α) : List (OperandId × α) → List (OperandId × α)
  | [] => [binding]
  | first :: rest =>
    if binding.1.index ≤ first.1.index then binding :: first :: rest
    else first :: insertByPlace binding rest

/-- Bindings by ascending places; those of one place stay in the order they are in. -/
def byPlace (bindings : List (OperandId × α)) : List (OperandId × α) :=
  bindings.foldr insertByPlace []

def sortedValues (graph : Graph) : List (OperandId × Buffer) := byPlace graph.values.entries

def sortedQuants (graph : Graph) : List (OperandId × ChannelQuant) :=
  byPlace graph.channelQuants.entries

/-- Every identifier that the graph mentions outside its tensor names. -/
def mentioned (graph : Graph) : List OperandId :=
  graph.operations.flatMap (fun operation => operation.inputs ++ operation.outputs) ++
    graph.values.keys ++ graph.channelQuants.keys ++ graph.inputs ++ graph.outputs

/-- The first identifier mentioned that names no operand of the graph. -/
def unknown? (graph : Graph) : Option OperandId :=
  graph.mentioned.find? fun id => !graph.contains id

theorem unknown?_eq_none_iff {graph : Graph} :
    graph.unknown? = none ↔ ∀ id ∈ graph.mentioned, graph.contains id := by
  simp [unknown?]

/-! ## Rendering -/

def renderOperand (graph : Graph) (index : Nat) (operand : Operand) : String :=
  let id := OperandId.own index
  s!"%{index}: {operand.type.render}" ++
    (operand.name.elim "" fun name => s!" {Text.quoted name}") ++
    ((graph.values.find? id).elim "" fun value => s!" = {value.render}") ++
    ((graph.channelQuants.find? id).elim "" fun quant =>
      s!" per_channel(dim={quant.channelDim.toNat}, scales={renderScales quant.scales})")

def renderEnds (graph : Graph) : String :=
  s!"inputs: {renderIds graph.inputs}, outputs: {renderIds graph.outputs}"

/-- One line for each operand and each operation, and one for the ends of the graph. -/
def lines (graph : Graph) : List String :=
  graph.operands.mapIdx graph.renderOperand ++ graph.operations.map Operation.render ++
    [graph.renderEnds]

def render (graph : Graph) : String := "\n".intercalate graph.lines

end Graph

end NetLowering
