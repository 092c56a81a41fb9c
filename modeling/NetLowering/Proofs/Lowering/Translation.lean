import NetLowering.Proofs.Lowering.Contributions
import NetLowering.Proofs.Lowering.RequiredOps
import NetLowering.Proofs.Lowering.SingleAssignment

/-!
# The shape of a lowered graph

Operators become operations one by one and in order, but for the softmaxes that
are skipped.  Every operation comes with a block of operands of its own, as many
as its code says, numbered one after another and ending with its output; the
blocks, one behind the other, are all that there is besides the input.
-/

namespace NetLowering

/-- The operands that an operation comes with: its parameters and then its output. -/
def Operation.block (operation : Operation) : List OperandId :=
  operation.inputs.tail ++ operation.outputs

namespace Graph

def count (graph : Graph) (code : OperationCode) : Nat :=
  graph.operations.countP (·.code == code)

variable {graph next : Graph}

theorem ids_of_addLayer {layer : Layer} (hadded : graph.addLayer layer = .ok next) :
    next.ids = graph.ids ++ (layer.operation graph).block := by
  obtain ⟨_, name, type, -, houtput, -⟩ := addLayer_eq_ok_iff.mp hadded
  rw [ids, operands_of_addLayer hadded houtput, ids, Operation.block, Layer.operation, nextIds]
  simp [List.range_eq_range', ← List.range'_append_1, List.range'_1_concat]

theorem find?_output_of_addLayer {layer : Layer} {name : String} {type : OperandType}
    (hadded : graph.addLayer layer = .ok next) (houtput : layer.output = .ok (name, type)) :
    next.tensorIds.find? name = some (.own (graph.operands.length + layer.params.length)) := by
  obtain ⟨withParams, _, _, hparams, hwritten, -, -, rfl⟩ := addLayer_eq_ok_iff.mp hadded
  cases houtput.symm.trans hwritten
  rw [withResult, Table.find?_insert, if_pos rfl, eq_foldl_of_addParams hparams, nextId_eq,
    operands_foldl_withParam, List.length_append, List.length_map]

end Graph

/-- What has become of an operator in a graph. -/
structure FlatOp.Becomes (operator : FlatOp) (options : LoweringOptions) (graph : Graph)
    (operation : Operation) : Prop where
  code : operator.AsksFor operation.code
  image : ∃ source id, operator.inputs.head? = some source ∧
    graph.tensorIds.find? source.name = some id ∧ operation.inputs.head? = some id
  result : ∃ name id, operator.outputs.head? = some name ∧
    graph.tensorIds.find? name = some id ∧ operation.outputs = [id]
  footprint : operation.block.length = operation.code.footprint
  /-- In its moment the operator has added the operation and the operands of its block. -/
  created : ∃ before after, operator.lower options before = .ok after ∧ after.Extends graph ∧
    after.operations = before.operations ++ [operation] ∧ after.ids = before.ids ++ operation.block

namespace FlatOp

variable {operator : FlatOp} {options : LoweringOptions} {graph next : Graph}

theorem Becomes.mono {operation : Operation} (hextends : graph.Extends next)
    (hbecomes : operator.Becomes options graph operation) :
    operator.Becomes options next operation := by
  obtain ⟨hcode, ⟨source, image, hread, hsource, himage⟩, ⟨name, output, hwritten, hname, houtput⟩,
    hfootprint, before, after, hlower, hafter, hcreated⟩ := hbecomes
  exact ⟨hcode, ⟨source, image, hread, hextends.named _ _ hsource, himage⟩,
    ⟨name, output, hwritten, hextends.named _ _ hname, houtput⟩, hfootprint, before, after, hlower,
    hafter.trans hextends, hcreated⟩

theorem Lays.becomes {layer : Layer} (hlays : operator.Lays graph layer)
    (hadded : graph.addLayer layer = .ok next) (hlower : operator.lower options graph = .ok next) :
    operator.Becomes options next (layer.operation graph) := by
  obtain ⟨_, name, type, -, houtput, -⟩ := Graph.addLayer_eq_ok_iff.mp hadded
  obtain ⟨source, hread, hfound⟩ := hlays.input
  refine ⟨hlays.code,
    ⟨source, layer.input, hread, (Graph.extends_addLayer hadded).named _ _ hfound, rfl⟩,
    ⟨name, _, hlays.output name type houtput, Graph.find?_output_of_addLayer hadded houtput, rfl⟩,
    ?_, graph, next, hlower, .refl next, Graph.operations_of_addLayer hadded,
    Graph.ids_of_addLayer hadded⟩
  simpa [Operation.block, Layer.operation, Graph.nextIds] using hlays.footprint

end FlatOp

/-- Operations that operators have become have as many operands as their codes say. -/
theorem length_blocks {operators : List FlatOp} {options : LoweringOptions} {graph : Graph}
    {operations : List Operation}
    (hbecome : List.Forall₂ (fun operator operation => operator.Becomes options graph operation)
      operators operations) :
    (operations.flatMap Operation.block).length =
      10 * operations.countP (·.code == .conv2d) +
        11 * operations.countP (·.code == .depthwiseConv2d) +
        10 * operations.countP (·.code == .averagePool2d) +
        2 * operations.countP (·.code == .softmax) := by
  induction hbecome with
  | nil => rfl
  | @cons _ operation _ _ hfirst _ ih =>
      rw [List.flatMap_cons, List.length_append, hfirst.footprint, ih]
      cases hcode : operation.code <;>
        simp [hcode, OperationCode.footprint] <;> omega

namespace FlatNet

variable {net : FlatNet} {options : LoweringOptions} {graph next : Graph}

/-- The graph holds what these operators have become, and nothing else but the input. -/
structure Translates (net : FlatNet) (options : LoweringOptions) (operators : List FlatOp)
    (graph : Graph) : Prop where
  input : ∃ name, net.inputName? = some name ∧ graph.tensorIds.find? name = some (.own 0)
  operations : List.Forall₂ (fun operator operation => operator.Becomes options graph operation)
    (operators.filter fun operator => ¬operator.IsSkipped options) graph.operations
  blocks : graph.ids = .own 0 :: graph.operations.flatMap Operation.block

theorem Translates.lower {done : List FlatOp} {operator : FlatOp}
    (htranslates : net.Translates options done graph)
    (hlower : operator.lower options graph = .ok next) :
    net.Translates options (done ++ [operator]) next := by
  have hextends := (FlatOp.grows_of_lower hlower).extends
  obtain ⟨⟨name, hname, hinput⟩, hoperations, hblocks⟩ := htranslates
  -- What the operators before it have become is not changed by this one.
  have hmoved := hoperations.imp fun _ _ => FlatOp.Becomes.mono hextends
  refine ⟨⟨name, hname, hextends.named _ _ hinput⟩, ?_, ?_⟩
  · rw [List.filter_append]
    cases FlatOp.contributes_of_lower hlower with
    | layer hkept layer hlays hadded =>
        rw [Graph.operations_of_addLayer hadded]
        refine List.rel_append hmoved ?_
        simpa [hkept] using hlays.becomes hadded hlower
    | name hskipped _ _ _ _ _ _ hnamed =>
        obtain ⟨-, rfl⟩ := Graph.nameAs_eq_ok_iff.mp hnamed
        simpa [hskipped] using hmoved
  · cases FlatOp.contributes_of_lower hlower with
    | layer hkept layer hlays hadded =>
        rw [Graph.ids_of_addLayer hadded, Graph.operations_of_addLayer hadded, hblocks]
        simp
    | name hskipped _ _ _ _ _ _ hnamed =>
        obtain ⟨-, rfl⟩ := Graph.nameAs_eq_ok_iff.mp hnamed
        exact hblocks

/-- The shape of the graph that a net is lowered to. -/
structure Shaped (net : FlatNet) (options : LoweringOptions) (graph : Graph) : Prop where
  operations : List.Forall₂ (fun operator operation => operator.Becomes options graph operation)
    (net.operators.filter fun operator => ¬operator.IsSkipped options) graph.operations
  blocks : graph.ids = .own 0 :: graph.operations.flatMap Operation.block
  size : graph.operands.length = 1 + 10 * graph.count .conv2d +
    11 * graph.count .depthwiseConv2d + 10 * graph.count .averagePool2d + 2 * graph.count .softmax
  ascending : graph.requiredOps.Pairwise fun left right => left.number < right.number
  required : ∀ code, code ∈ graph.requiredOps ↔
    ∃ operation ∈ graph.operations, operation.code = code
  inputs : ∃ name id, net.inputName? = some name ∧ graph.tensorIds.find? name = some id ∧
    graph.inputs = [id]
  outputs : ∃ name id, net.outputName? = some name ∧ graph.tensorIds.find? name = some id ∧
    graph.outputs = [id]

/-- The graph of a net that is lowered is the net's operators, one operation for each. -/
theorem lower_shaped (hlower : net.lower options = .ok graph) : net.Shaped options graph := by
  have hlists := listsCodes_of_lower hlower
  obtain ⟨grown, name, output, ⟨⟨source, hsource, hinput⟩, hoperations, hblocks⟩, hname, houtput,
    rfl⟩ := lower_follows (net.Translates options) hlower
      (fun name type hname => ⟨⟨name, hname, by simp [startGraph]⟩, .nil, rfl⟩)
      fun _ _ _ _ hbefore hstep => hbefore.lower hstep
  have hkept := hoperations.imp fun _ _ =>
    FlatOp.Becomes.mono (grown.extends_withEnds [.own 0] [output])
  -- The blocks leave out no operand but the input, so it is enough to count theirs.
  have hsize : grown.operands.length = (grown.operations.flatMap Operation.block).length + 1 := by
    rw [← List.length_cons, ← hblocks, Graph.ids, List.length_map, List.length_range]
  rw [length_blocks hoperations] at hsize
  exact {
    operations := hkept
    blocks := hblocks
    size := by
      simp only [Graph.count]
      omega
    ascending := hlists.ascending
    required := fun _ => hlists.mem_requiredOps_iff
    inputs := ⟨source, .own 0, hsource, hinput, rfl⟩
    outputs := ⟨name, output, hname, houtput, rfl⟩ }

theorem lower_shaped_threeLayers :
    ∃ graph, threeLayers.lower { inputSize := [3, 2, 1], softmax := .emit } = .ok graph ∧
      graph.operands.length = 23 ∧
      threeLayers.Shaped { inputSize := [3, 2, 1], softmax := .emit } graph := by
  have hlength : (fun graph : Graph => graph.operands.length) <$>
      threeLayers.lower { inputSize := [3, 2, 1], softmax := .emit } = .ok 23 := by
    rfl
  obtain ⟨graph, hlower, hoperands⟩ := Checked.map_eq_ok_iff.mp hlength
  exact ⟨graph, hlower, hoperands, lower_shaped hlower⟩

end FlatNet

end NetLowering
