import NetLowering.Proofs.Lowering.Translation

/-!
# What the operations of a lowered graph read and write

The operation that an operator has become is a layer, laid in the moment of the operator
on a graph that the finished one extends (`FlatOp.Becomes.convolution`,
`FlatOp.Becomes.pooling`).  So the finished graph tells what the layer was made of: its
image, its parameters with their values, and its output.
-/

namespace NetLowering

open Checked

namespace Graph

/-- What is bound to the operand that an operation takes at this place. -/
def valueAt? (graph : Graph) (operation : Operation) (place : Nat) : Option Buffer :=
  operation.inputs[place]?.bind graph.values.find?

/-- The operand that an operation writes. -/
def output? (graph : Graph) (operation : Operation) : Option Operand :=
  operation.outputs.head?.bind graph.operand?

/-! ## Parameters -/

/-- The operand is the parameter's and bound to its value. -/
structure Holds (graph : Graph) (id : OperandId) (param : Param) : Prop where
  operand : graph.operand? id = some param.operand
  value : graph.values.find? id = some param.value

variable {graph next later before : Graph} {layer : Layer} {operation : Operation}

theorem Holds.mono {id : OperandId} {param : Param} (hextends : graph.Extends next)
    (hholds : graph.Holds id param) : next.Holds id param :=
  ⟨hextends.operand? hholds.operand, hextends.bound _ _ hholds.value⟩

theorem holds_withParam (graph : Graph) (param : Param) :
    (graph.withParam param).Holds graph.nextId param where
  operand := operand?_push_nextId graph param.operand
  value := by simp [withParam, Table.find?_insert]

theorem holds_of_addParams {params : List Param}
    (hadded : params.foldlM addParam graph = .ok next) :
    List.Forall₂ next.Holds (graph.nextIds params.length) params := by
  induction params generalizing graph with
  | nil => exact .nil
  | cons param params ih =>
      rw [List.foldlM_cons, bind_eq_ok_iff] at hadded
      obtain ⟨middle, hparam, hrest⟩ := hadded
      obtain ⟨-, rfl⟩ := addParam_eq_ok_iff.mp hparam
      have hids : graph.nextIds (params.length + 1) =
          graph.nextId :: (graph.withParam param).nextIds params.length := by
        simp [nextIds, withParam, List.range'_succ]
      rw [List.length_cons, hids]
      exact .cons ((holds_withParam graph param).mono (extends_addParams hrest)) (ih hrest)

/-! ## Layers -/

/-- The operation is this layer, laid on the earlier graph, and nothing of it has been lost. -/
structure Keeps (graph : Graph) (operation : Operation) (before : Graph) (layer : Layer) :
    Prop where
  added : ∃ after, before.addLayer layer = .ok after ∧ after.Extends graph
  operation : operation = layer.operation before

theorem Keeps.extends (hkeeps : graph.Keeps operation before layer) : before.Extends graph := by
  obtain ⟨after, hadded, hextends⟩ := hkeeps.added
  exact (extends_addLayer hadded).trans hextends

namespace Keeps

theorem holds (hkeeps : graph.Keeps operation before layer) :
    List.Forall₂ graph.Holds operation.inputs.tail layer.params := by
  obtain ⟨⟨after, hadded, hextends⟩, rfl⟩ := hkeeps
  obtain ⟨withParams, name, type, hparams, -, hfresh, -, rfl⟩ := addLayer_eq_ok_iff.mp hadded
  have hstays := (extends_withResult hfresh).trans hextends
  exact (holds_of_addParams hparams).imp fun _ _ => Holds.mono hstays

theorem holdsAt (hkeeps : graph.Keeps operation before layer) {place : Nat} {param : Param}
    (hparam : layer.params[place]? = some param) :
    ∃ id, operation.inputs[place + 1]? = some id ∧ graph.Holds id param := by
  have hholds := hkeeps.holds
  rw [List.forall₂_iff_get] at hholds
  obtain ⟨hlength, hall⟩ := hholds
  obtain ⟨hplace, rfl⟩ := List.getElem?_eq_some_iff.mp hparam
  refine ⟨operation.inputs.tail[place], ?_, hall place (hlength ▸ hplace) hplace⟩
  rw [← List.getElem?_tail, List.getElem?_eq_getElem]

theorem operandAt?_param (hkeeps : graph.Keeps operation before layer) {place : Nat} {param : Param}
    (hparam : layer.params[place]? = some param) :
    graph.operandAt? operation (place + 1) = some param.operand := by
  obtain ⟨id, hid, hholds⟩ := hkeeps.holdsAt hparam
  rw [operandAt?, hid, Option.bind_some, hholds.operand]

theorem valueAt?_param (hkeeps : graph.Keeps operation before layer) {place : Nat} {param : Param}
    (hparam : layer.params[place]? = some param) :
    graph.valueAt? operation (place + 1) = some param.value := by
  obtain ⟨id, hid, hholds⟩ := hkeeps.holdsAt hparam
  rw [valueAt?, hid, Option.bind_some, hholds.value]

theorem image (hkeeps : graph.Keeps operation before layer) {tensor : Tensor} {feed : Feed}
    (hfeed : before.feed tensor = .ok feed) (hinput : layer.input = feed.id) :
    ∃ operand, graph.operandAt? operation 0 = some operand ∧
      operand.type.dims = feed.axes.toList := by
  obtain ⟨-, ⟨operand, hoperand, htype⟩, haxes⟩ := feed_eq_ok_iff.mp hfeed
  refine ⟨operand, ?_, ?_⟩
  · rw [operandAt?, hkeeps.operation, Layer.operation, List.getElem?_cons_zero, Option.bind_some,
      hinput]
    exact hkeeps.extends.operand? hoperand
  · rw [htype]
    exact Axes.ofDims_eq_ok_iff.mp haxes

theorem output (hkeeps : graph.Keeps operation before layer) :
    ∃ name type, layer.output = .ok (name, type) ∧
      graph.output? operation = some ⟨some name, type⟩ := by
  obtain ⟨⟨after, hadded, hextends⟩, rfl⟩ := hkeeps
  obtain ⟨_, name, type, -, houtput, -⟩ := addLayer_eq_ok_iff.mp hadded
  refine ⟨name, type, houtput, ?_⟩
  rw [output?, Layer.operation, List.head?_cons, Option.bind_some]
  exact hextends.operand? (operand?_output_of_addLayer hadded houtput)

end Keeps

end Graph

/-! ## Operators -/

variable {options : LoweringOptions} {operator : FlatOp} {graph : Graph} {operation : Operation}

theorem FlatOp.Grows.pooling_of_type {before after : Graph}
    (hgrows : operator.Grows options before after) (htype : operator.type = "Int8AveragePool") :
    ∃ pooling, Pooling.ofOperator before operator = .ok pooling ∧
      before.addLayer (pooling.layer options operator) = .ok after := by
  cases hgrows with
  | convolution _ hother => simp [htype] at hother
  | pooling pooling _ hread hadded => exact ⟨pooling, hread, hadded⟩
  | skipped _ _ _ hother => simp [htype] at hother
  | softmax _ _ _ _ hother => simp [htype] at hother

namespace FlatOp.Becomes

theorem convolution (hbecomes : operator.Becomes options graph operation)
    (hconvolves : operator.Convolves) :
    ∃ before convolution, Convolution.ofOperator options before operator = .ok convolution ∧
      graph.Keeps operation before (convolution.layer options operator) := by
  obtain ⟨before, after, hlower, hextends, hoperations, -⟩ := hbecomes.created
  obtain ⟨convolution, hread, hadded⟩ :=
    (grows_of_lower hlower).convolution_of_convolves hconvolves
  rw [Graph.operations_of_addLayer hadded] at hoperations
  simp only [List.append_cancel_left_eq, List.cons.injEq, and_true] at hoperations
  exact ⟨before, convolution, hread, ⟨after, hadded, hextends⟩, hoperations.symm⟩

theorem pooling (hbecomes : operator.Becomes options graph operation)
    (htype : operator.type = "Int8AveragePool") :
    ∃ before pooling, Pooling.ofOperator before operator = .ok pooling ∧
      graph.Keeps operation before (pooling.layer options operator) := by
  obtain ⟨before, after, hlower, hextends, hoperations, -⟩ := hbecomes.created
  obtain ⟨pooling, hread, hadded⟩ := (grows_of_lower hlower).pooling_of_type htype
  rw [Graph.operations_of_addLayer hadded] at hoperations
  simp only [List.append_cancel_left_eq, List.cons.injEq, and_true] at hoperations
  exact ⟨before, pooling, hread, ⟨after, hadded, hextends⟩, hoperations.symm⟩

end FlatOp.Becomes

/-- Operation by operation, a lowered graph is what the operators of its net have become. -/
theorem FlatNet.becomes_of_lower {net : FlatNet} (hlower : net.lower options = .ok graph) :
    List.Forall₂ (fun operator operation => operator.Becomes options graph operation)
      (net.operators.filter fun operator => ¬operator.IsSkipped options) graph.operations := by
  obtain ⟨grown, name, output, htranslates, -, -, rfl⟩ :=
    lower_follows (net.Translates options) hlower
      (fun name type hname => ⟨⟨name, hname, by simp [startGraph]⟩, .nil, rfl⟩)
      fun _ _ _ _ hbefore hstep => hbefore.lower hstep
  exact htranslates.operations.imp fun _ _ =>
    FlatOp.Becomes.mono (grown.extends_withEnds [.own 0] [output])

end NetLowering
