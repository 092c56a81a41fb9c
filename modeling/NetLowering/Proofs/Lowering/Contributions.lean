import NetLowering.Proofs.Lowering.FilterLayout
import NetLowering.Proofs.Lowering.Layers

/-!
# What an operator contributes

Every operator of a net that is lowered reads the operand that its first input
names.  It lays one layer on it or, if it is a softmax that is skipped, gives it
one more name (`FlatOp.Grows.contributes`).  A layer has as many operands as its
code says, and those that have names are the weights that the operator lists and
its output.
-/

namespace NetLowering

open Checked

/-- How many operands an operation of this code comes with, its output among them. -/
def OperationCode.footprint : OperationCode → Nat
  | .conv2d => 10
  | .depthwiseConv2d => 11
  | .averagePool2d => 10
  | .softmax => 2

theorem Filter.depthwise_iff_of_ofTensor {operator : FlatOp} {tensor : Tensor} {channels : UInt32}
    {filter : Filter} (hread : ofTensor operator tensor channels = .ok filter) :
    ∃ group, operator.group = .ok group ∧ (filter.depthwise = true ↔ 1 < group) := by
  obtain ⟨_, _, group, -, -, hgroup, ⟨hone, rfl⟩ | ⟨hgroups, hrepacked⟩⟩ := ofTensor_eq_ok hread
  · exact ⟨group, hgroup, by simp [hone]⟩
  · obtain ⟨_, _, _, _, -, -, -, rfl⟩ := repack_eq_ok hrepacked
    exact ⟨group, hgroup, by simp [hgroups]⟩

namespace FlatOp

instance (operator : FlatOp) : Decidable operator.Convolves := inferInstanceAs (Decidable (_ ∨ _))

/-- A softmax that is only one more name for its input. -/
def IsSkipped (operator : FlatOp) (options : LoweringOptions) : Prop :=
  operator.type = "Softmax" ∧ options.softmax = .skip

instance (operator : FlatOp) (options : LoweringOptions) :
    Decidable (operator.IsSkipped options) := inferInstanceAs (Decidable (_ ∧ _))

/-- What operation an operator asks for. -/
inductive AsksFor (operator : FlatOp) : OperationCode → Prop where
  | conv2d (convolves : operator.Convolves) {group : Int32} (read : operator.group = .ok group)
      (whole : ¬1 < group) : AsksFor operator .conv2d
  | depthwiseConv2d (convolves : operator.Convolves) {group : Int32}
      (read : operator.group = .ok group) (split : 1 < group) : AsksFor operator .depthwiseConv2d
  | averagePool2d (type : operator.type = "Int8AveragePool") : AsksFor operator .averagePool2d
  | softmax (type : operator.type = "Softmax") : AsksFor operator .softmax

/-- The names of the filter and the bias of a convolution. -/
def weights (operator : FlatOp) : List String :=
  if operator.Convolves then ((operator.inputs.drop 1).take 2).map (·.name) else []

/-- The layer is the one that the operator lays on what its first input names. -/
structure Lays (operator : FlatOp) (graph : Graph) (layer : Layer) : Prop where
  code : operator.AsksFor layer.code
  input : ∃ source, operator.inputs.head? = some source ∧
    graph.tensorIds.find? source.name = some layer.input
  weights : layer.params.filterMap Param.name = operator.weights
  output : ∀ name type, layer.output = .ok (name, type) → operator.outputs.head? = some name
  footprint : layer.params.length + 1 = layer.code.footprint

/-- What an operator does to a graph. -/
inductive Contributes (operator : FlatOp) (options : LoweringOptions) (graph next : Graph) :
    Prop where
  | layer (kept : ¬operator.IsSkipped options) (layer : Layer) (lays : operator.Lays graph layer)
      (added : graph.addLayer layer = .ok next)
  | name (skipped : operator.IsSkipped options) (source : Tensor) (name : String)
      (input : OperandId) (read : operator.inputs.head? = some source)
      (written : operator.outputs.head? = some name)
      (found : graph.tensorIds.find? source.name = some input)
      (named : graph.nameAs name input = .ok next)

variable {options : LoweringOptions} {operator : FlatOp} {graph next : Graph}

theorem head?_of_input {source : Tensor} (hread : operator.input 0 = .ok source) :
    operator.inputs.head? = some source := by
  rw [List.head?_eq_getElem?]
  exact input_eq_ok_iff.mp hread

theorem weights_of_convolves (hconvolves : operator.Convolves) {filter bias : Tensor}
    (hfilter : operator.inputs[1]? = some filter) (hbias : operator.inputs[2]? = some bias) :
    operator.weights = [filter.name, bias.name] := by
  have hlisted : (operator.inputs.drop 1).take 2 = [filter, bias] := by
    apply List.ext_getElem?
    intro place
    rcases place with _ | _ | place <;> simp [hfilter, hbias]
  rw [weights, if_pos hconvolves, hlisted]
  rfl

theorem weights_of_not_convolves (hother : ¬operator.Convolves) : operator.weights = [] :=
  if_neg hother

theorem lays_convolution {convolution : Convolution} (hconvolves : operator.Convolves)
    (hread : Convolution.ofOperator options graph operator = .ok convolution) :
    operator.Lays graph (convolution.layer options operator) := by
  obtain ⟨source, tensor, biasTensor, filter, hsource, htensor, hbiasTensor, hfeed, hfilter, hmade,
    hbias, hdepthwise⟩ := Convolution.ofOperator_eq_ok hread
  obtain ⟨group, hgroup, hsplit⟩ := Filter.depthwise_iff_of_ofTensor hfilter
  rw [← hdepthwise] at hsplit
  refine ⟨?_, ⟨source, List.head?_eq_getElem?.trans hsource, (Graph.feed_eq_ok_iff.mp hfeed).1⟩,
    ?_, ?_, ?_⟩
  · rw [Convolution.layer]
    by_cases hgroups : 1 < group
    · simpa [hsplit.mpr hgroups] using AsksFor.depthwiseConv2d hconvolves hgroup hgroups
    · simpa [mt hsplit.mp hgroups] using AsksFor.conv2d hconvolves hgroup hgroups
  · have hfilterName := (Filter.filterOf_param hfilter hmade).name
    have hbiasName := (Bias.biasOf_param hbias).name
    rw [weights_of_convolves hconvolves htensor hbiasTensor]
    simp [Convolution.layer, Convolution.params, hfilterName, hbiasName, Param.int]
  · intro name type houtput
    simp only [Convolution.layer, bind_eq_ok_iff, pure_eq_ok_iff, Prod.mk.injEq,
      outputName_eq_ok_iff] at houtput
    obtain ⟨-, -, -, -, _, hname, rfl, -⟩ := houtput
    exact hname
  · cases hdepth : convolution.depthwise <;>
      simp [Convolution.layer, Convolution.params, Window.placement, hdepth,
        OperationCode.footprint]

theorem lays_pooling {pooling : Pooling} (htype : operator.type = "Int8AveragePool")
    (hread : Pooling.ofOperator graph operator = .ok pooling) :
    operator.Lays graph (pooling.layer options operator) := by
  obtain ⟨source, hsource, hfeed⟩ := Pooling.input_of_ofOperator hread
  refine ⟨.averagePool2d htype, ⟨source, head?_of_input hsource, (Graph.feed_eq_ok_iff.mp hfeed).1⟩,
    ?_, ?_, by simp [Pooling.layer, Pooling.params, Window.placement, OperationCode.footprint]⟩
  · rw [weights_of_not_convolves (by simp [Convolves, htype])]
    simp [Pooling.layer, Pooling.params, Param.int]
  · intro name type houtput
    simp only [Pooling.layer, bind_eq_ok_iff, pure_eq_ok_iff, Prod.mk.injEq,
      outputName_eq_ok_iff] at houtput
    obtain ⟨-, -, -, -, _, hname, rfl, -⟩ := houtput
    exact hname

theorem lays_softmax {source : Tensor} {name : String} {input : OperandId} {type : OperandType}
    (htype : operator.type = "Softmax") (hread : operator.input 0 = .ok source)
    (hwritten : operator.outputName = .ok name)
    (hfound : graph.tensorIds.find? source.name = some input) :
    operator.Lays graph (Softmax.layer options operator name input type) := by
  refine ⟨.softmax htype, ⟨source, head?_of_input hread, hfound⟩, ?_, ?_, rfl⟩
  · rw [weights_of_not_convolves (by simp [Convolves, htype])]
    rfl
  · intro found output houtput
    simp only [Softmax.layer, bind_eq_ok_iff, pure_eq_ok_iff, Prod.mk.injEq] at houtput
    obtain ⟨_, -, rfl, -⟩ := houtput
    exact outputName_eq_ok_iff.mp hwritten

theorem Grows.contributes (hgrows : operator.Grows options graph next) :
    operator.Contributes options graph next := by
  cases hgrows with
  | convolution convolution htype hread hadded =>
      refine .layer ?_ _ (lays_convolution htype hread) hadded
      rcases htype with htype | htype <;> simp [IsSkipped, htype]
  | pooling pooling htype hread hadded =>
      exact .layer (by simp [IsSkipped, htype]) _ (lays_pooling htype hread) hadded
  | skipped source name input htype hpolicy hread hwritten hfound hnamed =>
      exact .name ⟨htype, hpolicy⟩ source name input (head?_of_input hread)
        (outputName_eq_ok_iff.mp hwritten) hfound hnamed
  | softmax source name input type htype hpolicy hread hwritten hfound htyped hadded =>
      exact .layer (by simp [IsSkipped, hpolicy]) _ (lays_softmax htype hread hwritten hfound)
        hadded

/-- What the first input of an operator is called is already named. -/
theorem Contributes.reads (hcontributes : operator.Contributes options graph next) :
    ∃ source id, operator.inputs.head? = some source ∧
      graph.tensorIds.find? source.name = some id := by
  cases hcontributes with
  | layer _ layer hlays _ =>
      obtain ⟨source, hread, hfound⟩ := hlays.input
      exact ⟨source, layer.input, hread, hfound⟩
  | name _ source _ input hread _ hfound _ => exact ⟨source, input, hread, hfound⟩

theorem contributes_of_lower (hlower : operator.lower options graph = .ok next) :
    operator.Contributes options graph next := (grows_of_lower hlower).contributes

end FlatOp

/-- What the start has and every operator carries on, the grown graph has of all operators. -/
theorem FlatNet.lower_follows {options : LoweringOptions} {net : FlatNet} {graph : Graph}
    (Holds : List FlatOp → Graph → Prop) (hlower : net.lower options = .ok graph)
    (hstart : ∀ name type, net.inputName? = some name → Holds [] (startGraph name type))
    (hstep : ∀ done operator before after, Holds done before →
      operator.lower options before = .ok after → Holds (done ++ [operator]) after) :
    ∃ grown name output, Holds net.operators grown ∧ net.outputName? = some name ∧
      grown.tensorIds.find? name = some output ∧
      graph = { grown with inputs := [.own 0], outputs := [output] } := by
  obtain ⟨first, last, start, grown, name, output, hfirst, hlast, hinput, hrun, hname, houtput,
    hgraph, -⟩ := lower_eq_ok_iff.mp hlower
  obtain ⟨source, type, hsource, -, rfl⟩ := inputGraph_eq_ok_iff.mp hinput
  refine ⟨grown, name, output, ?_, ?_, houtput, hgraph⟩
  · refine foldlM_follows Holds ?_ (hstart source.name type ?_) hrun
    · exact fun done before operator after => hstep done operator before after
    · simp [inputName?, hfirst, FlatOp.head?_of_input hsource]
  · simp [outputName?, hlast, FlatOp.outputName_eq_ok_iff.mp hname]

end NetLowering
