import NetLowering.Proofs.Lowering.Integers
import NetLowering.Proofs.Lowering.Names

/-!
# The ends of a lowered graph

A graph that is lowered has one input and one output.  The input has the code that the
options ask for.  The output may be any operand that bears a name, a filter or a bias as
well, since the last operator of a net may be a softmax that is skipped.  But only tensors
bear names, so the output is never one of the scalars that operators bring along.
-/

namespace NetLowering

open Checked

/-- The codes of tensors; the others are those of scalars. -/
def OperandCode.isTensor : OperandCode → Bool
  | .float32 | .int32 | .uint32 => false
  | .tensorFloat32 | .tensorInt32 | .tensorQuant8Asymm | .tensorQuant8SymmPerChannel
  | .tensorQuant8AsymmSigned => true

namespace Graph

/-- The graph has these operands at its ends and no others. -/
structure HasEnds (graph : Graph) (input output : Operand) : Prop where
  inputs : graph.inputs.map graph.operand? = [some input]
  outputs : graph.outputs.map graph.operand? = [some output]

/-! ## Only tensors bear names -/

def NamesTensors (graph : Graph) : Prop :=
  ∀ operand ∈ graph.operands, operand.name.isSome → operand.type.code.isTensor = true

variable {graph next : Graph} {names : List String} {aliases : List (String × String)}

theorem NamesTensors.addLayer {layer : Layer} (hbefore : graph.NamesTensors)
    (hadded : graph.addLayer layer = .ok next)
    (hparams : ∀ param ∈ layer.params, param.name.isSome → param.type.code.isTensor = true)
    (houtput : ∀ name type, layer.output = .ok (name, type) → type.code.isTensor = true) :
    next.NamesTensors := by
  obtain ⟨_, name, type, -, hwritten, -⟩ := addLayer_eq_ok_iff.mp hadded
  intro operand hoperand
  rw [operands_of_addLayer hadded hwritten] at hoperand
  simp only [List.mem_append, List.mem_map, List.mem_singleton] at hoperand
  rcases hoperand with (hearlier | ⟨param, hparam, rfl⟩) | rfl
  · exact hbefore operand hearlier
  · exact hparams param hparam
  · exact fun _ => houtput name type hwritten

theorem NamesTensors.isTensor_of_named {name : String} {id : OperandId} {operand : Operand}
    (htensors : graph.NamesTensors) (hnames : graph.Names names aliases)
    (hnamed : graph.tensorIds.find? name = some id) (hoperand : graph.operand? id = some operand) :
    operand.type.code.isTensor = true := by
  obtain ⟨found, bears, hfound, hbears, -⟩ := hnames.leads name id hnamed
  cases hoperand.symm.trans hfound
  exact htensors operand (mem_of_operand? hoperand) (Option.isSome_iff_exists.mpr ⟨bears, hbears⟩)

theorem NamesTensors.isTensor_of_feed {tensor : Tensor} {feed : Feed}
    (htensors : graph.NamesTensors) (hnames : graph.Names names aliases)
    (hfeed : graph.feed tensor = .ok feed) : feed.type.code.isTensor = true := by
  obtain ⟨hnamed, ⟨operand, hoperand, htype⟩, -⟩ := feed_eq_ok_iff.mp hfeed
  exact htype ▸ htensors.isTensor_of_named hnames hnamed hoperand

end Graph

variable {options : LoweringOptions} {operator : FlatOp} {net : FlatNet} {graph next : Graph}

theorem Convolution.isTensor_of_weights {convolution : Convolution}
    (hread : ofOperator options graph operator = .ok convolution)
    (himage : convolution.input.type.code.isTensor = true) :
    convolution.filter.type.code.isTensor = true ∧
      convolution.bias.param.type.code.isTensor = true := by
  obtain ⟨_, _, _, filter, -, -, -, -, hfilter, hparam, hbias, -⟩ := ofOperator_eq_ok hread
  rw [(Filter.filterOf_param hfilter hparam).code, (Bias.biasOf_param hbias).code]
  constructor
  · split
    · rfl
    · exact himage
  · split <;> rfl

theorem FlatOp.Grows.namesTensors {names : List String} {aliases : List (String × String)}
    (hgrows : operator.Grows options graph next) (hnames : graph.Names names aliases)
    (hbefore : graph.NamesTensors) : next.NamesTensors := by
  have hscalars (numbers : List Int32) : ∀ param ∈ numbers.map Param.int,
      param.name.isSome → param.type.code.isTensor = true := by
    intro param hparam hname
    obtain ⟨number, -, rfl⟩ := List.mem_map.mp hparam
    cases hname
  cases hgrows with
  | convolution convolution htype hread hadded =>
      obtain ⟨_, -, hfeed⟩ := Convolution.input_of_ofOperator hread
      have himage := hbefore.isTensor_of_feed hnames hfeed
      obtain ⟨hfilter, hbias⟩ := Convolution.isTensor_of_weights hread himage
      refine hbefore.addLayer hadded ?_ fun name type houtput => ?_
      · simp only [Convolution.layer, Convolution.params, List.forall_mem_cons]
        exact ⟨fun _ => hfilter, fun _ => hbias, hscalars _⟩
      · rw [(Convolution.takesAfter hread houtput).code]
        exact himage
  | pooling pooling htype hread hadded =>
      obtain ⟨_, -, hfeed⟩ := Pooling.input_of_ofOperator hread
      refine hbefore.addLayer hadded (hscalars _) fun name type houtput => ?_
      rw [(Pooling.takesAfter hread houtput).code]
      exact hbefore.isTensor_of_feed hnames hfeed
  | skipped _ _ _ _ _ _ _ _ hnamed =>
      obtain ⟨-, rfl⟩ := Graph.nameAs_eq_ok_iff.mp hnamed
      exact hbefore
  | softmax source name input image _ _ _ _ hfound htyped hadded =>
      obtain ⟨operand, hoperand, rfl⟩ := Graph.typeOf_eq_ok_iff.mp htyped
      have hbeta : ∀ param ∈ (Softmax.layer options operator source.name input operand.type).params,
          param.name.isSome → param.type.code.isTensor = true := by
        simp [Softmax.layer, Param.single]
      refine hbefore.addLayer hadded hbeta fun _ type houtput => ?_
      rw [(Softmax.takesAfter houtput).code]
      exact hbefore.isTensor_of_named hnames hfound hoperand

/-! ## Ends -/

/-- While a graph grows it begins with the input that the options ask for, and its names lead to
tensors. -/
structure Graph.Midway (graph : Graph) (options : LoweringOptions) : Prop where
  begins : ∃ input, graph.operand? (.own 0) = some input ∧
    input.type.code = if options.quantized then options.quantCode else .tensorFloat32
  names : ∃ names aliases, graph.Names names aliases
  tensors : graph.NamesTensors

theorem Graph.Midway.grows (hbefore : graph.Midway options)
    (hgrows : operator.Grows options graph next) : next.Midway options := by
  obtain ⟨⟨input, hinput, hcode⟩, ⟨_, _, hnames⟩, htensors⟩ := hbefore
  exact ⟨⟨input, hgrows.extends.operand? hinput, hcode⟩,
    ⟨_, _, hnames.contributes hgrows.contributes⟩, hgrows.namesTensors hnames htensors⟩

namespace FlatNet

theorem midway_startGraph {type : OperandType} (name : String)
    (htype : options.inputType operator = .ok type) : (startGraph name type).Midway options where
  begins := ⟨⟨some name, type⟩, rfl, LoweringOptions.code_of_inputType htype⟩
  names := ⟨_, _, names_startGraph name type⟩
  tensors := by
    intro operand hoperand _
    cases List.mem_singleton.mp hoperand
    rw [LoweringOptions.code_of_inputType htype, LoweringOptions.quantCode]
    split
    · split <;> rfl
    · rfl

/-- A graph that is lowered begins with the input that the options ask for and ends with a
tensor. -/
theorem ends_of_lower (hlower : net.lower options = .ok graph) :
    ∃ input output, graph.HasEnds input output ∧
      input.type.code = (if options.quantized then options.quantCode else .tensorFloat32) ∧
      output.type.code.isTensor = true := by
  obtain ⟨grown, name, id, ⟨⟨input, hinput, hcode⟩, ⟨_, _, hnames⟩, htensors⟩, hnamed, rfl⟩ :=
    lower_preserves_from_input (Graph.Midway · options) hlower
      (fun _ name _ htype => midway_startGraph name htype)
      fun _ _ _ _ hbefore hgrows => hbefore.grows hgrows
  obtain ⟨output, _, houtput, -⟩ := hnames.leads name id hnamed
  refine ⟨input, output, ⟨?_, ?_⟩, hcode, htensors.isTensor_of_named hnames hnamed houtput⟩
  · exact congrArg (fun found => [found]) hinput
  · exact congrArg (fun found => [found]) houtput

end FlatNet

end NetLowering
