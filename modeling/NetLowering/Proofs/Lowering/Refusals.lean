import NetLowering.Proofs.Lowering.Coherence

/-!
# What a net can be refused for

Lowering checks that the operands it mentions are there and that nothing is bound
twice.  These checks never fail: while a graph grows it stays coherent, and a
coherent graph passes them.  Whatever a net is refused for is a fault of the net or
of the options (`FlatNet.blames_lower`).
-/

namespace NetLowering

open Checked

/-- The fault is in the net or in the options, and not in how the graph was assembled. -/
@[simp] def LoweringError.External : LoweringError → Prop
  | .unknownOperand _ | .duplicateValue _ => False
  | _ => True

open LoweringError (External)

/-! ## Reading -/

namespace FlatOp

variable {α : Type} (operator : FlatOp)

@[simp] theorem blames_optional (name : String) (read : Value → Option α)
    (fault : Value → ArgumentFault) :
    Blames External (operator.optional name read fault) := by
  rw [optional]
  repeat' split
  all_goals simp [invalid]

@[simp] theorem blames_int? (name : String) : Blames External (operator.int? name) :=
  operator.blames_optional name _ _

@[simp] theorem blames_single? (name : String) : Blames External (operator.single? name) :=
  operator.blames_optional name _ _

@[simp] theorem blames_required (name : String) (found : Option α) :
    Blames External (operator.required name found) := by
  cases found <;> simp [required]

@[simp] theorem blames_input (index : Nat) : Blames External (operator.input index) := by
  rw [input]
  split <;> simp

@[simp] theorem blames_outputName : Blames External operator.outputName := by
  rw [outputName]
  split <;> simp

@[simp] theorem blames_activation : Blames External operator.activation := by
  simp only [activation, blames_bind_iff, blames_single?, true_and]
  intro max _ min _
  split <;> simp

@[simp] theorem blames_outputType (options : LoweringOptions) (code : OperandCode)
    (dims : List UInt32) (scale : Single) (zeroPoint : Int32) :
    Blames External (operator.outputType options code dims scale zeroPoint) := by
  rw [outputType]
  split <;> simp [outputQuant]

@[simp] theorem blames_group : Blames External operator.group := by
  simp only [group, blames_bind_iff, blames_int?, true_and]
  intro given _
  split <;> simp [invalid]

end FlatOp

@[simp] theorem Axes.blames_ofDims (tensor : String) (dims : List UInt32) :
    Blames External (ofDims tensor dims) := by
  unfold ofDims
  split <;> simp

namespace Extent

@[simp] theorem blames_ofOperator? (operator : FlatOp) (name sideName : String) :
    Blames External (ofOperator? operator name sideName) := by
  rw [ofOperator?, blames_bind_iff]
  refine ⟨operator.blames_optional name _ _, fun pair _ => ?_⟩
  split <;> simp

@[simp] theorem blames_checkPositive (extent : Extent) (operator : FlatOp) (name : String) :
    Blames External (extent.checkPositive operator name) := by
  rw [checkPositive]
  split <;> simp [FlatOp.invalid]

end Extent

@[simp] theorem Pads.blames_ofOperator (operator : FlatOp) :
    Blames External (ofOperator operator) := by
  have hgiven : Blames External (given operator) := by
    rw [given, blames_bind_iff]
    refine ⟨operator.blames_optional "pads" _ _, fun sides _ => ?_⟩
    split <;> simp
  simp only [ofOperator, blames_bind_iff, hgiven, true_and]
  intro pads _
  split <;> simp [FlatOp.invalid]

namespace Window

@[simp] theorem blames_ofOperator (operator : FlatOp) (defaultKernel : Option Extent) :
    Blames External (ofOperator operator defaultKernel) := by
  simp [ofOperator]

@[simp] theorem blames_outputAxes (window : Window) (operator : FlatOp) (input : Axes)
    (channels : UInt32) : Blames External (window.outputAxes operator input channels) := by
  simp only [outputAxes]
  repeat' split
  all_goals simp

end Window

/-! ## Convolutions, poolings and inputs -/

namespace Tensor

variable (tensor : Tensor)

@[simp] theorem blames_requireDims : Blames External tensor.requireDims := by
  rw [requireDims]
  split <;> simp

@[simp] theorem blames_requireData : Blames External tensor.requireData := by
  rw [requireData]
  split <;> simp

@[simp] theorem blames_requireScale : Blames External tensor.requireScale := by
  rw [requireScale]
  split <;> simp

@[simp] theorem blames_requireZeroPoint : Blames External tensor.requireZeroPoint := by
  rw [requireZeroPoint]
  split <;> simp

end Tensor

namespace Filter

@[simp] theorem blames_repack (tensor : String) (group : Int32) (dims : List UInt32)
    (values : Buffer) : Blames External (repack tensor group dims values) := by
  simp only [repack, blames_bind_iff, Axes.blames_ofDims, true_and]
  intro axes _
  split
  · simp
  · simpa using blames_mapError fun _ => trivial

@[simp] theorem blames_ofTensor (operator : FlatOp) (tensor : Tensor) (channels : UInt32) :
    Blames External (ofTensor operator tensor channels) := by
  simp only [ofTensor, blames_bind_iff, Tensor.blames_requireDims, Tensor.blames_requireData,
    FlatOp.blames_group, true_and]
  intro dims _ values _ group _
  repeat' split
  all_goals simp

@[simp] theorem blames_param (filter : Filter) (options : LoweringOptions) (tensor : Tensor)
    (input : OperandCode) : Blames External (filter.param options tensor input) := by
  have htype : Blames External (filter.type options tensor input) := by
    rw [Filter.type]
    repeat' split
    all_goals simp
  simp [param, htype]

end Filter

@[simp] theorem Bias.blames_ofTensor (options : LoweringOptions) (tensor filter : Tensor) :
    Blames External (ofTensor options tensor filter) := by
  have htype (dims : List UInt32) : Blames External (Bias.type options tensor filter dims) := by
    rw [Bias.type]
    repeat' split
    all_goals simp
  simp only [ofTensor, blames_bind_iff, Tensor.blames_requireDims, Tensor.blames_requireData,
    true_and]
  intro dims _ values _
  split <;> simp [htype]

@[simp] theorem OperatorKind.blames_ofType (type : String) : Blames External (ofType type) := by
  rw [ofType]
  split <;> simp

@[simp] theorem LoweringOptions.blames_inputType (options : LoweringOptions) (first : FlatOp) :
    Blames External (options.inputType first) := by
  have hdims : Blames External options.inputDims := by
    rw [inputDims]
    repeat' split
    all_goals simp
  simp only [inputType, blames_bind_iff, hdims, true_and]
  intro dims _
  repeat' split
  all_goals simp

/-! ## Assembling -/

namespace Graph

variable {graph next : Graph}

@[simp] theorem blames_resolve (graph : Graph) (name : String) :
    Blames External (graph.resolve name) := by
  rw [resolve]
  split <;> simp

theorem blames_typeOf {id : OperandId} (hcontains : graph.contains id = true) :
    Blames External (graph.typeOf id) := by
  obtain ⟨operand, hoperand⟩ := Option.isSome_iff_exists.mp hcontains
  simp [typeOf, hoperand]

@[simp] theorem blames_nameAs (graph : Graph) (name : String) (id : OperandId) :
    Blames External (graph.nameAs name id) := by
  rw [nameAs]
  split <;> simp

theorem blames_bindValue {id : OperandId} {value : Buffer} (hcontains : graph.contains id = true)
    (hfresh : graph.values.find? id = none) : Blames External (graph.bindValue id value) := by
  obtain ⟨operand, hoperand⟩ := Option.isSome_iff_exists.mp hcontains
  simp only [bindValue, hoperand, if_neg (Table.not_contains_iff.mpr hfresh)]
  split <;> simp

theorem blames_bindChannelQuant {id : OperandId} {quant : ChannelQuant}
    (hcontains : graph.contains id = true) (hfresh : graph.channelQuants.find? id = none) :
    Blames External (graph.bindChannelQuant id quant) := by
  rw [bindChannelQuant, if_neg (by simp [hcontains]), if_neg (Table.not_contains_iff.mpr hfresh)]
  exact blames_pure _

theorem blames_addOperand (hmeasured : graph.Measured) (operand : Operand) (value : Buffer) :
    Blames External (graph.addOperand operand (some value)) := by
  refine blames_bindValue ?_ (find?_nextId_of_binds hmeasured.known)
  rw [contains, operand?_push_nextId]
  rfl

theorem blames_addTensor {value : Option Buffer}
    (hadded : ∀ operand, Blames External (graph.addOperand operand value)) (name : String)
    (type : OperandType) : Blames External (graph.addTensor name type value) := by
  rw [addTensor]
  split <;> simp [hadded]

/-- Once it is added, the operand that comes next is there, and has no scales yet. -/
theorem blames_addParam (hmeasured : graph.Measured) (param : Param) :
    Blames External (graph.addParam param) := by
  have hquant (extended : Graph) (hoperands : extended.operands =
        graph.operands ++ [⟨param.name, param.type⟩])
      (hquants : extended.channelQuants = graph.channelQuants) (quant : ChannelQuant) :
      Blames External (extended.bindChannelQuant graph.nextId quant) := by
    refine blames_bindChannelQuant ?_ (hquants ▸ find?_nextId_of_binds hmeasured.quants)
    simp [contains_iff, OperandId.own, hoperands]
  rw [addParam]
  split
  · rename_i name hname
    rw [blames_bind_iff]
    refine ⟨blames_addTensor (blames_addOperand hmeasured · _) _ _, fun extended hextended => ?_⟩
    obtain ⟨-, _, hadded, rfl⟩ := addTensor_eq_ok_iff.mp hextended
    obtain ⟨-, -, rfl⟩ := addOperand_eq_ok_iff.mp hadded
    dsimp only
    split
    · refine hquant _ ?_ ?_ _
      · rw [hname]
      · rfl
    · exact blames_pure _
  · rename_i hname
    rw [blames_bind_iff]
    refine ⟨blames_addOperand hmeasured _ _, fun extended hextended => ?_⟩
    obtain ⟨-, -, rfl⟩ := addOperand_eq_ok_iff.mp hextended
    dsimp only
    split
    · refine hquant _ ?_ ?_ _
      · rw [hname]
      · rfl
    · exact blames_pure _

theorem blames_addLayer {layer : Layer} (hcoherent : graph.Coherent)
    (hinput : graph.contains layer.input = true) (houtput : Blames External layer.output) :
    Blames External (graph.addLayer layer) := by
  rw [addLayer, blames_bind_iff]
  constructor
  · refine blames_foldlM Measured ?_ hcoherent.measured
    intro state param _ hstate
    refine ⟨blames_addParam hstate param, fun after hafter => ?_⟩
    obtain ⟨hadmits, rfl⟩ := addParam_eq_ok_iff.mp hafter
    exact hstate.withParam hadmits
  intro withParams hparams
  rw [blames_bind_iff]
  refine ⟨houtput, fun output _ => ?_⟩
  obtain ⟨name, type⟩ := output
  simp only [blames_bind_iff]
  refine ⟨blames_addTensor (fun _ => blames_ok _) _ _, fun withOutput hadded => ?_⟩
  obtain ⟨-, _, hpushed, rfl⟩ := addTensor_eq_ok_iff.mp hadded
  cases hpushed
  -- The operation mentions its image, the parameters and the output, and all of them are there.
  have hlength : withParams.operands.length = graph.operands.length + layer.params.length := by
    simp [eq_foldl_of_addParams hparams, operands_foldl_withParam]
  rw [addOperation_eq_ok_iff.mpr ⟨?_, rfl⟩]
  · exact blames_ok _
  intro id hid
  simp only [List.mem_append, List.mem_cons, List.not_mem_nil, or_false, mem_nextIds_iff] at hid
  rw [contains_iff] at hinput ⊢
  simp only [push, List.length_append, List.length_singleton, hlength]
  rcases hid with (rfl | ⟨index, -, hindex, rfl⟩) | rfl
  · exact ⟨hinput.1, by omega⟩
  · exact ⟨rfl, by simp only [OperandId.own]; omega⟩
  · exact ⟨rfl, by simp [OperandId.own, hlength]⟩

theorem Coherent.blames_feed (hcoherent : graph.Coherent) (tensor : Tensor) :
    Blames External (graph.feed tensor) := by
  simp only [feed, blames_bind_iff, blames_resolve, Axes.blames_ofDims, blames_pure, true_and,
    implies_true, and_true]
  intro id hid
  exact blames_typeOf (hcoherent.contains_of_named (resolve_eq_ok_iff.mp hid))

theorem Coherent.contains_feed (hcoherent : graph.Coherent) {tensor : Tensor} {feed : Feed}
    (hfeed : graph.feed tensor = .ok feed) : graph.contains feed.id = true :=
  hcoherent.contains_of_named (feed_eq_ok_iff.mp hfeed).1

end Graph

/-! ## Operators -/

theorem Convolution.blames_ofOperator {options : LoweringOptions} {graph : Graph}
    (hcoherent : graph.Coherent) (operator : FlatOp) :
    Blames External (ofOperator options graph operator) := by
  simp [ofOperator, hcoherent.blames_feed]

theorem Pooling.blames_ofOperator {graph : Graph} (hcoherent : graph.Coherent)
    (operator : FlatOp) : Blames External (ofOperator graph operator) := by
  simp [ofOperator, isGlobal, hcoherent.blames_feed]

namespace FlatOp

variable {options : LoweringOptions} {graph : Graph}

theorem blames_lower (hcoherent : graph.Coherent) (operator : FlatOp) :
    Blames External (operator.lower options graph) := by
  have hconvolution : Blames External (do
      let convolution ← Convolution.ofOperator options graph operator
      graph.addLayer (convolution.layer options operator)) := by
    rw [blames_bind_iff]
    refine ⟨Convolution.blames_ofOperator hcoherent operator, fun convolution hread => ?_⟩
    obtain ⟨source, -, hfeed⟩ := Convolution.input_of_ofOperator hread
    exact Graph.blames_addLayer hcoherent (hcoherent.contains_feed hfeed)
      (by simp [Convolution.layer])
  rw [lower, blames_bind_iff]
  refine ⟨OperatorKind.blames_ofType _, fun kind _ => ?_⟩
  cases kind with
  | conv => exact hconvolution
  | convRelu => exact hconvolution
  | averagePool =>
      rw [blames_bind_iff]
      refine ⟨Pooling.blames_ofOperator hcoherent operator, fun pooling hread => ?_⟩
      obtain ⟨source, -, hfeed⟩ := Pooling.input_of_ofOperator hread
      exact Graph.blames_addLayer hcoherent (hcoherent.contains_feed hfeed)
        (by simp [Pooling.layer])
  | softmax =>
      simp only [Softmax.lower, blames_bind_iff, blames_input, blames_outputName,
        Graph.blames_resolve, true_and]
      intro source _ name _ input hfound
      split
      · exact Graph.blames_nameAs _ _ _
      · have hinput := hcoherent.contains_of_named (Graph.resolve_eq_ok_iff.mp hfound)
        rw [blames_bind_iff]
        refine ⟨Graph.blames_typeOf hinput, fun type _ => ?_⟩
        exact Graph.blames_addLayer hcoherent hinput (by simp [Softmax.layer])

end FlatOp

namespace FlatNet

variable {options : LoweringOptions}

theorem blames_inputGraph (options : LoweringOptions) (first : FlatOp) :
    Blames External (inputGraph options first) := by
  simp only [inputGraph, blames_bind_iff, FlatOp.blames_input, LoweringOptions.blames_inputType,
    true_and]
  intro source _ type _
  exact Graph.blames_addTensor (fun _ => blames_ok _) _ _

theorem blames_run {operators : List FlatOp} {start : Graph} (hstart : start.Coherent) :
    Blames External (operators.foldlM (FlatOp.lower options) start) := by
  refine blames_foldlM Graph.Coherent ?_ hstart
  intro state operator _ hstate
  exact ⟨FlatOp.blames_lower hstate operator, fun next hnext =>
    hstate.grows (FlatOp.grows_of_lower hnext)⟩

/-- A net is refused for a fault of its own or of the options, or not at all. -/
theorem blames_lower (options : LoweringOptions) (net : FlatNet) :
    Blames External (net.lower options) := by
  intro error hlower
  cases hfirst : net.operators.head? with
  | none =>
      rw [lower, hfirst] at hlower
      cases hlower
      trivial
  | some first =>
      obtain ⟨last, hlast⟩ : ∃ last, net.operators.getLast? = some last :=
        ⟨_, List.getLast?_eq_some_getLast (List.ne_nil_of_mem (List.mem_of_mem_head? hfirst))⟩
      cases hstart : inputGraph options first with
      | error fault =>
          simp only [lower, hfirst, hlast, hstart, error_bind, Except.error.injEq] at hlower
          exact hlower ▸ blames_inputGraph options first fault hstart
      | ok start =>
          cases hrun : net.operators.foldlM (FlatOp.lower options) start with
          | error fault =>
              simp only [lower, hfirst, hlast, hstart, hrun, ok_bind, error_bind,
                Except.error.injEq] at hlower
              exact hlower ▸ blames_run (coherent_of_inputGraph hstart) fault hrun
          | ok grown =>
              -- Once all operators have run, nothing is left that could be refused.
              obtain ⟨_, _, -, -, hok⟩ := lower_of_run hfirst hstart hrun
              cases hok.symm.trans hlower

end FlatNet

end NetLowering
