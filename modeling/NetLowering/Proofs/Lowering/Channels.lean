import NetLowering.Proofs.Lowering.Consistency
import NetLowering.Proofs.Lowering.Grouping

/-!
# Output channels of a convolution

How many channels come out of a convolution is told three times: by the dimensions of its
bias, by the values of its bias, and by its filter or its groups.  Lowering goes by the
first dimension of the bias and does not compare it with the others.  So whether an
operation counts its channels alike is just whether the tensors of its operator do
(`FlatNet.lower_channels`).
-/

namespace NetLowering

open Checked

/-- The output of the operation has so many channels, and the bias has them as its first dimension.
To the bias are bound as many values as all its dimensions span in 64 bits. -/
structure Graph.FollowsBias (graph : Graph) (operation : Operation) (channels : UInt32) : Prop where
  output : ∃ output, graph.output? operation = some output ∧
    output.type.dims.getLast? = some channels
  bias : ∃ bias rest values, graph.operandAt? operation 2 = some bias ∧
    bias.type.dims = channels :: rest ∧ graph.valueAt? operation 2 = some values ∧
    values.size = channels.toNat * span (rest.map UInt32.toNat) % 2 ^ 64

/-- As many channels come out of the operation as values are bound to its bias, and as its filter
has. -/
def Graph.ChannelsAgree (graph : Graph) (operation : Operation) : Prop :=
  ∃ output filter values channels, graph.output? operation = some output ∧
    output.type.dims.getLast? = some channels ∧
    graph.valueAt? operation 2 = some values ∧ values.size = channels.toNat ∧
    graph.operandAt? operation 1 = some filter ∧
    filter.type.dims[operation.code.scaledDim.toNat]? = some channels

/-- The bias of the operator has as many values as its first dimension says, and there are as many
groups or, if there are not several, as many filters. -/
def FlatOp.StatesChannels (operator : FlatOp) : Prop :=
  ∃ filter bias values channels group, operator.inputs[1]? = some filter ∧
    operator.inputs[2]? = some bias ∧ operator.StatesGroup group ∧
    bias.dims?.bind List.head? = some channels ∧
    bias.data? = some values ∧ values.size = channels.toNat ∧
    (if 1 < group then some group.toUInt32 else filter.dims?.bind List.head?) = some channels

/-! ## Operators -/

variable {options : LoweringOptions} {operator : FlatOp} {graph before : Graph}
  {operation : Operation}

theorem Graph.Keeps.elements {layer : Layer} (hkeeps : graph.Keeps operation before layer)
    (hmeasured : graph.Measured) {place : Nat} {param : Param}
    (hparam : layer.params[place]? = some param) : param.type.elements = param.value.size := by
  obtain ⟨id, -, hoperand, hvalue⟩ := hkeeps.holdsAt hparam
  obtain ⟨operand, hfound, helements⟩ := hmeasured.values id _ hvalue
  cases hoperand.symm.trans hfound
  exact helements

theorem FlatOp.AsksFor.convolves {code : OperationCode} (hasks : operator.AsksFor code)
    (hcode : code = .conv2d ∨ code = .depthwiseConv2d) : operator.Convolves := by
  cases hasks with
  | conv2d hconvolves => exact hconvolves
  | depthwiseConv2d hconvolves => exact hconvolves
  | averagePool2d => simp at hcode
  | softmax => simp at hcode

namespace Convolution

variable {convolution : Convolution}

theorem followsBias_of_keeps (hread : ofOperator options before operator = .ok convolution)
    (hkeeps : graph.Keeps operation before (convolution.layer options operator))
    (hmeasured : graph.Measured) : graph.FollowsBias operation convolution.bias.channels := by
  obtain ⟨_, _, _, _, -, -, -, hfeed, -, -, hbias, -⟩ := ofOperator_eq_ok hread
  have hparam : (convolution.layer options operator).params[1]? = some convolution.bias.param := rfl
  constructor
  case output =>
    obtain ⟨_, output, after, -, -, hwritten, hdims, -, hchannels⟩ := hkeeps.maps hfeed rfl rfl
    refine ⟨output, hwritten, ?_⟩
    rw [hdims, ← hchannels]
    rfl
  case bias =>
    obtain ⟨rest, hdims⟩ := List.head?_eq_some_iff.mp (Bias.channels_of_ofTensor hbias)
    refine ⟨_, rest, _, hkeeps.operandAt?_param hparam, hdims, hkeeps.valueAt?_param hparam, ?_⟩
    rw [← hkeeps.elements hmeasured hparam, OperandType.elements_eq, hdims]
    rfl

/-- The filter is counted along the dimension of its output channels, which are the groups or the
filters of its tensor. -/
theorem filterChannels_of_keeps {tensor : Tensor} {filter : Filter} {channels : UInt32}
    {input : OperandCode} {group : Int32}
    (hfilter : Filter.ofTensor operator tensor channels = .ok filter)
    (hparam : filter.param options tensor input = .ok convolution.filter)
    (hdepthwise : convolution.depthwise = filter.depthwise)
    (hgroup : operator.group = .ok group)
    (hkeeps : graph.Keeps operation before (convolution.layer options operator)) :
    graph.operandAt? operation 1 = some convolution.filter.operand ∧
      convolution.filter.type.dims[operation.code.scaledDim.toNat]? =
        if 1 < group then some group.toUInt32 else tensor.dims?.bind List.head? := by
  refine ⟨hkeeps.operandAt?_param rfl, ?_⟩
  have hdim : operation.code.scaledDim = filter.channelDim := by
    rw [hkeeps.operation, Filter.channelDim, ← hdepthwise]
    cases hsplit : convolution.depthwise <;> simp [Layer.operation, layer, hsplit,
      OperationCode.scaledDim]
  obtain ⟨type, htype, hparam⟩ := bind_eq_ok_iff.mp hparam
  rw [pure_eq_ok_iff] at hparam
  rw [hparam, (Filter.type_eq_ok htype).1, hdim]
  exact Filter.outputChannels_eq hfilter hgroup

end Convolution

/-- A convolution has the channels of its bias, and counts them alike just if its tensors do. -/
theorem FlatOp.Becomes.channels (hbecomes : operator.Becomes options graph operation)
    (hconvolves : operator.Convolves) (hmeasured : graph.Measured) :
    (∃ channels, graph.FollowsBias operation channels) ∧
      (graph.ChannelsAgree operation ↔ operator.StatesChannels) := by
  obtain ⟨before, convolution, hread, hkeeps⟩ := hbecomes.convolution hconvolves
  obtain ⟨_, tensor, biasTensor, filter, -, htensor, hbiasTensor, -, hfilter, hparam, hbias,
    hdepthwise⟩ := Convolution.ofOperator_eq_ok hread
  obtain ⟨group, hgroup, -⟩ := Filter.depthwise_iff_of_ofTensor hfilter
  have hstates := (FlatOp.group_eq_ok_iff.mp hgroup).1
  have hfollows := Convolution.followsBias_of_keeps hread hkeeps hmeasured
  obtain ⟨output, houtput, hlast⟩ := hfollows.output
  obtain ⟨hoperand, hcounted⟩ :=
    Convolution.filterChannels_of_keeps hfilter hparam hdepthwise hgroup hkeeps
  have hbound : graph.valueAt? operation 2 = some convolution.bias.param.value :=
    hkeeps.valueAt?_param rfl
  have hhead : biasTensor.dims?.bind List.head? = some convolution.bias.channels := by
    rw [Bias.dims?_of_ofTensor hbias]
    exact Bias.channels_of_ofTensor hbias
  have hdata : biasTensor.data? = some convolution.bias.param.value := by
    obtain ⟨_, values, _, hvalues, -, hmade⟩ := Bias.ofTensor_eq_ok hbias
    rw [hvalues, hmade]
  refine ⟨⟨_, hfollows⟩, ?_, ?_⟩
  · rintro ⟨_, _, _, channels, hwritten, hchannels, hvalue, hsize, hfound, hdims⟩
    cases houtput.symm.trans hwritten
    cases hlast.symm.trans hchannels
    cases hbound.symm.trans hvalue
    cases hoperand.symm.trans hfound
    exact ⟨tensor, biasTensor, _, _, group, htensor, hbiasTensor, hstates, hhead, hdata, hsize,
      hcounted.symm.trans hdims⟩
  · rintro ⟨_, _, _, channels, found, hfoundTensor, hfoundBias, hfound, hchannels, hvalue, hsize,
      hcount⟩
    cases htensor.symm.trans hfoundTensor
    cases hbiasTensor.symm.trans hfoundBias
    cases hstates.unique hfound
    cases hhead.symm.trans hchannels
    cases hdata.symm.trans hvalue
    exact ⟨_, _, _, _, houtput, hlast, hbound, hsize, hoperand, hcounted.trans hcount⟩

/-! ## Nets -/

namespace FlatNet

variable {net : FlatNet}

/-- Every convolution has as many channels as the first dimension of its bias says.  The values of
the bias and the filter count them alike just if the tensors of the operator do. -/
theorem lower_channels (hlower : net.lower options = .ok graph) :
    List.Forall₂ (fun operator operation =>
        operation.code = .conv2d ∨ operation.code = .depthwiseConv2d →
        operator.Convolves ∧ (∃ channels, graph.FollowsBias operation channels) ∧
          (graph.ChannelsAgree operation ↔ operator.StatesChannels))
      (net.operators.filter fun operator => ¬operator.IsSkipped options) graph.operations := by
  have hmeasured := (fits_of_lower_iff hlower).1
  exact (becomes_of_lower hlower).imp fun _ _ hbecomes hcode =>
    have hconvolves := hbecomes.code.convolves hcode
    ⟨hconvolves, hbecomes.channels hconvolves hmeasured⟩

theorem lower_channels_twoScales :
    ∃ graph operation, twoScales.lower { quantized := true, inputSize := [1, 1, 1] } = .ok graph ∧
      graph.operations = [operation] ∧ (∃ channels, graph.FollowsBias operation channels) ∧
      graph.ChannelsAgree operation := by
  have hread : (fun graph : Graph => graph.operations.map Operation.code) <$>
      twoScales.lower { quantized := true, inputSize := [1, 1, 1] } = .ok [.conv2d] := by
    decide +kernel
  obtain ⟨graph, hlower, hcodes⟩ := map_eq_ok_iff.mp hread
  obtain ⟨operation, hoperations, hcode⟩ := List.map_eq_singleton_iff.mp hcodes
  have hchannels := lower_channels hlower
  rw [hoperations] at hchannels
  obtain ⟨hfirst, -⟩ := List.forall₂_cons.mp hchannels
  obtain ⟨-, hfollows, hagree⟩ := hfirst (.inl hcode)
  refine ⟨graph, operation, hlower, hoperations, hfollows, hagree.mpr ?_⟩
  exact ⟨_, _, .int32 #[0, 0], 2, 1, rfl, rfl, .absent rfl, rfl, rfl, rfl, rfl⟩

/-- Two filters, and a bias for one of them. -/
def oneBias : FlatNet :=
  oneConvolution (filterOf 2 (.float32 #[.one, .one]) #[.one]) (biasOf 1 (.float32 #[.zero]))

/-- One filter, and a bias of one row with two values. -/
def biasRow : FlatNet :=
  oneConvolution (filterOf 1 (.float32 #[.one]) #[.one])
    { biasOf 1 (.float32 #[.zero, .one]) with shape := some (.numbers (.int32 #[1, 2])) }

/-- Lowering goes by the first dimension of the bias and takes both. -/
theorem lower_miscounts :
    (∃ graph operation, oneBias.lower { inputSize := [1, 1, 1] } = .ok graph ∧
      graph.operations = [operation] ∧ operation.code = .conv2d ∧
      ¬graph.ChannelsAgree operation) ∧
    ∃ graph operation, biasRow.lower { inputSize := [1, 1, 1] } = .ok graph ∧
      graph.operations = [operation] ∧ operation.code = .conv2d ∧
      ¬graph.ChannelsAgree operation := by
  constructor
  · have hread : (fun graph : Graph => graph.operations.map fun operation =>
          (operation.code, graph.output? operation, graph.operandAt? operation 1)) <$>
        oneBias.lower { inputSize := [1, 1, 1] } =
          .ok [(.conv2d, some ⟨some "features", .plain .tensorFloat32 [1, 1, 1, 1]⟩,
            some ⟨some "filter", .plain .tensorFloat32 [2, 1, 1, 1]⟩)] := by
      decide +kernel
    obtain ⟨graph, hlower, hoperations⟩ := map_eq_ok_iff.mp hread
    obtain ⟨operation, hoperations, hoperation⟩ := List.map_eq_singleton_iff.mp hoperations
    simp only [Prod.mk.injEq] at hoperation
    obtain ⟨hcode, houtput, hfilter⟩ := hoperation
    refine ⟨graph, operation, hlower, hoperations, hcode, ?_⟩
    rintro ⟨_, _, values, channels, hwritten, hlast, -, -, hfound, hcounted⟩
    cases houtput.symm.trans hwritten
    cases hfilter.symm.trans hfound
    rw [hcode] at hcounted
    cases hlast
    cases hcounted
  · have hread : (fun graph : Graph => graph.operations.map fun operation =>
          (operation.code, graph.output? operation, graph.valueAt? operation 2)) <$>
        biasRow.lower { inputSize := [1, 1, 1] } =
          .ok [(.conv2d, some ⟨some "features", .plain .tensorFloat32 [1, 1, 1, 1]⟩,
            some (.float32 #[.zero, .one]))] := by
      decide +kernel
    obtain ⟨graph, hlower, hoperations⟩ := map_eq_ok_iff.mp hread
    obtain ⟨operation, hoperations, hoperation⟩ := List.map_eq_singleton_iff.mp hoperations
    simp only [Prod.mk.injEq] at hoperation
    obtain ⟨hcode, houtput, hbias⟩ := hoperation
    refine ⟨graph, operation, hlower, hoperations, hcode, ?_⟩
    rintro ⟨_, _, values, channels, hwritten, hlast, hbound, hsize, -⟩
    cases houtput.symm.trans hwritten
    cases hbias.symm.trans hbound
    cases hlast
    cases hsize

end FlatNet

end NetLowering
