import NetLowering.Proofs.Lowering.FloatGraphs
import NetLowering.Proofs.Lowering.Prefixes
import NetLowering.Proofs.Lowering.Refusals

/-!
# Lowered graphs are consistent

What lowering checks of its own graph always holds, and the finished graph mentions
only operands that are there, binds values of the right size, and lists scales for
exactly the filters that have more than one (`FlatNet.lower_consistent`).
-/

namespace NetLowering

open Checked

/-! ## Scales of a filter -/

/-- The dimension along which scales are listed for a convolution of this code. -/
def OperationCode.scaledDim (code : OperationCode) : UInt32 :=
  if code = .depthwiseConv2d then 3 else 0

theorem Tensor.isPerChannel_iff {tensor : Tensor} :
    tensor.isPerChannel = true ↔ ∃ scales, tensor.scales? = some scales ∧ 1 < scales.length := by
  rw [isPerChannel, decide_eq_true_iff]
  cases tensor.scales? <;> simp

namespace FlatOp

/-- The operand is the filter of this convolution, with more than one scale, and these are the
scales that its tensor states. -/
structure Scales (operator : FlatOp) (graph : Graph) (id : OperandId) (quant : ChannelQuant) :
    Prop where
  convolves : operator.Convolves
  filter : ∃ tensor, operator.inputs[1]? = some tensor ∧
    tensor.scales? = some quant.scales ∧ 1 < quant.scales.length ∧
    graph.tensorIds.find? tensor.name = some id ∧
    ∃ dims, graph.operand? id = some ⟨some tensor.name, .plain .tensorQuant8SymmPerChannel dims⟩
  operation : ∃ operation ∈ graph.operations, operator.AsksFor operation.code ∧
    operation.inputs[1]? = some id ∧ quant.channelDim = operation.code.scaledDim

variable {options : LoweringOptions} {operator : FlatOp} {graph next : Graph} {id other : OperandId}
  {quant found : ChannelQuant}

theorem AsksFor.code_eq {code : OperationCode} (hasks : operator.AsksFor code)
    (hconvolves : operator.Convolves) :
    ∃ group, operator.group = .ok group ∧
      code = if 1 < group then .depthwiseConv2d else .conv2d := by
  cases hasks with
  | conv2d _ hread hwhole => exact ⟨_, hread, (if_neg hwhole).symm⟩
  | depthwiseConv2d _ hread hsplit => exact ⟨_, hread, (if_pos hsplit).symm⟩
  | averagePool2d htype => simp [Convolves, htype] at hconvolves
  | softmax htype => simp [Convolves, htype] at hconvolves

namespace Scales

theorem perChannel (hscales : operator.Scales graph id quant) : operator.PerChannel := by
  obtain ⟨tensor, hlisted, hstated, hseveral, -⟩ := hscales.filter
  exact ⟨hscales.convolves, tensor, hlisted, Tensor.isPerChannel_iff.mpr ⟨_, hstated, hseveral⟩⟩

theorem mono (hextends : graph.Extends next) (hscales : operator.Scales graph id quant) :
    operator.Scales next id quant := by
  obtain ⟨hconvolves, ⟨tensor, hlisted, hstated, hseveral, hnamed, dims, hoperand⟩,
    operation, hoperation, hdone⟩ := hscales
  exact ⟨hconvolves, ⟨tensor, hlisted, hstated, hseveral, hextends.named _ _ hnamed, dims,
    hextends.operand? hoperand⟩, operation, hextends.operations.subset hoperation, hdone⟩

/-- An operator gives scales to one operand only, and gives it one list of them. -/
theorem unique (hfirst : operator.Scales graph id quant)
    (hsecond : operator.Scales graph other found) : other = id ∧ found = quant := by
  obtain ⟨hconvolves, ⟨tensor, hlisted, hstated, -, hnamed, -⟩,
    operation, -, hasks, -, hdim⟩ := hfirst
  obtain ⟨-, ⟨again, hrelisted, hrestated, -, hrenamed, -⟩,
    another, -, hasksToo, -, hother⟩ := hsecond
  cases hlisted.symm.trans hrelisted
  have hscales : found.scales = quant.scales := Option.some.inj (hrestated.symm.trans hstated)
  cases hnamed.symm.trans hrenamed
  -- The dimension follows from the code, and the code from the number of groups.
  obtain ⟨group, hgroup, hcode⟩ := hasks.code_eq hconvolves
  obtain ⟨count, hcount, hcodeToo⟩ := hasksToo.code_eq hconvolves
  cases hgroup.symm.trans hcount
  rw [hcodeToo, ← hcode, ← hdim] at hother
  exact ⟨rfl, by cases quant; cases found; simp_all⟩

end Scales

end FlatOp

/-! ## What one operator adds -/

namespace Graph

variable {graph next : Graph}

/-- Of the parameters of a layer the first alone may have scales. -/
theorem channelQuants_of_first {layer : Layer} {param : Param} {params : List Param}
    (hadded : graph.addLayer layer = .ok next) (hparams : layer.params = param :: params)
    (hplain : ∀ other ∈ params, other.channelQuant = none) :
    next.channelQuants = (graph.withParam param).channelQuants := by
  obtain ⟨withParams, name, type, hrun, -, -, -, rfl⟩ := addLayer_eq_ok_iff.mp hadded
  obtain rfl := eq_foldl_of_addParams hrun
  rw [hparams, List.foldl_cons]
  exact channelQuants_foldl_withParam hplain _

end Graph

namespace FlatOp

variable {options : LoweringOptions} {operator : FlatOp} {graph next : Graph}

theorem Grows.quants_of_plain (hgrows : operator.Grows options graph next)
    (hplain : ¬operator.PerChannel) : next.channelQuants = graph.channelQuants := by
  rcases hgrows.makes_or_names with ⟨layer, hmakes, hadded⟩ | ⟨name, id, hnamed⟩
  · exact Graph.channelQuants_of_addLayer hadded fun param hparam =>
      (hmakes.params param hparam).channelQuant_eq_none hplain
  · obtain ⟨-, rfl⟩ := Graph.nameAs_eq_ok_iff.mp hnamed
    rfl

/-- A convolution with several scales gives them to the operand that comes next. -/
theorem Grows.scales (hgrows : operator.Grows options graph next)
    (hperChannel : operator.PerChannel) :
    ∃ quant, next.channelQuants = graph.channelQuants.insert graph.nextId quant ∧
      operator.Scales next graph.nextId quant := by
  obtain ⟨hconvolves, tensor, hlisted, hperChannel⟩ := hperChannel
  obtain ⟨convolution, hread, hadded⟩ := hgrows.convolution_of_convolves hconvolves
  obtain ⟨-, found, _, filter, -, hfound, -, -, -, hparam, hbias, hdepthwise⟩ :=
    Convolution.ofOperator_eq_ok hread
  cases hlisted.symm.trans hfound
  obtain ⟨scales, hstated, hseveral⟩ := Tensor.isPerChannel_iff.mp hperChannel
  obtain ⟨type, htype, hparam⟩ := bind_eq_ok_iff.mp hparam
  rw [pure_eq_ok_iff] at hparam
  rw [Filter.type, if_pos hperChannel, pure_eq_ok_iff] at htype
  have hquant : convolution.filter.channelQuant = some ⟨filter.channelDim, scales⟩ := by
    simp [hparam, Filter.channelQuant, hperChannel, hstated]
  have hoperand : convolution.filter.operand =
      ⟨some tensor.name, .plain .tensorQuant8SymmPerChannel filter.dims⟩ := by
    simp [hparam, htype, Param.operand]
  have hplain : ∀ param ∈ convolution.params.tail, param.channelQuant = none := by
    intro param hparam
    rcases List.mem_cons.mp hparam with rfl | hscalar
    · exact (Bias.biasOf_param hbias).channelQuant
    · obtain ⟨number, -, rfl⟩ := List.mem_map.mp hscalar
      rfl
  have hquants := Graph.channelQuants_of_first hadded rfl hplain
  obtain ⟨-, hextends⟩ := Graph.extends_first_of_addLayer hadded rfl
  have hlays : operator.Lays graph (convolution.layer options operator) :=
    lays_convolution hconvolves hread
  refine ⟨⟨filter.channelDim, scales⟩, ?_, hconvolves, ⟨tensor, hlisted, hstated, hseveral, ?_,
    filter.dims, ?_⟩, (convolution.layer options operator).operation graph, ?_, hlays.code, ?_, ?_⟩
  · rw [hquants, Graph.withParam, hquant]
    rfl
  · refine hextends.named _ _ ?_
    simp [Graph.withParam, hparam]
  · refine hextends.operand? ?_
    rw [← hoperand]
    exact Graph.operand?_push_nextId graph convolution.filter.operand
  · simp [Graph.operations_of_addLayer hadded]
  · rfl
  · simp only [Filter.channelDim, OperationCode.scaledDim, Layer.operation, Convolution.layer,
      hdepthwise]
    cases filter.depthwise <;> rfl

end FlatOp

/-! ## Nets -/

/-- Scales are listed for the filters of these operators only. -/
def Graph.ScaledBy (operators : List FlatOp) (graph : Graph) : Prop :=
  ∀ id quant, graph.channelQuants.find? id = some quant →
    ∃ operator ∈ operators, operator.Scales graph id quant

variable {options : LoweringOptions} {net : FlatNet} {graph : Graph}

/-- What a graph that a net is lowered to can be relied on for. -/
structure FlatNet.Consistent (net : FlatNet) (graph : Graph) : Prop where
  /-- Nothing is mentioned that is not an operand of the graph. -/
  valid : graph.unknown? = none
  /-- A value has the elements that its operand counts, which are all that the dimensions span
  unless a machine word cannot hold so many. -/
  values : ∀ id value, graph.values.find? id = some value →
    ∃ operand, graph.operand? id = some operand ∧ operand.type.elements = value.size ∧
      (span (operand.type.dims.map UInt32.toNat) < 2 ^ 64 →
        value.size = span (operand.type.dims.map UInt32.toNat))
  quants : ∀ id quant, graph.channelQuants.find? id = some quant ↔
    ∃ operator ∈ net.operators, operator.Scales graph id quant
  filters : ∀ operator ∈ net.operators, operator.PerChannel →
    ∃ id quant, operator.Scales graph id quant

namespace FlatNet

theorem scaledBy_of_run {operators : List FlatOp} {start grown : Graph}
    (hstart : start.channelQuants = ∅)
    (hrun : operators.foldlM (FlatOp.lower options) start = .ok grown) :
    grown.ScaledBy operators := by
  refine foldlM_preserves ?_ ?_ hrun
  · intro before operator after hoperator hbefore hlower id quant hfound
    have hgrows := FlatOp.grows_of_lower hlower
    have hearlier : before.channelQuants.find? id = some quant →
        ∃ operator ∈ operators, operator.Scales after id quant := by
      intro hquant
      obtain ⟨earlier, hmem, hscales⟩ := hbefore id quant hquant
      exact ⟨earlier, hmem, hscales.mono hgrows.extends⟩
    by_cases hperChannel : operator.PerChannel
    · obtain ⟨last, hquants, hscales⟩ := hgrows.scales hperChannel
      rw [hquants, Table.find?_insert] at hfound
      split at hfound
      · rename_i hid
        cases hfound
        exact ⟨operator, hoperator, hid ▸ hscales⟩
      · exact hearlier hfound
    · rw [hgrows.quants_of_plain hperChannel] at hfound
      exact hearlier hfound
  · intro id quant hfound
    rw [hstart] at hfound
    cases (Table.find?_empty id).symm.trans hfound

/-- The scales of a filter are listed when its operator comes, and stay so. -/
theorem exists_scales_of_run {operators : List FlatOp} {operator : FlatOp} {start grown : Graph}
    (hrun : operators.foldlM (FlatOp.lower options) start = .ok grown)
    (hoperator : operator ∈ operators) (hperChannel : operator.PerChannel) :
    ∃ id quant, grown.channelQuants.find? id = some quant ∧ operator.Scales grown id quant := by
  obtain ⟨done, rest, before, after, -, -, hlower, hrest⟩ := exists_moment hrun hoperator
  obtain ⟨quant, hquants, hscales⟩ := (FlatOp.grows_of_lower hlower).scales hperChannel
  have hagrees := agrees_of_run hrest
  refine ⟨before.nextId, quant, ?_, hscales.mono hagrees.toExtends⟩
  obtain ⟨_, -, -, -, -, _, hoperand⟩ := hscales.filter
  rw [hagrees.quants _ (by simp only [Graph.contains, hoperand]; rfl), hquants, Table.find?_insert,
    if_pos rfl]

theorem consistent_of_lower (hlower : net.lower options = .ok graph) : net.Consistent graph := by
  obtain ⟨first, _, start, grown, _, output, -, -, hstart, hrun, -, -, rfl, hvalid⟩ :=
    lower_eq_ok_iff.mp hlower
  have hcoherent := coherent_of_run (coherent_of_inputGraph hstart) hrun
  obtain ⟨source, type, -, -, rfl⟩ := inputGraph_eq_ok_iff.mp hstart
  have hends := grown.extends_withEnds [.own 0] [output]
  refine ⟨hvalid, fun id value hfound => ?_, fun id quant => ⟨fun hfound => ?_, ?_⟩, ?_⟩
  · obtain ⟨operand, hoperand, helements⟩ := hcoherent.measured.values id value hfound
    exact ⟨operand, hoperand, helements, fun hsmall =>
      helements.symm.trans (OperandType.elements_of_lt hsmall)⟩
  · obtain ⟨operator, hoperator, hscales⟩ := scaledBy_of_run rfl hrun id quant hfound
    exact ⟨operator, hoperator, hscales.mono hends⟩
  · rintro ⟨operator, hoperator, hscales⟩
    obtain ⟨other, found, hfound, hothers⟩ :=
      exists_scales_of_run hrun hoperator hscales.perChannel
    obtain ⟨rfl, rfl⟩ := hscales.unique (hothers.mono hends)
    exact hfound
  · intro operator hoperator hperChannel
    obtain ⟨id, quant, -, hscales⟩ := exists_scales_of_run hrun hoperator hperChannel
    exact ⟨id, quant, hscales.mono hends⟩

/-- No check of its own makes lowering fail, nor any operand that it looks up, and a net that is
lowered has a consistent graph. -/
theorem lower_consistent (options : LoweringOptions) (net : FlatNet) :
    match net.lower options with
    | .error error => ∀ index, error ≠ .unknownOperand index ∧ error ≠ .duplicateValue index
    | .ok graph => net.Consistent graph := by
  split
  · rename_i error hlower
    have hexternal := blames_lower options net error hlower
    intro index
    constructor
    · rintro rfl
      exact hexternal
    · rintro rfl
      exact hexternal
  · rename_i graph hlower
    exact consistent_of_lower hlower

/-- A depthwise convolution with two planes, each with a scale of its own. -/
def scaledPlanes : FlatNet where
  operators := [
    { type := "Int8Conv"
      inputs := [.named "image", filterOf 2 (.uint8 #[1, 2]) #[.one, .one],
        biasOf 2 (.int32 #[0, 0])]
      outputs := ["features"]
      arguments := .ofList [("kernel", .numbers (.int32 #[1])), ("group", .numbers (.int32 #[2])),
        ("X_scale", .numbers (.float32 #[.one])), ("X_zero_point", .numbers (.int32 #[0]))] }]

theorem lower_consistent_scaledPlanes :
    ∃ graph, scaledPlanes.lower { quantized := true, inputSize := [1, 1, 2] } = .ok graph ∧
      scaledPlanes.Consistent graph ∧
      graph.channelQuants.find? (.own 1) = some ⟨3, [.one, .one]⟩ := by
  have hread : (fun graph : Graph => graph.channelQuants.find? (.own 1)) <$>
      scaledPlanes.lower { quantized := true, inputSize := [1, 1, 2] } =
        .ok (some ⟨3, [.one, .one]⟩) := by
    decide +kernel
  obtain ⟨graph, hlower, hquant⟩ := map_eq_ok_iff.mp hread
  have hconsistent := lower_consistent { quantized := true, inputSize := [1, 1, 2] } scaledPlanes
  rw [hlower] at hconsistent
  exact ⟨graph, hlower, hconsistent, hquant⟩

end FlatNet

end NetLowering
