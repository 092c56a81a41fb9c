import NetLowering.Proofs.Lowering.Layers
import NetLowering.Proofs.Lowering.Typing

/-!
# Graphs that are not quantized

In a graph that is lowered without quantization nothing has a scale or a zero point,
and codes are handed on from the input.  One thing does not ask whether the graph is
quantized: a filter with more than one scale is quantized per channel all the same.
`FlatNet.lower_float_iff` says that there is no other way in.
-/

namespace NetLowering

open Checked

variable {options : LoweringOptions} {operator : FlatOp} {net : FlatNet} {graph next : Graph}

/-! ## Types of operands -/

/-- What the constants of an operator have and outputs have from images, all operands have. -/
theorem FlatOp.Grows.types {Has : OperandType → Prop} (hgrows : operator.Grows options graph next)
    (hparams : ∀ param : Param, param.BroughtBy options operator graph → Has param.type)
    (houtput : ∀ (layer : Layer) image output, layer.TakesAfter options image output →
      Has image → Has output)
    (hbefore : ∀ operand ∈ graph.operands, Has operand.type) :
    ∀ operand ∈ next.operands, Has operand.type := by
  rcases hgrows.makes_or_names with ⟨layer, hmakes, hadded⟩ | ⟨name, id, hnamed⟩
  · obtain ⟨_, name, type, -, hwritten, -⟩ := Graph.addLayer_eq_ok_iff.mp hadded
    obtain ⟨image, himage, htakesAfter⟩ := hmakes.image
    rw [Graph.operands_of_addLayer hadded hwritten]
    intro operand hoperand
    simp only [List.mem_append, List.mem_map, List.mem_singleton] at hoperand
    rcases hoperand with (hearlier | ⟨param, hparam, rfl⟩) | rfl
    · exact hbefore operand hearlier
    · exact hparams param (hmakes.params param hparam)
    · exact houtput layer image.type type (htakesAfter name type hwritten)
        (hbefore image (Graph.mem_of_operand? himage))
  · obtain ⟨-, rfl⟩ := Graph.nameAs_eq_ok_iff.mp hnamed
    exact hbefore

theorem LoweringOptions.inputType_of_float {first : FlatOp} {type : OperandType}
    (hfloat : options.quantized = false) (htype : options.inputType first = .ok type) :
    ∃ dims, type = .plain .tensorFloat32 dims := by
  simp only [inputType, hfloat, Bool.false_eq_true, if_false, bind_eq_ok_iff,
    pure_eq_ok_iff] at htype
  obtain ⟨dims, -, htype⟩ := htype
  exact ⟨dims, htype⟩

/-! ## Filters with several scales -/

/-- The operator is a convolution with more than one scale for its filter. -/
def FlatOp.PerChannel (operator : FlatOp) : Prop :=
  operator.Convolves ∧ ∃ filter, operator.inputs[1]? = some filter ∧ filter.isPerChannel = true

/-- Some filter of the net is quantized per channel. -/
def FlatNet.PerChannel (net : FlatNet) : Prop := ∃ operator ∈ net.operators, operator.PerChannel

/-- The type has no scale, and no quantized code but for the sake of a filter. -/
structure OperandType.FloatIn (type : OperandType) (net : FlatNet) : Prop where
  unscaled : type.Unscaled
  code : type.code.isQuantized = true → type.code = .tensorQuant8SymmPerChannel ∧ net.PerChannel

theorem OperandType.floatIn_plain (dims : List UInt32) {code : OperandCode}
    (hcode : code.isQuantized = false) : (plain code dims).FloatIn net :=
  ⟨.plain code dims, fun hquantized => by cases hcode.symm.trans hquantized⟩

theorem Layer.TakesAfter.floatIn {layer : Layer} {image output : OperandType}
    (htakes : layer.TakesAfter options image output) (hfloat : options.quantized = false)
    (himage : image.FloatIn net) : output.FloatIn net :=
  ⟨htakes.unscaled hfloat, htakes.code ▸ himage.code⟩

namespace Param.BroughtBy

variable {param : Param}

theorem floatIn (hbrought : param.BroughtBy options operator graph)
    (hoperator : operator ∈ net.operators) (hfloat : options.quantized = false)
    (hbefore : ∀ operand ∈ graph.operands, operand.type.FloatIn net) : param.type.FloatIn net := by
  cases hbrought with
  | int number => exact OperandType.floatIn_plain [] rfl
  | single number => exact OperandType.floatIn_plain [] rfl
  | filter _ tensor image hconvolves hlisted hread hmade =>
      refine ⟨hmade.unscaled hfloat, ?_⟩
      rw [hmade.code]
      split
      · rename_i hperChannel
        exact fun _ => ⟨rfl, operator, hoperator, hconvolves, tensor, hlisted, hperChannel⟩
      · exact (hbefore image hread).code
  | bias _ tensor _ _ hmade =>
      refine ⟨hmade.unscaled hfloat, fun hquantized => ?_⟩
      simp [hmade.code, hfloat, OperandCode.isQuantized] at hquantized

theorem channelQuant_eq_none (hbrought : param.BroughtBy options operator graph)
    (hplain : ¬operator.PerChannel) : param.channelQuant = none := by
  cases hbrought with
  | int number => rfl
  | single number => rfl
  | filter _ tensor _ hconvolves hlisted _ hmade =>
      refine hmade.channelQuant (Bool.eq_false_iff.mpr fun hperChannel => ?_)
      exact hplain ⟨hconvolves, tensor, hlisted, hperChannel⟩
  | bias _ _ _ _ hmade => exact hmade.channelQuant

end Param.BroughtBy

/-! ## Graphs -/

/-- A graph of floats, but for what filters of the net bring along. -/
structure Graph.FloatIn (graph : Graph) (net : FlatNet) : Prop where
  types : ∀ operand ∈ graph.operands, operand.type.FloatIn net
  quants : ¬net.PerChannel → graph.channelQuants = ∅

theorem FlatOp.Grows.floatIn (hgrows : operator.Grows options graph next)
    (hoperator : operator ∈ net.operators) (hfloat : options.quantized = false)
    (hbefore : graph.FloatIn net) : next.FloatIn net := by
  refine ⟨hgrows.types (fun param hbrought => hbrought.floatIn hoperator hfloat hbefore.types)
    (fun _ _ _ htakes => htakes.floatIn hfloat) hbefore.types, fun hplain => ?_⟩
  have hoperatorPlain : ¬operator.PerChannel :=
    fun hperChannel => hplain ⟨operator, hoperator, hperChannel⟩
  rw [← hbefore.quants hplain]
  rcases hgrows.makes_or_names with ⟨layer, hmakes, hadded⟩ | ⟨name, id, hnamed⟩
  · exact Graph.channelQuants_of_addLayer hadded fun param hparam =>
      (hmakes.params param hparam).channelQuant_eq_none hoperatorPlain
  · obtain ⟨-, rfl⟩ := Graph.nameAs_eq_ok_iff.mp hnamed
    rfl

namespace FlatNet

theorem floatIn_startGraph {first : FlatOp} {name : String} {type : OperandType}
    (hfloat : options.quantized = false) (htype : options.inputType first = .ok type) :
    (startGraph name type).FloatIn net := by
  obtain ⟨dims, rfl⟩ := LoweringOptions.inputType_of_float hfloat htype
  refine ⟨fun operand hoperand => ?_, fun _ => rfl⟩
  cases List.mem_singleton.mp hoperand
  exact OperandType.floatIn_plain dims rfl

theorem floatIn_of_lower (hlower : net.lower options = .ok graph)
    (hfloat : options.quantized = false) : graph.FloatIn net := by
  obtain ⟨grown, _, _, hgrown, -, rfl⟩ :=
    lower_preserves_from_input (Graph.FloatIn · net) hlower
      (fun _ _ _ htype => floatIn_startGraph hfloat htype)
      fun _ _ _ hoperator hbefore hgrows => hgrows.floatIn hoperator hfloat hbefore
  exact ⟨hgrown.types, hgrown.quants⟩

theorem exists_filter_of_lower (hlower : net.lower options = .ok graph)
    (hoperator : operator ∈ net.operators) (hperChannel : operator.PerChannel) :
    ∃ operand ∈ graph.operands, operand.type.code = .tensorQuant8SymmPerChannel := by
  obtain ⟨before, after, hgrows, hextends⟩ := exists_growth hlower operator hoperator
  obtain ⟨hconvolves, listed, hlisted, hscales⟩ := hperChannel
  obtain ⟨convolution, hread, hadded⟩ := hgrows.convolution_of_convolves hconvolves
  obtain ⟨-, tensor, -, filter, -, htensor, -, -, hfilter, hparam, -, -⟩ :=
    Convolution.ofOperator_eq_ok hread
  cases hlisted.symm.trans htensor
  have hcode := (Filter.filterOf_param hfilter hparam).code
  rw [if_pos hscales] at hcode
  obtain ⟨_, name, type, -, hwritten, -⟩ := Graph.addLayer_eq_ok_iff.mp hadded
  refine ⟨convolution.filter.operand, hextends.operands.subset ?_, hcode⟩
  simp [Graph.operands_of_addLayer hadded hwritten, Convolution.layer, Convolution.params]

/-- A net that is lowered without quantization has a graph without quantization, unless a filter
has more than one scale. -/
theorem lower_float_iff (hlower : net.lower options = .ok graph)
    (hfloat : options.quantized = false) :
    (∀ operand ∈ graph.operands, operand.type.Unscaled ∧
      (operand.type.code.isQuantized = true →
        operand.type.code = .tensorQuant8SymmPerChannel)) ∧
    ((∀ operand ∈ graph.operands, operand.type.code.isQuantized = false) ∧
        graph.channelQuants = ∅ ↔
      ∀ operator ∈ net.operators, ¬operator.PerChannel) := by
  have hgraph := floatIn_of_lower hlower hfloat
  refine ⟨fun operand hoperand => ?_, ?_, fun hplain => ?_⟩
  · have htype := hgraph.types operand hoperand
    exact ⟨htype.unscaled, fun hquantized => (htype.code hquantized).1⟩
  · rintro ⟨hcodes, -⟩ operator hoperator hperChannel
    obtain ⟨operand, hoperand, hcode⟩ := exists_filter_of_lower hlower hoperator hperChannel
    cases (hcode ▸ hcodes operand hoperand : OperandCode.isQuantized _ = false)
  · have hnone : ¬net.PerChannel := fun ⟨operator, hoperator, hperChannel⟩ =>
      hplain operator hoperator hperChannel
    refine ⟨fun operand hoperand => Bool.eq_false_iff.mpr fun hquantized => ?_, hgraph.quants hnone⟩
    exact hnone ((hgraph.types operand hoperand).code hquantized).2

theorem lower_float_iff_wholeFilter :
    ∃ graph, wholeFilter.lower { inputSize := [1, 1, 1] } = .ok graph ∧
      graph.operands.length = 11 ∧
      (∀ operand ∈ graph.operands, operand.type.Unscaled ∧
        operand.type.code.isQuantized = false) ∧
      graph.channelQuants = ∅ := by
  have hread : (fun graph : Graph => graph.operands.length) <$>
      wholeFilter.lower { inputSize := [1, 1, 1] } = .ok 11 := by
    decide +kernel
  obtain ⟨graph, hlower, hlength⟩ := map_eq_ok_iff.mp hread
  obtain ⟨htypes, hpure⟩ := lower_float_iff hlower rfl
  have hplain : ∀ operator ∈ wholeFilter.operators, ¬operator.PerChannel := by
    rintro operator hoperator ⟨-, filter, hfilter, hscales⟩
    cases List.mem_singleton.mp hoperator
    cases hfilter
    exact absurd hscales (by decide)
  obtain ⟨hcodes, hquants⟩ := hpure.mpr hplain
  exact ⟨graph, hlower, hlength, fun operand hoperand =>
    ⟨(htypes operand hoperand).1, hcodes operand hoperand⟩, hquants⟩

/-- A float net, but for two scales of its filter. -/
def scaledFilter : FlatNet :=
  oneConvolution (filterOf 2 (.float32 #[.one, .one]) #[.one, .one])
    (biasOf 2 (.float32 #[.zero, .zero]))

/-- The filter is quantized per channel in a graph that is not quantized. -/
theorem lower_not_float :
    ∃ graph, scaledFilter.lower { inputSize := [1, 1, 1] } = .ok graph ∧
      graph.operands[0]? = some ⟨some "image", .plain .tensorFloat32 [1, 1, 1, 1]⟩ ∧
      graph.operands[1]? = some ⟨some "filter", .plain .tensorQuant8SymmPerChannel [2, 1, 1, 1]⟩ ∧
      graph.channelQuants.find? (.own 1) = some ⟨0, [.one, .one]⟩ := by
  have hread : (fun graph : Graph => (graph.operands[0]?, graph.operands[1]?,
        graph.channelQuants.find? (.own 1))) <$>
      scaledFilter.lower { inputSize := [1, 1, 1] } =
        .ok (some ⟨some "image", .plain .tensorFloat32 [1, 1, 1, 1]⟩,
          some ⟨some "filter", .plain .tensorQuant8SymmPerChannel [2, 1, 1, 1]⟩,
          some ⟨0, [.one, .one]⟩) := by
    decide +kernel
  obtain ⟨graph, hlower, hgraph⟩ := map_eq_ok_iff.mp hread
  simp only [Prod.mk.injEq] at hgraph
  exact ⟨graph, hlower, hgraph⟩

end FlatNet

end NetLowering
