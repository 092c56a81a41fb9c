import NetLowering.Proofs.Lowering.Filters
import NetLowering.Proofs.Lowering.Growth

/-!
# What the layer of an operator is made of

An operator that adds a layer brings scalars along and, if it is a convolution, a
filter and a bias; the output of the layer takes after the operand that it reads as
its image.  `FlatOp.Grows.makes_or_names` says so of every operator.  From it every
operation of a lowered net is known as a layer that some operator has made
(`FlatNet.stems_of_lower`), and every bound value as a constant that some operator
has brought (`FlatNet.owes_of_lower`).
-/

namespace NetLowering

open Checked

def Param.operand (param : Param) : Operand := ⟨param.name, param.type⟩

/-- The operation that a layer comes down to when it is added to a graph. -/
def Layer.operation (layer : Layer) (graph : Graph) : Operation where
  code := layer.code
  inputs := layer.input :: graph.nextIds layer.params.length
  outputs := [.own (graph.operands.length + layer.params.length)]

namespace Graph

variable {graph next later : Graph}

theorem mem_of_operand? {id : OperandId} {operand : Operand}
    (hoperand : graph.operand? id = some operand) : operand ∈ graph.operands := by
  rw [operand?] at hoperand
  split at hoperand
  · cases hoperand
  · exact List.mem_of_getElem? hoperand

/-! ## What a layer adds -/

theorem operands_of_addLayer {layer : Layer} {name : String} {type : OperandType}
    (hadded : graph.addLayer layer = .ok next) (houtput : layer.output = .ok (name, type)) :
    next.operands = graph.operands ++ layer.params.map Param.operand ++ [⟨some name, type⟩] := by
  obtain ⟨withParams, _, _, hparams, hwritten, -, -, rfl⟩ := addLayer_eq_ok_iff.mp hadded
  cases houtput.symm.trans hwritten
  rw [withResult, eq_foldl_of_addParams hparams, operands_foldl_withParam]
  rfl

theorem operations_of_addLayer {layer : Layer} (hadded : graph.addLayer layer = .ok next) :
    next.operations = graph.operations ++ [layer.operation graph] := by
  obtain ⟨withParams, name, type, hparams, -, -, -, rfl⟩ := addLayer_eq_ok_iff.mp hadded
  obtain rfl := eq_foldl_of_addParams hparams
  simp [withResult, Layer.operation, operands_foldl_withParam, operations_foldl_withParam]

/-- The operand that an operation takes at this place. -/
def operandAt? (graph : Graph) (operation : Operation) (place : Nat) : Option Operand :=
  operation.inputs[place]?.bind graph.operand?

/-- After its image, the operation of a layer takes the parameters of the layer in order. -/
theorem operandAt?_param_of_addLayer {layer : Layer} (hadded : graph.addLayer layer = .ok next)
    (hextends : next.Extends later) (place : Nat) :
    later.operandAt? (layer.operation graph) (place + 1) =
      layer.params[place]?.map Param.operand := by
  obtain ⟨withParams, name, type, -, houtput, -, -, -⟩ := addLayer_eq_ok_iff.mp hadded
  by_cases hplace : place < layer.params.length
  · have hid : (layer.operation graph).inputs[place + 1]? =
        some (.own (graph.operands.length + place)) := by
      simp [Layer.operation, nextIds, hplace]
    rw [operandAt?, hid, Option.bind_some, List.getElem?_eq_getElem hplace, Option.map_some]
    apply hextends.operand?
    rw [operand?, operands_of_addLayer hadded houtput]
    simp [OperandId.own, List.getElem?_append, hplace]
  · have hid : (layer.operation graph).inputs[place + 1]? = none := by
      simpa [Layer.operation, nextIds] using hplace
    rw [operandAt?, hid, List.getElem?_eq_none (Nat.not_lt.mp hplace)]
    rfl

theorem operand?_output_of_addLayer {layer : Layer} {name : String} {type : OperandType}
    (hadded : graph.addLayer layer = .ok next) (houtput : layer.output = .ok (name, type)) :
    next.operand? (.own (graph.operands.length + layer.params.length)) =
      some ⟨some name, type⟩ := by
  rw [operand?, operands_of_addLayer hadded houtput]
  simp [OperandId.own]

/-- What is bound after a run of parameters was bound before it or by one of them. -/
theorem bound_of_addParams {params : List Param} (hadded : params.foldlM addParam graph = .ok next)
    {id : OperandId} {value : Buffer} (hbound : next.values.find? id = some value) :
    graph.values.find? id = some value ∨
      ∃ param ∈ params, param.value = value ∧ next.operand? id = some param.operand := by
  induction params generalizing graph with
  | nil =>
      rw [List.foldlM_nil, pure_eq_ok_iff] at hadded
      exact .inl (hadded ▸ hbound)
  | cons param params ih =>
      rw [List.foldlM_cons, bind_eq_ok_iff] at hadded
      obtain ⟨middle, hparam, hrest⟩ := hadded
      obtain ⟨-, rfl⟩ := addParam_eq_ok_iff.mp hparam
      rcases ih hrest with hmiddle | ⟨later, hlater, hvalue, hoperand⟩
      · rw [withParam, Table.find?_insert] at hmiddle
        split at hmiddle
        · rename_i hid
          cases hmiddle
          have hlast : (graph.withParam param).operand? id = some param.operand := by
            rw [hid]
            exact operand?_push_nextId graph param.operand
          exact .inr ⟨param, List.mem_cons_self, rfl, (extends_addParams hrest).operand? hlast⟩
        · exact .inl hmiddle
      · exact .inr ⟨later, List.mem_cons_of_mem _ hlater, hvalue, hoperand⟩

theorem bound_of_addLayer {layer : Layer} (hadded : graph.addLayer layer = .ok next)
    {id : OperandId} {value : Buffer} (hbound : next.values.find? id = some value) :
    graph.values.find? id = some value ∨
      ∃ param ∈ layer.params, param.value = value ∧ next.operand? id = some param.operand := by
  obtain ⟨withParams, name, type, hparams, -, hfresh, -, rfl⟩ := addLayer_eq_ok_iff.mp hadded
  rcases bound_of_addParams hparams hbound with hbefore | ⟨param, hparam, hvalue, hoperand⟩
  · exact .inl hbefore
  · exact .inr ⟨param, hparam, hvalue, (extends_withResult hfresh).operand? hoperand⟩

/-- No layer makes an operand quantized per channel but by its parameters. -/
theorem channelQuants_of_addLayer {layer : Layer} (hadded : graph.addLayer layer = .ok next)
    (hplain : ∀ param ∈ layer.params, param.channelQuant = none) :
    next.channelQuants = graph.channelQuants := by
  obtain ⟨withParams, name, type, hparams, -, -, -, rfl⟩ := addLayer_eq_ok_iff.mp hadded
  obtain rfl := eq_foldl_of_addParams hparams
  exact channelQuants_foldl_withParam hplain graph

end Graph

/-! ## Outputs -/

theorem Window.outputAxes_eq_ok {window : Window} {operator : FlatOp} {input axes : Axes}
    {channels : UInt32} (haxes : window.outputAxes operator input channels = .ok axes) :
    axes.n = input.n ∧ 0 < axes.h ∧ 0 < axes.w ∧ axes.c = channels := by
  simp only [outputAxes] at haxes
  split at haxes
  · split at haxes
    · rename_i hpositive
      cases haxes
      exact ⟨rfl, hpositive.1, hpositive.2, rfl⟩
    · cases haxes
  · cases haxes

/-- Nothing is said of a scale or a zero point. -/
structure OperandType.Unscaled (type : OperandType) : Prop where
  scale : type.scale = none
  zeroPoint : type.zeroPoint = none

theorem OperandType.Unscaled.plain (code : OperandCode) (dims : List UInt32) :
    (OperandType.plain code dims).Unscaled := ⟨rfl, rfl⟩

theorem FlatOp.outputType_eq_ok {operator : FlatOp} {options : LoweringOptions}
    {code : OperandCode} {dims : List UInt32} {scale : Single} {zeroPoint : Int32}
    {type : OperandType}
    (htype : operator.outputType options code dims scale zeroPoint = .ok type) :
    type.code = code ∧ type.dims = dims ∧ (options.quantized = false → type.Unscaled) := by
  rw [outputType] at htype
  split at htype
  · rename_i hquantized
    obtain ⟨_, -, htype⟩ := bind_eq_ok_iff.mp htype
    cases htype
    simp [OperandType.quantized, hquantized]
  · cases htype
    exact ⟨rfl, rfl, fun _ => .plain code dims⟩

def OperandType.Solid (type : OperandType) : Prop := ∀ dim ∈ type.dims, 0 < dim

theorem OperandType.solid_iff_of_axes {type : OperandType} {axes : Axes}
    (hdims : type.dims = axes.toList) :
    type.Solid ↔ 0 < axes.n ∧ 0 < axes.h ∧ 0 < axes.w ∧ 0 < axes.c := by
  simp [Solid, hdims, Axes.toList]

namespace OperationCode

def convolves : OperationCode → Bool
  | .conv2d | .depthwiseConv2d => true
  | _ => false

/-- The dimensions of the image that come back in the output: the batch and, where they are not
made anew, the channels or all. -/
def kept : OperationCode → List UInt32 → List UInt32
  | .conv2d, dims | .depthwiseConv2d, dims => dims.take 1
  | .averagePool2d, dims => dims.take 1 ++ dims.drop 3
  | .softmax, dims => dims

theorem mem_of_mem_kept {code : OperationCode} {dims : List UInt32} {dim : UInt32}
    (hdim : dim ∈ code.kept dims) : dim ∈ dims := by
  cases code with
  | conv2d | depthwiseConv2d => exact List.mem_of_mem_take hdim
  | averagePool2d =>
      rcases List.mem_append.mp hdim with hbatch | hchannels
      · exact List.mem_of_mem_take hbatch
      · exact List.mem_of_mem_drop hchannels
  | softmax => exact hdim

end OperationCode

/-- What the output of a layer has from the image that the layer reads. -/
structure Layer.TakesAfter (layer : Layer) (options : LoweringOptions)
    (image output : OperandType) : Prop where
  code : output.code = image.code
  unscaled : options.quantized = false → output.Unscaled
  solid : output.Solid ↔ (∀ dim ∈ layer.code.kept image.dims, 0 < dim) ∧
    (layer.code.convolves = true → ∃ bias, layer.params[1]? = some bias ∧
      ∀ dim ∈ bias.type.dims.head?, 0 < dim)

/-! ## Filters and biases -/

namespace Bias

variable {options : LoweringOptions} {tensor filter : Tensor}

theorem dims_of_type {dims : List UInt32} {type : OperandType}
    (htype : Bias.type options tensor filter dims = .ok type) :
    type.dims = dims ∧ (options.quantized = false → type.Unscaled) := by
  rw [Bias.type] at htype
  split at htype
  · cases htype
    exact ⟨rfl, fun _ => .plain _ _⟩
  · rename_i hquantized
    rw [Bool.not_eq_true', Bool.not_eq_false] at hquantized
    simp only [hquantized, reduceCtorEq, false_implies, and_true]
    split at htype
    · cases htype
      rfl
    · obtain ⟨_, -, htype⟩ := bind_eq_ok_iff.mp htype
      cases htype
      rfl

theorem channels_of_ofTensor {bias : Bias} (hread : ofTensor options tensor filter = .ok bias) :
    bias.param.type.dims.head? = some bias.channels := by
  simp only [ofTensor, bind_eq_ok_iff] at hread
  obtain ⟨dims, -, values, -, hread⟩ := hread
  cases hchannels : dims.head? with
  | none =>
      rw [hchannels] at hread
      cases hread
  | some channels =>
      simp only [hchannels, bind_eq_ok_iff, pure_eq_ok_iff] at hread
      obtain ⟨type, htype, rfl⟩ := hread
      exact (dims_of_type htype).1 ▸ hchannels

end Bias

theorem Filter.unscaled_of_type {options : LoweringOptions} {filter : Filter} {tensor : Tensor}
    {image : OperandCode} {type : OperandType}
    (htype : filter.type options tensor image = .ok type) (hfloat : options.quantized = false) :
    type.Unscaled := by
  rw [Filter.type, hfloat] at htype
  split at htype
  all_goals
    cases htype
    exact .plain _ _

namespace Param

/-- What a convolution on an image of this code makes of its filter. -/
structure FilterOf (param : Param) (options : LoweringOptions) (tensor : Tensor)
    (image : OperandCode) : Prop where
  name : param.name = some tensor.name
  elemType : ∃ values, tensor.data? = some values ∧ param.value.elemType = values.elemType
  code : param.type.code = if tensor.isPerChannel then .tensorQuant8SymmPerChannel else image
  channelQuant : tensor.isPerChannel = false → param.channelQuant = none
  unscaled : options.quantized = false → param.type.Unscaled

/-- What a convolution makes of its bias. -/
structure BiasOf (param : Param) (options : LoweringOptions) (tensor : Tensor) : Prop where
  name : param.name = some tensor.name
  value : tensor.data? = some param.value
  code : param.type.code = if options.quantized then .tensorInt32 else .tensorFloat32
  channelQuant : param.channelQuant = none
  unscaled : options.quantized = false → param.type.Unscaled

end Param

theorem Filter.filterOf_param {options : LoweringOptions} {operator : FlatOp} {tensor : Tensor}
    {channels : UInt32} {image : OperandCode} {filter : Filter} {param : Param}
    (hread : ofTensor operator tensor channels = .ok filter)
    (hparam : filter.param options tensor image = .ok param) :
    param.FilterOf options tensor image := by
  obtain ⟨type, htype, hparam⟩ := bind_eq_ok_iff.mp hparam
  cases pure_eq_ok_iff.mp hparam
  exact ⟨rfl, elemType_ofTensor hread, (type_eq_ok htype).2,
    fun hplain => by simp [channelQuant, hplain], unscaled_of_type htype⟩

theorem Bias.biasOf_param {options : LoweringOptions} {tensor filter : Tensor} {bias : Bias}
    (hread : ofTensor options tensor filter = .ok bias) : bias.param.BiasOf options tensor := by
  obtain ⟨dims, values, type, hvalues, htype, hparam⟩ := ofTensor_eq_ok hread
  rw [hparam]
  exact ⟨rfl, hvalues, type_eq_ok htype, rfl, (dims_of_type htype).2⟩

/-! ## Images and outputs -/

theorem Convolution.takesAfter {options : LoweringOptions} {operator : FlatOp} {graph : Graph}
    {convolution : Convolution} {name : String} {type : OperandType}
    (hread : ofOperator options graph operator = .ok convolution)
    (houtput : (convolution.layer options operator).output = .ok (name, type)) :
    (convolution.layer options operator).TakesAfter options convolution.input.type type := by
  obtain ⟨source, tensor, biasTensor, filter, -, -, -, hfeed, -, -, hbias, -⟩ :=
    ofOperator_eq_ok hread
  obtain ⟨-, -, himage⟩ := Graph.feed_eq_ok_iff.mp hfeed
  rw [Axes.ofDims_eq_ok_iff] at himage
  simp only [layer, bind_eq_ok_iff, pure_eq_ok_iff, Prod.mk.injEq] at houtput
  obtain ⟨axes, haxes, _, htype, _, -, -, rfl⟩ := houtput
  obtain ⟨hn, hh, hw, hc⟩ := Window.outputAxes_eq_ok haxes
  obtain ⟨hcode, hdims, hunscaled⟩ := FlatOp.outputType_eq_ok htype
  have hchannels := Bias.channels_of_ofTensor hbias
  refine ⟨hcode, hunscaled, ?_⟩
  have hkept : (convolution.layer options operator).code.kept convolution.input.type.dims =
      [axes.n] := by
    rw [himage, hn, layer]
    cases convolution.depthwise <;> rfl
  have hconvolves : (convolution.layer options operator).code.convolves = true := by
    rw [layer]
    cases convolution.depthwise <;> rfl
  rw [OperandType.solid_iff_of_axes hdims, hkept, hconvolves]
  simp [layer, params, hchannels, hc, hh, hw]

theorem Pooling.takesAfter {options : LoweringOptions} {operator : FlatOp} {graph : Graph}
    {pooling : Pooling} {name : String} {type : OperandType}
    (hread : ofOperator graph operator = .ok pooling)
    (houtput : (pooling.layer options operator).output = .ok (name, type)) :
    (pooling.layer options operator).TakesAfter options pooling.input.type type := by
  obtain ⟨source, -, hfeed⟩ := input_of_ofOperator hread
  obtain ⟨-, -, himage⟩ := Graph.feed_eq_ok_iff.mp hfeed
  rw [Axes.ofDims_eq_ok_iff] at himage
  simp only [layer, bind_eq_ok_iff, pure_eq_ok_iff, Prod.mk.injEq] at houtput
  obtain ⟨axes, haxes, _, htype, _, -, -, rfl⟩ := houtput
  obtain ⟨hn, hh, hw, hc⟩ := Window.outputAxes_eq_ok haxes
  obtain ⟨hcode, hdims, hunscaled⟩ := FlatOp.outputType_eq_ok htype
  refine ⟨hcode, hunscaled, ?_⟩
  have hkept : (pooling.layer options operator).code.kept pooling.input.type.dims =
      [axes.n, axes.c] := by
    rw [himage, hn, hc]
    rfl
  rw [OperandType.solid_iff_of_axes hdims, hkept]
  simp [layer, OperationCode.convolves, hh, hw]

theorem Softmax.takesAfter {options : LoweringOptions} {operator : FlatOp} {input : OperandId}
    {name written : String} {image type : OperandType}
    (houtput : (Softmax.layer options operator name input image).output = .ok (written, type)) :
    (Softmax.layer options operator name input image).TakesAfter options image type := by
  simp only [layer, bind_eq_ok_iff, pure_eq_ok_iff, Prod.mk.injEq] at houtput
  obtain ⟨_, htype, -, rfl⟩ := houtput
  obtain ⟨hcode, hdims, hunscaled⟩ := FlatOp.outputType_eq_ok htype
  refine ⟨hcode, hunscaled, ?_⟩
  simp [layer, OperationCode.convolves, OperationCode.kept, OperandType.Solid, hdims]

/-! ## Operators -/

/-- The constants that an operator may bring to a graph. -/
inductive Param.BroughtBy (options : LoweringOptions) (operator : FlatOp) (graph : Graph) :
    Param → Prop where
  | int (number : Int32) : BroughtBy options operator graph (.int number)
  | single (number : Single) : BroughtBy options operator graph (.single number)
  | filter (param : Param) (tensor : Tensor) (image : Operand) (convolves : operator.Convolves)
      (listed : operator.inputs[1]? = some tensor) (read : image ∈ graph.operands)
      (made : param.FilterOf options tensor image.type.code) :
      BroughtBy options operator graph param
  | bias (param : Param) (tensor : Tensor) (convolves : operator.Convolves)
      (listed : operator.inputs[2]? = some tensor) (made : param.BiasOf options tensor) :
      BroughtBy options operator graph param

theorem Param.BroughtBy.of_mem_ints {options : LoweringOptions} {operator : FlatOp} {graph : Graph}
    {numbers : List Int32} {param : Param} (hparam : param ∈ numbers.map Param.int) :
    param.BroughtBy options operator graph := by
  obtain ⟨number, -, rfl⟩ := List.mem_map.mp hparam
  exact .int number

namespace FlatOp

/-- A layer that an operator makes of what it reads in a graph. -/
structure Makes (operator : FlatOp) (options : LoweringOptions) (graph : Graph) (layer : Layer) :
    Prop where
  image : ∃ operand, graph.operand? layer.input = some operand ∧
    ∀ name type, layer.output = .ok (name, type) → layer.TakesAfter options operand.type type
  params : ∀ param ∈ layer.params, param.BroughtBy options operator graph

variable {options : LoweringOptions} {operator : FlatOp} {graph next : Graph}

theorem makes_convolution {convolution : Convolution} (hconvolves : operator.Convolves)
    (hread : Convolution.ofOperator options graph operator = .ok convolution) :
    operator.Makes options graph (convolution.layer options operator) := by
  obtain ⟨source, tensor, biasTensor, filter, -, htensor, hbiasTensor, hfeed, hfilter, hmade,
    hbias, -⟩ := Convolution.ofOperator_eq_ok hread
  obtain ⟨-, ⟨operand, hoperand, htype⟩, -⟩ := Graph.feed_eq_ok_iff.mp hfeed
  refine ⟨⟨operand, hoperand, fun name type houtput => ?_⟩, fun param hparam => ?_⟩
  · rw [htype]
    exact Convolution.takesAfter hread houtput
  · simp only [Convolution.layer, Convolution.params, List.mem_cons] at hparam
    rcases hparam with rfl | rfl | hscalar
    · rw [← htype] at hmade
      exact .filter _ tensor operand hconvolves htensor (Graph.mem_of_operand? hoperand)
        (Filter.filterOf_param hfilter hmade)
    · exact .bias _ biasTensor hconvolves hbiasTensor (Bias.biasOf_param hbias)
    · exact .of_mem_ints hscalar

theorem makes_pooling {pooling : Pooling}
    (hread : Pooling.ofOperator graph operator = .ok pooling) :
    operator.Makes options graph (pooling.layer options operator) := by
  obtain ⟨source, -, hfeed⟩ := Pooling.input_of_ofOperator hread
  obtain ⟨-, ⟨operand, hoperand, htype⟩, -⟩ := Graph.feed_eq_ok_iff.mp hfeed
  refine ⟨⟨operand, hoperand, fun name type houtput => ?_⟩, fun param hparam => ?_⟩
  · rw [htype]
    exact Pooling.takesAfter hread houtput
  · exact .of_mem_ints hparam

theorem makes_softmax {name : String} {input : OperandId} {type : OperandType}
    (htyped : graph.typeOf input = .ok type) :
    operator.Makes options graph (Softmax.layer options operator name input type) := by
  obtain ⟨operand, hoperand, rfl⟩ := Graph.typeOf_eq_ok_iff.mp htyped
  refine ⟨⟨operand, hoperand, fun written output houtput => Softmax.takesAfter houtput⟩, ?_⟩
  intro param hparam
  cases List.mem_singleton.mp hparam
  exact .single .one

/-- Whatever the operator, it makes a layer or gives a name. -/
theorem Grows.makes_or_names (hgrows : operator.Grows options graph next) :
    (∃ layer, operator.Makes options graph layer ∧ graph.addLayer layer = .ok next) ∨
      ∃ name id, graph.nameAs name id = .ok next := by
  cases hgrows with
  | convolution convolution htype hread hadded =>
      exact .inl ⟨_, makes_convolution htype hread, hadded⟩
  | pooling pooling _ hread hadded => exact .inl ⟨_, makes_pooling hread, hadded⟩
  | skipped _ name input _ _ _ _ _ hnamed => exact .inr ⟨name, input, hnamed⟩
  | softmax _ _ _ _ _ _ _ _ _ htyped hadded => exact .inl ⟨_, makes_softmax htyped, hadded⟩

end FlatOp

/-! ## Nets -/

variable {options : LoweringOptions} {net : FlatNet} {graph next : Graph}

namespace Graph

/-- The operation is a layer that an operator of the net added in its moment. -/
def Stems (graph : Graph) (options : LoweringOptions) (net : FlatNet) (operation : Operation) :
    Prop :=
  ∃ operator ∈ net.operators, ∃ before layer after, operator.Makes options before layer ∧
    before.addLayer layer = .ok after ∧ after.Extends graph ∧ operation = layer.operation before

/-- The value is that of a constant which an operator of the net has brought. -/
def Owes (graph : Graph) (options : LoweringOptions) (net : FlatNet) (id : OperandId)
    (value : Buffer) : Prop :=
  ∃ operator ∈ net.operators, ∃ before, ∃ param : Param, param.BroughtBy options operator before ∧
    param.value = value ∧ graph.operand? id = some param.operand

theorem Extends.stems {operation : Operation} (hextends : graph.Extends next)
    (hstems : graph.Stems options net operation) : next.Stems options net operation := by
  obtain ⟨operator, hoperator, before, layer, after, hmakes, hadded, hgraph, hlayer⟩ := hstems
  exact ⟨operator, hoperator, before, layer, after, hmakes, hadded, hgraph.trans hextends, hlayer⟩

theorem Extends.owes {id : OperandId} {value : Buffer} (hextends : graph.Extends next)
    (howes : graph.Owes options net id value) : next.Owes options net id value := by
  obtain ⟨operator, hoperator, before, param, hbrought, hvalue, hoperand⟩ := howes
  exact ⟨operator, hoperator, before, param, hbrought, hvalue, hextends.operand? hoperand⟩

end Graph

theorem FlatOp.Grows.stems {operator : FlatOp} (hgrows : operator.Grows options graph next)
    (hoperator : operator ∈ net.operators)
    (hstems : ∀ operation ∈ graph.operations, graph.Stems options net operation) :
    ∀ operation ∈ next.operations, next.Stems options net operation := by
  intro operation hoperation
  rcases hgrows.makes_or_names with ⟨layer, hmakes, hadded⟩ | ⟨name, id, hnamed⟩
  · rw [Graph.operations_of_addLayer hadded, List.mem_append, List.mem_singleton] at hoperation
    rcases hoperation with hbefore | hlast
    · exact hgrows.extends.stems (hstems operation hbefore)
    · exact ⟨operator, hoperator, graph, layer, next, hmakes, hadded, .refl next, hlast⟩
  · obtain ⟨-, rfl⟩ := Graph.nameAs_eq_ok_iff.mp hnamed
    exact hgrows.extends.stems (hstems operation hoperation)

theorem FlatOp.Grows.owes {operator : FlatOp} (hgrows : operator.Grows options graph next)
    (hoperator : operator ∈ net.operators)
    (howes : ∀ id value, graph.values.find? id = some value → graph.Owes options net id value) :
    ∀ id value, next.values.find? id = some value → next.Owes options net id value := by
  intro id value hfound
  rcases hgrows.makes_or_names with ⟨layer, hmakes, hadded⟩ | ⟨name, other, hnamed⟩
  · rcases Graph.bound_of_addLayer hadded hfound with hbefore | ⟨param, hparam, hvalue, hoperand⟩
    · exact hgrows.extends.owes (howes id value hbefore)
    · exact ⟨operator, hoperator, graph, param, hmakes.params param hparam, hvalue, hoperand⟩
  · obtain ⟨-, rfl⟩ := Graph.nameAs_eq_ok_iff.mp hnamed
    exact hgrows.extends.owes (howes id value hfound)

namespace FlatNet

theorem stems_of_lower (hlower : net.lower options = .ok graph) :
    ∀ operation ∈ graph.operations, graph.Stems options net operation := by
  obtain ⟨grown, _, _, hstems, -, rfl⟩ :=
    lower_preserves (fun state => ∀ operation ∈ state.operations,
      state.Stems options net operation) hlower (by simp [startGraph, Graph.empty])
      fun _ _ _ hoperator hbefore hgrows => hgrows.stems hoperator hbefore
  exact fun operation hoperation => (grown.extends_withEnds _ _).stems (hstems operation hoperation)

theorem owes_of_lower (hlower : net.lower options = .ok graph) :
    ∀ id value, graph.values.find? id = some value → graph.Owes options net id value := by
  obtain ⟨grown, _, _, howes, -, rfl⟩ :=
    lower_preserves (fun state => ∀ id value, state.values.find? id = some value →
      state.Owes options net id value) hlower
      (fun _ _ id value hfound => by cases (Table.find?_empty id).symm.trans hfound)
      fun _ _ _ hoperator hbefore hgrows => hgrows.owes hoperator hbefore
  exact fun id value hfound => (grown.extends_withEnds _ _).owes (howes id value hfound)

end FlatNet

end NetLowering
