import NetLowering.Proofs.FlatNet.Remapped
import NetLowering.Proofs.Lowering.Coherence
import NetLowering.Proofs.Lowering.Simulation

/-!
# Graphs with signed weights

Whether weights are signed is asked in four places: when a net is loaded, for the
type of its input, for the code of quantized operands and for the zero point of a
softmax.  None of them decides what the graph looks like: with signed weights the
same nets are lowered to a graph of the same structure, with signed codes and signed
bytes in it (`FlatNet.lower_signed`).
-/

namespace NetLowering

open Checked

/-! ## What changes -/

def OperandCode.signed : OperandCode → OperandCode
  | .tensorQuant8Asymm => .tensorQuant8AsymmSigned
  | code => code

structure OperandType.Signs (plain signed : OperandType) : Prop where
  code : signed.code = plain.code.signed
  dims : signed.dims = plain.dims
  scale : signed.scale = plain.scale

structure Operand.Signs (plain signed : Operand) : Prop where
  name : signed.name = plain.name
  type : plain.type.Signs signed.type

namespace Buffer

/-- Bytes that are each lowered by 128. -/
def Lowers (plain signed : Buffer) : Prop :=
  ∃ bytes numbers, plain = .uint8 bytes ∧ signed = .int8 numbers ∧
    numbers.toList.map Int8.toInt = bytes.toList.map fun byte => (byte.toNat : Int) - 128

/-- What is bound to an operand of this name is lowered if names like it are, and is the same
otherwise. -/
def Signs (lowered : String → Prop) (name : Option String) (plain signed : Buffer) : Prop :=
  ((∃ known ∈ name, lowered known) → plain.Lowers signed) ∧
    ((∀ known ∈ name, ¬lowered known) → signed = plain)

end Buffer

/-- The second graph is the first one with signed codes and, under some names, lowered bytes. -/
structure Graph.Signs (lowered : String → Prop) (plain signed : Graph) : Prop where
  operands : List.Forall₂ Operand.Signs plain.operands signed.operands
  values : ∀ id, Option.Rel
    (fun value other => ∃ operand, plain.operand? id = some operand ∧
      value.Signs lowered operand.name other)
    (plain.values.find? id) (signed.values.find? id)
  channelQuants : signed.channelQuants = plain.channelQuants
  operations : signed.operations = plain.operations
  tensorIds : signed.tensorIds = plain.tensorIds
  inputs : signed.inputs = plain.inputs
  outputs : signed.outputs = plain.outputs

/-! ## Buffers -/

namespace Buffer

variable {lowered : String → Prop} {name : Option String} {plain signed : Buffer}

theorem lowers_iff :
    plain.Lowers signed ↔
      ∃ bytes, plain = .uint8 bytes ∧ signed = .int8 (bytes.map Tensor.toSigned) := by
  have hints (bytes : Array UInt8) : (bytes.map Tensor.toSigned).toList.map Int8.toInt =
      bytes.toList.map fun byte => (byte.toNat : Int) - 128 := by
    simp [Function.comp_def, Tensor.toInt_toSigned]
  constructor
  · rintro ⟨bytes, numbers, rfl, rfl, hnumbers⟩
    rw [← hints] at hnumbers
    have hlists := List.map_injective_iff.mpr (fun _ _ => Int8.toInt_inj.mp) hnumbers
    exact ⟨bytes, rfl, congrArg _ (Array.toList_inj.mp hlists)⟩
  · rintro ⟨bytes, rfl, rfl⟩
    exact ⟨bytes, _, rfl, rfl, hints bytes⟩

theorem signs_iff :
    plain.Signs lowered name signed ↔
      (∃ known ∈ name, lowered known) ∧ plain.Lowers signed ∨
        (¬∃ known ∈ name, lowered known) ∧ signed = plain := by
  have hnone : (∀ known ∈ name, ¬lowered known) ↔ ¬∃ known ∈ name, lowered known := by simp
  rw [Signs, hnone]
  generalize (∃ known ∈ name, lowered known) = listed
  tauto

namespace Signs

theorem of_unnamed (plain : Buffer) : plain.Signs lowered none plain :=
  signs_iff.mpr (.inr ⟨by simp, rfl⟩)

theorem size (hsigns : plain.Signs lowered name signed) : signed.size = plain.size := by
  rcases signs_iff.mp hsigns with ⟨-, hlowers⟩ | ⟨-, rfl⟩
  · obtain ⟨bytes, rfl, rfl⟩ := lowers_iff.mp hlowers
    exact Array.size_map
  · rfl

/-- What is lowered and moved is moved and lowered. -/
theorem planesToChannels (hsigns : plain.Signs lowered name signed) (n h w : Nat) :
    Follows (Signs lowered name) (plain.rearrange (NetLowering.planesToChannels n h w))
      (signed.rearrange (NetLowering.planesToChannels n h w)) := by
  intro relaid hrelaid
  rcases signs_iff.mp hsigns with ⟨hname, hlowers⟩ | ⟨hname, rfl⟩
  · obtain ⟨bytes, rfl, rfl⟩ := lowers_iff.mp hlowers
    obtain ⟨moved, hmoved, rfl⟩ := map_eq_ok_iff.mp hrelaid
    change NetLowering.planesToChannels n h w bytes = .ok moved at hmoved
    have hmap : NetLowering.planesToChannels n h w (bytes.map Tensor.toSigned) =
        .ok (moved.map Tensor.toSigned) := by
      rw [planesToChannels_map, hmoved]
      rfl
    exact ⟨_, map_eq_ok_iff.mpr ⟨_, hmap, rfl⟩,
      signs_iff.mpr (.inl ⟨hname, lowers_iff.mpr ⟨moved, rfl, rfl⟩⟩)⟩
  · exact ⟨relaid, hrelaid, signs_iff.mpr (.inr ⟨hname, rfl⟩)⟩

end Signs

end Buffer

/-! ## Tensors -/

namespace Tensor

variable {lowered : String → Prop} {tensor : Tensor}

@[simp] theorem shape_remapSigned (tensor : Tensor) : tensor.remapSigned.shape = tensor.shape := by
  rw [remapSigned]
  split <;> rfl

@[simp] theorem scale_remapSigned (tensor : Tensor) : tensor.remapSigned.scale = tensor.scale := by
  rw [remapSigned]
  split <;> rfl

theorem requireDims_remapSigned (tensor : Tensor) :
    tensor.remapSigned.requireDims = tensor.requireDims := by
  simp [requireDims, dims?]

theorem scales?_remapSigned (tensor : Tensor) : tensor.remapSigned.scales? = tensor.scales? := by
  simp [scales?]

theorem requireScale_remapSigned (tensor : Tensor) :
    tensor.remapSigned.requireScale = tensor.requireScale := by
  simp [requireScale, scales?_remapSigned]

theorem isPerChannel_remapSigned (tensor : Tensor) :
    tensor.remapSigned.isPerChannel = tensor.isPerChannel := by
  simp [isPerChannel, scales?_remapSigned]

theorem follows_requireZeroPoint (tensor : Tensor) :
    Follows (fun _ _ => True) tensor.requireZeroPoint tensor.remapSigned.requireZeroPoint := by
  by_cases hbiased : ∃ bytes, tensor.Biased bytes
  · obtain ⟨bytes, hbiased⟩ := hbiased
    rw [remapSigned_of_biased hbiased]
    exact fun _ _ => ⟨0, rfl, trivial⟩
  · rw [remapSigned_of_not_biased fun bytes hbytes => hbiased ⟨bytes, hbytes⟩]
    exact fun zeroPoint hzero => ⟨zeroPoint, hzero, trivial⟩

theorem follows_requireData (hbytes : lowered tensor.name ↔ ∃ bytes, tensor.Biased bytes) :
    Follows (Buffer.Signs lowered (some tensor.name)) tensor.requireData
      tensor.remapSigned.requireData := by
  intro values hvalues
  rw [requireData_eq_ok_iff, data?_eq_some_iff] at hvalues
  by_cases hbiased : ∃ bytes, tensor.Biased bytes
  · obtain ⟨bytes, hbiased⟩ := hbiased
    cases hvalues.symm.trans hbiased.1
    rw [remapSigned_of_biased hbiased]
    exact ⟨.int8 (bytes.map toSigned), requireData_eq_ok_iff.mpr rfl, Buffer.signs_iff.mpr
      (.inl ⟨⟨_, rfl, hbytes.mpr ⟨bytes, hbiased⟩⟩, Buffer.lowers_iff.mpr ⟨bytes, rfl, rfl⟩⟩)⟩
  · rw [remapSigned_of_not_biased fun bytes hbiases => hbiased ⟨bytes, hbiases⟩]
    exact ⟨values, requireData_eq_ok_iff.mpr (data?_eq_some_iff.mpr hvalues),
      Buffer.signs_iff.mpr (.inr ⟨by simpa [hbytes] using hbiased, rfl⟩)⟩

end Tensor

/-! ## Growing graphs -/

structure Param.Signs (lowered : String → Prop) (plain signed : Param) : Prop where
  name : signed.name = plain.name
  type : plain.type.Signs signed.type
  value : plain.value.Signs lowered plain.name signed.value
  channelQuant : signed.channelQuant = plain.channelQuant

structure Feed.Signs (plain signed : Feed) : Prop where
  id : signed.id = plain.id
  type : plain.type.Signs signed.type
  axes : signed.axes = plain.axes

namespace Graph.Signs

variable {lowered : String → Prop} {plain signed : Graph}

theorem operand? (hsigns : plain.Signs lowered signed) {id : OperandId} {operand : Operand}
    (hoperand : plain.operand? id = some operand) :
    ∃ other, signed.operand? id = some other ∧ operand.Signs other := by
  rw [Graph.operand?] at hoperand ⊢
  split at hoperand
  · cases hoperand
  · rename_i hown
    obtain ⟨hplace, rfl⟩ := List.getElem?_eq_some_iff.mp hoperand
    have hother := hsigns.operands.length_eq ▸ hplace
    rw [if_neg hown]
    exact ⟨_, List.getElem?_eq_getElem hother, hsigns.operands.get hplace hother⟩

theorem typeOf (hsigns : plain.Signs lowered signed) (id : OperandId) :
    Follows OperandType.Signs (plain.typeOf id) (signed.typeOf id) := by
  intro type htype
  obtain ⟨operand, hoperand, rfl⟩ := typeOf_eq_ok_iff.mp htype
  obtain ⟨other, hother, hsame⟩ := hsigns.operand? hoperand
  exact ⟨other.type, typeOf_eq_ok_iff.mpr ⟨other, hother, rfl⟩, hsame.type⟩

theorem resolve (hsigns : plain.Signs lowered signed) (name : String) :
    signed.resolve name = plain.resolve name := by
  rw [Graph.resolve, Graph.resolve, hsigns.tensorIds]

theorem feed (hsigns : plain.Signs lowered signed) (tensor : Tensor) :
    Follows Feed.Signs (plain.feed tensor) (signed.feed tensor.remapSigned) := by
  rw [Graph.feed, Graph.feed, Tensor.name_remapSigned, hsigns.resolve]
  refine follows_bind_same fun id => ?_
  refine (hsigns.typeOf id).bind fun type other htype => ?_
  rw [htype.dims]
  refine follows_bind_same fun axes => ?_
  exact follows_ok ⟨rfl, htype, rfl⟩

/-- What is bound to an operand that is there already stays signed when operands are added. -/
theorem values_push (hsigns : plain.Signs lowered signed) (operand : Operand) (id : OperandId) :
    Option.Rel
      (fun value other => ∃ found, (plain.push operand).operand? id = some found ∧
        value.Signs lowered found.name other)
      (plain.values.find? id) (signed.values.find? id) := by
  have hvalues := hsigns.values id
  generalize plain.values.find? id = bound, signed.values.find? id = other at hvalues ⊢
  cases hvalues with
  | none => exact .none
  | some hbound =>
      obtain ⟨found, hfound, hvalue⟩ := hbound
      exact .some ⟨found, (extends_push operand).operand? hfound, hvalue⟩

end Graph.Signs

theorem Graph.simulation_signs (lowered : String → Prop) :
    Simulation (Graph.Signs lowered) (Param.Signs lowered) OperandType.Signs where
  size hsigns := hsigns.operands.length_eq.symm
  param := by
    intro plain signed param partner hsigns hparam hadmits
    -- As many operands on both sides: the new one gets the same identifier.
    have hnext : signed.nextId = plain.nextId := by
      rw [nextId, nextId, hsigns.operands.length_eq]
    have hfree : signed.values.find? plain.nextId = none := by
      have hvalues := hsigns.values plain.nextId
      rw [hadmits.newValue] at hvalues
      generalize signed.values.find? plain.nextId = bound at hvalues ⊢
      cases hvalues
      rfl
    refine ⟨⟨?_, ?_, hnext ▸ hfree, ?_⟩, ?_, ?_, ?_, hsigns.operations, ?_, hsigns.inputs,
      hsigns.outputs⟩
    · rw [OperandType.elements, hparam.type.dims, hparam.value.size]
      exact hadmits.elements
    · rw [hparam.name, hsigns.tensorIds]
      exact hadmits.newName
    · rw [hparam.channelQuant, hsigns.channelQuants, hnext]
      exact hadmits.newQuant
    · exact List.rel_append hsigns.operands (.cons ⟨hparam.name, hparam.type⟩ .nil)
    · intro id
      simp only [withParam, hnext, Table.find?_insert]
      split
      · rename_i hid
        refine .some ⟨param.operand, ?_, hparam.value⟩
        rw [hid]
        exact operand?_push_nextId plain param.operand
      · exact hsigns.values_push param.operand id
    · simp only [withParam, hnext, hparam.channelQuant, hsigns.channelQuants]
    · simp only [withParam, hnext, hparam.name, hsigns.tensorIds]
  result := by
    intro plain signed name type partner operation hsigns htype hfresh
    have hnext : signed.nextId = plain.nextId := by
      rw [nextId, nextId, hsigns.operands.length_eq]
    refine ⟨hsigns.tensorIds ▸ hfresh, ?_, hsigns.values_push ⟨some name, type⟩,
      hsigns.channelQuants, ?_, ?_, hsigns.inputs, hsigns.outputs⟩
    · exact List.rel_append hsigns.operands (.cons ⟨rfl, htype⟩ .nil)
    · rw [withResult, withResult, hsigns.operations]
    · rw [withResult, withResult, hsigns.tensorIds, hnext]

/-! ## What operators read -/

def LoweringOptions.signed (options : LoweringOptions) : LoweringOptions :=
  { options with signedRemap := true }

/-- Of the inputs, those of these names have bytes around 128. -/
def FlatOp.BiasedBy (operator : FlatOp) (lowered : String → Prop) : Prop :=
  ∀ tensor ∈ operator.inputs, (lowered tensor.name ↔ ∃ bytes, tensor.Biased bytes)

section Readings

variable {lowered : String → Prop} {options : LoweringOptions} {operator : FlatOp}
  {plain signed : Graph}

theorem FlatOp.follows_input (hbiased : operator.BiasedBy lowered) (index : Nat) :
    Follows (fun tensor other => other = tensor.remapSigned ∧
        (lowered tensor.name ↔ ∃ bytes, tensor.Biased bytes))
      (operator.input index) (operator.remapSigned.input index) := by
  intro tensor hread
  rw [input_eq_ok_iff] at hread
  refine ⟨tensor.remapSigned, input_eq_ok_iff.mpr ?_, rfl,
    hbiased tensor (List.mem_of_getElem? hread)⟩
  simp [remapSigned, hread]

theorem FlatOp.follows_outputType (operator : FlatOp) (code : OperandCode) (dims : List UInt32)
    (scale : Single) (zeroPoint other : Int32) :
    Follows OperandType.Signs (operator.outputType options code dims scale zeroPoint)
      (operator.remapSigned.outputType options.signed code.signed dims scale other) := by
  rw [outputType, outputType]
  refine follows_ite (fun _ => ?_) fun _ => follows_ok ⟨rfl, rfl, rfl⟩
  have hquant : Follows (fun quant other => other.1 = quant.1)
      (operator.outputQuant scale zeroPoint) (operator.remapSigned.outputQuant scale other) := by
    refine follows_bind_same fun given => ?_
    exact follows_bind_same fun _ => follows_ok rfl
  refine hquant.bind fun quant other hscale => follows_ok ⟨rfl, rfl, ?_⟩
  exact congrArg some hscale

/-! ### Filters -/

structure Filter.Signs (lowered : String → Prop) (name : String) (plain signed : Filter) :
    Prop where
  depthwise : signed.depthwise = plain.depthwise
  dims : signed.dims = plain.dims
  values : plain.values.Signs lowered (some name) signed.values

namespace Filter

variable {filter other : Filter} {tensor : Tensor}

theorem follows_repack {name : String} {values others : Buffer}
    (hvalues : values.Signs lowered (some name) others) (group : Int32) (dims : List UInt32) :
    Follows (Signs lowered name) (repack name group dims values)
      (repack name group dims others) := by
  rw [repack, repack, hvalues.size]
  refine follows_bind_same fun axes => ?_
  refine follows_ite (fun _ => follows_refused _ _) fun _ => ?_
  exact (hvalues.planesToChannels _ _ _).mapError.bind fun _ _ hrepacked =>
    follows_ok ⟨rfl, rfl, hrepacked⟩

theorem follows_ofTensor (operator : FlatOp)
    (hbytes : lowered tensor.name ↔ ∃ bytes, tensor.Biased bytes) (channels : UInt32) :
    Follows (Signs lowered tensor.name) (ofTensor operator tensor channels)
      (ofTensor operator.remapSigned tensor.remapSigned channels) := by
  rw [ofTensor, ofTensor, Tensor.requireDims_remapSigned, Tensor.name_remapSigned]
  refine follows_bind_same fun dims => ?_
  refine (Tensor.follows_requireData hbytes).bind fun values others hvalues => ?_
  refine follows_bind_same fun group => ?_
  refine follows_ite (fun _ => ?_) fun _ => follows_ok ⟨rfl, rfl, hvalues⟩
  exact follows_ite (fun _ => follows_refused _ _) fun _ => follows_repack hvalues group dims

theorem follows_type (hdims : other.dims = filter.dims) (tensor : Tensor) (input : OperandCode) :
    Follows OperandType.Signs (filter.type options tensor input)
      (other.type options.signed tensor.remapSigned input.signed) := by
  rw [Filter.type, Filter.type, Tensor.isPerChannel_remapSigned, Tensor.requireScale_remapSigned,
    hdims]
  refine follows_ite (fun _ => follows_ok ⟨rfl, rfl, rfl⟩) fun _ => ?_
  refine follows_ite (fun _ => ?_) fun _ => follows_ok ⟨rfl, rfl, rfl⟩
  refine follows_bind_same fun scale => ?_
  exact tensor.follows_requireZeroPoint.bind fun _ _ _ => follows_ok ⟨rfl, rfl, rfl⟩

theorem follows_param (hfilter : filter.Signs lowered tensor.name other) (input : OperandCode) :
    Follows (Param.Signs lowered) (filter.param options tensor input)
      (other.param options.signed tensor.remapSigned input.signed) := by
  have hquant : other.channelQuant tensor.remapSigned = filter.channelQuant tensor := by
    simp only [channelQuant, channelDim, Tensor.isPerChannel_remapSigned,
      Tensor.scales?_remapSigned, hfilter.depthwise]
  rw [Filter.param, Filter.param, Tensor.name_remapSigned, hquant]
  exact (follows_type hfilter.dims tensor input).bind fun _ _ htype =>
    follows_ok ⟨rfl, htype, hfilter.values, rfl⟩

end Filter

/-! ### Biases -/

structure Bias.Signs (lowered : String → Prop) (plain signed : Bias) : Prop where
  channels : signed.channels = plain.channels
  param : plain.param.Signs lowered signed.param

namespace Bias

variable {tensor : Tensor}

theorem follows_type (tensor filter : Tensor) (dims : List UInt32) :
    Follows OperandType.Signs (Bias.type options tensor filter dims)
      (Bias.type options.signed tensor.remapSigned filter.remapSigned dims) := by
  rw [Bias.type, Bias.type, Tensor.isPerChannel_remapSigned, Tensor.requireScale_remapSigned]
  refine follows_ite (fun _ => follows_ok ⟨rfl, rfl, rfl⟩) fun _ => ?_
  refine follows_ite (fun _ => follows_ok ⟨rfl, rfl, rfl⟩) fun _ => ?_
  refine follows_bind_same fun scale => ?_
  exact follows_ok ⟨rfl, rfl, rfl⟩

theorem follows_ofTensor (hbytes : lowered tensor.name ↔ ∃ bytes, tensor.Biased bytes)
    (filter : Tensor) :
    Follows (Signs lowered) (ofTensor options tensor filter)
      (ofTensor options.signed tensor.remapSigned filter.remapSigned) := by
  rw [ofTensor, ofTensor, Tensor.requireDims_remapSigned, Tensor.name_remapSigned]
  refine follows_bind_same fun dims => ?_
  refine (Tensor.follows_requireData hbytes).bind fun values others hvalues => ?_
  cases dims.head? with
  | none => exact follows_refused _ _
  | some channels =>
      exact (follows_type tensor filter dims).bind fun _ _ htype =>
        follows_ok ⟨rfl, rfl, htype, hvalues, rfl⟩

end Bias

/-! ### Convolutions and poolings -/

structure Convolution.Signs (lowered : String → Prop) (plain signed : Convolution) : Prop where
  input : plain.input.Signs signed.input
  depthwise : signed.depthwise = plain.depthwise
  window : signed.window = plain.window
  activation : signed.activation = plain.activation
  filter : plain.filter.Signs lowered signed.filter
  bias : plain.bias.Signs lowered signed.bias

structure Pooling.Signs (plain signed : Pooling) : Prop where
  input : plain.input.Signs signed.input
  window : signed.window = plain.window
  activation : signed.activation = plain.activation

theorem Convolution.follows_ofOperator (hsigns : plain.Signs lowered signed)
    (hbiased : operator.BiasedBy lowered) :
    Follows (Signs lowered) (ofOperator options plain operator)
      (ofOperator options.signed signed operator.remapSigned) := by
  rw [ofOperator, ofOperator]
  refine (FlatOp.follows_input hbiased 0).bind ?_
  rintro source _ ⟨rfl, -⟩
  refine (FlatOp.follows_input hbiased 1).bind ?_
  rintro filterTensor _ ⟨rfl, hfilterBytes⟩
  refine (FlatOp.follows_input hbiased 2).bind ?_
  rintro biasTensor _ ⟨rfl, hbiasBytes⟩
  refine (hsigns.feed source).bind fun input other hinput => ?_
  rw [hinput.axes, hinput.type.code]
  refine (Filter.follows_ofTensor operator hfilterBytes _).bind fun filter repacked hfilter => ?_
  refine follows_bind_same fun window => ?_
  refine follows_bind_same fun activation => ?_
  refine (Filter.follows_param hfilter _).bind fun param partner hparam => ?_
  refine (Bias.follows_ofTensor hbiasBytes filterTensor).bind fun bias otherBias hbias => ?_
  exact follows_ok ⟨hinput, hfilter.depthwise, rfl, rfl, hparam, hbias⟩

theorem Pooling.follows_ofOperator (hsigns : plain.Signs lowered signed)
    (hbiased : operator.BiasedBy lowered) :
    Follows Signs (ofOperator plain operator) (ofOperator signed operator.remapSigned) := by
  rw [ofOperator, ofOperator]
  refine (FlatOp.follows_input hbiased 0).bind ?_
  rintro source _ ⟨rfl, -⟩
  refine (hsigns.feed source).bind fun input other hinput => ?_
  rw [hinput.axes]
  refine follows_bind_same fun global => ?_
  refine follows_bind_same fun window => ?_
  refine follows_bind_same fun activation => ?_
  exact follows_ok ⟨hinput, rfl, rfl⟩

/-! ## Layers -/

theorem Param.signs_int (number : Int32) : (Param.int number).Signs lowered (.int number) :=
  ⟨rfl, ⟨rfl, rfl, rfl⟩, .of_unnamed _, rfl⟩

theorem Param.signs_single (number : Single) :
    (Param.single number).Signs lowered (.single number) :=
  ⟨rfl, ⟨rfl, rfl, rfl⟩, .of_unnamed _, rfl⟩

theorem forall₂_signs_ints (numbers : List Int32) :
    List.Forall₂ (Param.Signs lowered) (numbers.map .int) (numbers.map .int) :=
  List.forall₂_same.mpr <| List.forall_mem_map.mpr fun number _ => Param.signs_int number

theorem Convolution.Signs.alike {convolution other : Convolution}
    (hsigns : convolution.Signs lowered other) :
    (convolution.layer options operator).Alike (Param.Signs lowered) OperandType.Signs
      (other.layer options.signed operator.remapSigned) where
  code := by simp only [layer, hsigns.depthwise]
  input := hsigns.input.id
  params := by
    simp only [layer, params, hsigns.depthwise, hsigns.window, hsigns.activation]
    exact .cons hsigns.filter (.cons hsigns.bias.param (forall₂_signs_ints _))
  output := by
    simp only [layer, hsigns.window, hsigns.input.axes, hsigns.bias.channels,
      hsigns.input.type.code]
    refine follows_bind_same fun axes => ?_
    refine (operator.follows_outputType _ _ _ _ _).bind fun type otherType htype => ?_
    refine follows_bind_same fun name => ?_
    exact follows_ok ⟨rfl, htype⟩

theorem Pooling.Signs.alike {pooling other : Pooling} (hsigns : pooling.Signs other) :
    (pooling.layer options operator).Alike (Param.Signs lowered) OperandType.Signs
      (other.layer options.signed operator.remapSigned) where
  code := rfl
  input := hsigns.input.id
  params := by
    simp only [layer, params, hsigns.window, hsigns.activation]
    exact forall₂_signs_ints _
  output := by
    simp only [layer, hsigns.window, hsigns.input.axes, hsigns.input.type.code,
      hsigns.input.type.scale]
    refine follows_bind_same fun axes => ?_
    refine (operator.follows_outputType _ _ _ _ _).bind fun type otherType htype => ?_
    refine follows_bind_same fun name => ?_
    exact follows_ok ⟨rfl, htype⟩

theorem Softmax.alike {type other : OperandType} (htype : type.Signs other) (name : String)
    (input : OperandId) :
    (layer options operator name input type).Alike (Param.Signs lowered) OperandType.Signs
      (layer options.signed operator.remapSigned name input other) where
  code := rfl
  input := rfl
  params := .cons (Param.signs_single .one) .nil
  output := by
    simp only [layer, htype.code, htype.dims]
    exact (operator.follows_outputType _ _ _ _ _).bind fun _ _ houtput =>
      follows_ok ⟨rfl, houtput⟩

/-! ## Steps and runs -/

theorem Softmax.follows_lower (hsigns : plain.Signs lowered signed)
    (hbiased : operator.BiasedBy lowered) :
    Follows (Graph.Signs lowered) (lower options plain operator)
      (lower options.signed signed operator.remapSigned) := by
  rw [lower, lower]
  refine (FlatOp.follows_input hbiased 0).bind ?_
  rintro source _ ⟨rfl, -⟩
  refine follows_bind_same fun name => ?_
  rw [Tensor.name_remapSigned, hsigns.resolve]
  refine follows_bind_same fun input => ?_
  rw [LoweringOptions.signed]
  cases options.softmax with
  | skip =>
      intro next hnamed
      obtain ⟨hfree, rfl⟩ := Graph.nameAs_eq_ok_iff.mp hnamed
      rw [← hsigns.tensorIds] at hfree
      refine ⟨_, Graph.nameAs_eq_ok_iff.mpr ⟨hfree, rfl⟩, ?_⟩
      exact { hsigns with tensorIds := by rw [hsigns.tensorIds] }
  | emit =>
      refine (hsigns.typeOf input).bind fun type other htype => ?_
      exact (Graph.simulation_signs lowered).addLayer (Softmax.alike htype name input) hsigns

theorem FlatOp.follows_lower (hsigns : plain.Signs lowered signed)
    (hbiased : operator.BiasedBy lowered) :
    Follows (Graph.Signs lowered) (operator.lower options plain)
      (operator.remapSigned.lower options.signed signed) := by
  rw [lower, lower]
  refine follows_bind_same fun kind => ?_
  cases kind with
  | conv | convRelu =>
      exact (Convolution.follows_ofOperator hsigns hbiased).bind fun _ _ hconvolution =>
        (Graph.simulation_signs lowered).addLayer hconvolution.alike hsigns
  | averagePool =>
      exact (Pooling.follows_ofOperator hsigns hbiased).bind fun _ _ hpooling =>
        (Graph.simulation_signs lowered).addLayer hpooling.alike hsigns
  | softmax => exact Softmax.follows_lower hsigns hbiased

theorem FlatNet.follows_run {operators : List FlatOp}
    (hbiased : ∀ operator ∈ operators, operator.BiasedBy lowered)
    (hsigns : plain.Signs lowered signed) :
    Follows (Graph.Signs lowered) (operators.foldlM (FlatOp.lower options) plain)
      ((operators.map FlatOp.remapSigned).foldlM (FlatOp.lower options.signed) signed) := by
  have hoperators : List.Forall₂
      (fun operator other => operator.BiasedBy lowered ∧ other = operator.remapSigned)
      operators (operators.map FlatOp.remapSigned) := by
    rw [List.forall₂_map_right_iff, List.forall₂_same]
    exact fun operator hoperator => ⟨hbiased operator hoperator, rfl⟩
  refine Follows.foldlM ?_ hoperators hsigns
  rintro before other operator _ hbefore ⟨hoperator, rfl⟩
  exact FlatOp.follows_lower hbefore hoperator

theorem LoweringOptions.quantCode_signed (options : LoweringOptions) :
    options.signed.quantCode = options.quantCode.signed := by
  change OperandCode.tensorQuant8AsymmSigned = options.quantCode.signed
  rw [quantCode]
  split <;> rfl

/-- With signed weights the zero point of the input is 0, whatever the first operator says. -/
theorem LoweringOptions.follows_inputType (options : LoweringOptions) (first : FlatOp) :
    Follows OperandType.Signs (options.inputType first)
      (options.signed.inputType first.remapSigned) := by
  rw [inputType, inputType]
  refine follows_bind_same fun dims => ?_
  refine follows_ite (fun _ => ?_) fun _ => follows_ok ⟨rfl, rfl, rfl⟩
  refine follows_bind_same fun given => ?_
  refine follows_bind_same fun scale => ?_
  -- Only the first run looks for a zero point, so it may be refused where the second is not.
  intro type htype
  obtain ⟨zeroPoint, rfl⟩ : ∃ zeroPoint,
      type = .quantized options.quantCode dims scale zeroPoint := by
    split at htype
    · exact ⟨0, pure_eq_ok_iff.mp htype⟩
    · obtain ⟨_, -, htype⟩ := bind_eq_ok_iff.mp htype
      obtain ⟨zeroPoint, -, htype⟩ := bind_eq_ok_iff.mp htype
      exact ⟨zeroPoint, pure_eq_ok_iff.mp htype⟩
  exact ⟨_, rfl, options.quantCode_signed, rfl, rfl⟩

theorem FlatNet.follows_inputGraph {first : FlatOp} (hbiased : first.BiasedBy lowered) :
    Follows (Graph.Signs lowered) (inputGraph options first)
      (inputGraph options.signed first.remapSigned) := by
  intro start hstart
  obtain ⟨source, type, hsource, htype, rfl⟩ := inputGraph_eq_ok_iff.mp hstart
  obtain ⟨_, hother, rfl, -⟩ := FlatOp.follows_input hbiased 0 source hsource
  obtain ⟨otherType, hotherType, htypes⟩ := options.follows_inputType first type htype
  refine ⟨_, inputGraph_eq_ok_iff.mpr ⟨_, otherType, hother, hotherType, rfl⟩, ?_⟩
  rw [Tensor.name_remapSigned]
  exact ⟨.cons ⟨rfl, htypes⟩ .nil, fun _ => .none, rfl, rfl, rfl, rfl, rfl⟩

end Readings

/-! ## Nets -/

namespace FlatNet

variable {options : LoweringOptions} {predict init : Net} {net : FlatNet} {graph : Graph}

/-- If two nets are lowered to a graph, whatever the options are, then with signed weights they are
lowered to the same graph, with signed codes and signed bytes in it. -/
theorem lower_signed (hjoin : join { quantized := true } predict init = .ok net)
    (hlower : net.lower options = .ok graph) :
    ∃ signedNet signed,
      join { quantized := true, signedRemap := true } predict init = .ok signedNet ∧
      signedNet.lower options.signed = .ok signed ∧
      graph.Signs init.StatesBytes signed ∧ signed.requiredOps = graph.requiredOps := by
  obtain ⟨signedNet, hsignedJoin, hoperators⟩ := exists_join_signed hjoin
  obtain ⟨first, last, start, grown, name, output, hfirst, hlast, hstart, hrun, hname, houtput, rfl,
    -⟩ := lower_eq_ok_iff.mp hlower
  have hbiased : ∀ operator ∈ net.operators, operator.BiasedBy init.StatesBytes :=
    fun operator hoperator tensor => statesBytes_iff hjoin hoperator
  obtain ⟨signedStart, hsignedStart, hstarts⟩ :=
    follows_inputGraph (hbiased first (List.mem_of_mem_head? hfirst)) start hstart
  obtain ⟨signedGrown, hsignedRun, hgrown⟩ := follows_run hbiased hstarts grown hrun
  rw [← hoperators] at hsignedRun
  have hsignedFirst : signedNet.operators.head? = some first.remapSigned := by
    rw [hoperators, List.head?_map, hfirst, Option.map_some]
  obtain ⟨signedName, signedOutput, hsignedName, hsignedOutput, hsignedLower⟩ :=
    lower_of_run hsignedFirst hsignedStart hsignedRun
  -- Both nets have the same output, and it leads to the same operand.
  have hnames : signedNet.outputName? = some name := by
    simp [outputName?, hoperators, hlast, FlatOp.remapSigned, FlatOp.outputName_eq_ok_iff.mp hname]
  cases hsignedName.symm.trans hnames
  rw [hgrown.tensorIds] at hsignedOutput
  cases hsignedOutput.symm.trans houtput
  refine ⟨signedNet, _, hsignedJoin, hsignedLower, ?_, ?_⟩
  · exact { hgrown with inputs := rfl, outputs := rfl }
  · refine (listsCodes_of_lower hsignedLower).requiredOps_eq (listsCodes_of_lower hlower) ?_
    rw [hgrown.operations]

/-- A convolution by one byte on an image around 128, and a softmax of its own. -/
def centredPredict : Net where
  operators := [
    { inputs := ["image", "filter", "bias"]
      outputs := ["features"]
      type := some "Int8Conv"
      arguments := [{ name := some "kernel", int := some 1 },
        { name := some "X_scale", float := some .one },
        { name := some "X_zero_point", int := some 128 }] },
    { inputs := ["features"]
      outputs := ["likelihoods"]
      type := some "Softmax" }]

theorem lower_signed_centred :
    ∃ net graph signedNet signed,
      join { quantized := true } centredPredict (byteInit 128) = .ok net ∧
      net.lower { quantized := true, inputSize := [1, 1, 1], softmax := .emit } = .ok graph ∧
      join { quantized := true, signedRemap := true } centredPredict (byteInit 128) =
        .ok signedNet ∧
      signedNet.lower
        { quantized := true, signedRemap := true, inputSize := [1, 1, 1], softmax := .emit } =
        .ok signed ∧
      graph.Signs (byteInit 128).StatesBytes signed ∧
      graph.values.find? (.own 1) = some (.uint8 #[130]) ∧
      signed.values.find? (.own 1) = some (.int8 #[2]) := by
  have hread : (fun net : FlatNet => (fun graph : Graph => graph.values.find? (.own 1)) <$>
        net.lower { quantized := true, inputSize := [1, 1, 1], softmax := .emit }) <$>
      join { quantized := true } centredPredict (byteInit 128) =
        .ok (.ok (some (.uint8 #[130]))) := by
    decide +kernel
  have hsignedRead : (fun net : FlatNet => (fun graph : Graph => graph.values.find? (.own 1)) <$>
        net.lower
          { quantized := true, signedRemap := true, inputSize := [1, 1, 1], softmax := .emit }) <$>
      join { quantized := true, signedRemap := true } centredPredict (byteInit 128) =
        .ok (.ok (some (.int8 #[2]))) := by
    decide +kernel
  obtain ⟨net, hjoin, hlowered⟩ := map_eq_ok_iff.mp hread
  obtain ⟨graph, hlower, hvalue⟩ := map_eq_ok_iff.mp hlowered
  obtain ⟨signedNet, signed, hsignedJoin, hsigned, hsigns, -⟩ := lower_signed hjoin hlower
  obtain ⟨_, hjoined, hsignedLowered⟩ := map_eq_ok_iff.mp hsignedRead
  cases hjoined.symm.trans hsignedJoin
  obtain ⟨_, hfound, hsignedValue⟩ := map_eq_ok_iff.mp hsignedLowered
  cases hfound.symm.trans hsigned
  exact ⟨net, graph, _, _, hjoin, hlower, hsignedJoin, hsigned, hsigns, hvalue, hsignedValue⟩

end FlatNet

end NetLowering
