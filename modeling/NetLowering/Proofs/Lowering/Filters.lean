import NetLowering.Proofs.Layout
import NetLowering.Proofs.Lowering.Operators

/-!
# What a convolution makes of its tensors

The filter of a convolution is its tensor as it stands or, with more than one
group, the tensor with its planes turned into channels.  What a convolution binds
is told here by what its tensors state.
-/

namespace NetLowering

open Checked

/-! ## Required facts -/

namespace Tensor

variable {tensor : Tensor}

theorem requireDims_eq_ok_iff {dims : List UInt32} :
    tensor.requireDims = .ok dims ↔ tensor.dims? = some dims := by
  rw [requireDims]
  cases tensor.dims? with
  | some found => simp
  | none => cases tensor.shape <;> simp

theorem requireData_eq_ok_iff {values : Buffer} :
    tensor.requireData = .ok values ↔ tensor.data? = some values := by
  rw [requireData]
  cases tensor.data? <;> simp

end Tensor

theorem Axes.ofDims_eq_ok_iff {tensor : String} {dims : List UInt32} {axes : Axes} :
    ofDims tensor dims = .ok axes ↔ dims = axes.toList := by
  unfold ofDims
  split
  · rw [Except.ok.injEq]
    cases axes
    simp [toList]
  · rename_i hother
    simp only [reduceCtorEq, false_iff]
    exact hother axes.n axes.h axes.w axes.c

theorem FlatOp.input_eq_ok_iff {operator : FlatOp} {index : Nat} {tensor : Tensor} :
    operator.input index = .ok tensor ↔ operator.inputs[index]? = some tensor := by
  rw [input]
  cases operator.inputs[index]? <;> simp

/-! ## Filters -/

namespace Filter

variable {filter : Filter}

/-- A plane is counted in full. -/
theorem plane_lt (h w : UInt32) : h.toNat * w.toNat < 2 ^ 64 :=
  calc h.toNat * w.toNat < 2 ^ 32 * 2 ^ 32 := Nat.mul_lt_mul'' h.toNat_lt w.toNat_lt
    _ = 2 ^ 64 := rfl

theorem repack_eq_ok {tensor : String} {group : Int32} {dims : List UInt32} {values : Buffer}
    (hrepacked : repack tensor group dims values = .ok filter) :
    ∃ n h w repacked, dims = [n, h, w, 1] ∧ values.size = n.toNat * h.toNat * w.toNat ∧
      values.rearrange (planesToChannels n.toNat h.toNat w.toNat) = .ok repacked ∧
      filter = { depthwise := true, dims := [1, h, w, group.toUInt32], values := repacked } := by
  simp only [repack, bind_eq_ok_iff, Axes.ofDims_eq_ok_iff] at hrepacked
  obtain ⟨⟨n, h, w, c⟩, rfl, hrepacked⟩ := hrepacked
  rw [check_eq_ok_iff, bind_eq_ok_iff] at hrepacked
  obtain ⟨hchecked, repacked, hrearranged, hfilter⟩ := hrepacked
  rw [not_or, not_not, not_not] at hchecked
  obtain ⟨rfl, -⟩ := hchecked
  have hrearranged := mapError_eq_ok_iff.mp hrearranged
  -- Only the change of layout knows that nothing has been cut off the count.
  have hsize := (Buffer.size_rearrange (size_of_planesToChannels (plane_lt h w)) hrearranged).1
  exact ⟨n, h, w, repacked, rfl, hsize, hrearranged, pure_eq_ok_iff.mp hfilter⟩

/-- A filter is its tensor, or its tensor repacked when there are several groups. -/
theorem ofTensor_eq_ok {operator : FlatOp} {tensor : Tensor} {channels : UInt32}
    (hread : ofTensor operator tensor channels = .ok filter) :
    ∃ dims values group, tensor.dims? = some dims ∧ tensor.data? = some values ∧
      operator.group = .ok group ∧
      (¬1 < group ∧ filter = { depthwise := false, dims, values } ∨
        1 < group ∧ repack tensor.name group dims values = .ok filter) := by
  simp only [ofTensor, bind_eq_ok_iff, Tensor.requireDims_eq_ok_iff,
    Tensor.requireData_eq_ok_iff] at hread
  obtain ⟨dims, hdims, values, hvalues, group, hgroup, hread⟩ := hread
  refine ⟨dims, values, group, hdims, hvalues, hgroup, ?_⟩
  by_cases hgroups : 1 < group
  · rw [if_pos hgroups, check_eq_ok_iff] at hread
    exact .inr ⟨hgroups, hread.2⟩
  · rw [if_neg hgroups] at hread
    exact .inl ⟨hgroups, pure_eq_ok_iff.mp hread⟩

theorem elemType_ofTensor {operator : FlatOp} {tensor : Tensor} {channels : UInt32}
    (hread : ofTensor operator tensor channels = .ok filter) :
    ∃ values, tensor.data? = some values ∧ filter.values.elemType = values.elemType := by
  obtain ⟨dims, values, group, -, hvalues, -, ⟨-, rfl⟩ | ⟨-, hrepacked⟩⟩ := ofTensor_eq_ok hread
  · exact ⟨values, hvalues, rfl⟩
  · obtain ⟨n, h, w, repacked, -, -, hrearranged, rfl⟩ := repack_eq_ok hrepacked
    exact ⟨values, hvalues, Buffer.elemType_rearrange hrearranged⟩

/-- The dimension that scales are listed along is the number of groups or the first one. -/
theorem outputChannels_eq {operator : FlatOp} {tensor : Tensor} {channels : UInt32} {group : Int32}
    (hread : ofTensor operator tensor channels = .ok filter) (hgroup : operator.group = .ok group) :
    filter.dims[filter.channelDim.toNat]? =
      if 1 < group then some group.toUInt32 else tensor.dims?.bind List.head? := by
  obtain ⟨dims, values, read, hdims, -, hread, hcases⟩ := ofTensor_eq_ok hread
  cases hread.symm.trans hgroup
  rcases hcases with ⟨hgroups, rfl⟩ | ⟨hgroups, hrepacked⟩
  · rw [if_neg hgroups, hdims]
    exact List.head?_eq_getElem?.symm
  · obtain ⟨n, h, w, repacked, -, -, -, rfl⟩ := repack_eq_ok hrepacked
    rw [if_pos hgroups]
    rfl

theorem type_eq_ok {options : LoweringOptions} {tensor : Tensor} {input : OperandCode}
    {type : OperandType} (htype : filter.type options tensor input = .ok type) :
    type.dims = filter.dims ∧
      type.code = if tensor.isPerChannel then .tensorQuant8SymmPerChannel else input := by
  rw [Filter.type] at htype
  split at htype
  · rename_i hperChannel
    rw [pure_eq_ok_iff] at htype
    rw [htype, if_pos hperChannel]
    exact ⟨rfl, rfl⟩
  · rename_i hplain
    rw [if_neg hplain]
    split at htype
    · simp only [bind_eq_ok_iff, pure_eq_ok_iff] at htype
      obtain ⟨_, -, _, -, rfl⟩ := htype
      exact ⟨rfl, rfl⟩
    · rw [pure_eq_ok_iff] at htype
      rw [htype]
      exact ⟨rfl, rfl⟩

end Filter

/-! ## Biases -/

theorem Bias.type_eq_ok {options : LoweringOptions} {tensor filter : Tensor} {dims : List UInt32}
    {type : OperandType} (htype : Bias.type options tensor filter dims = .ok type) :
    type.code = if options.quantized then .tensorInt32 else .tensorFloat32 := by
  rw [Bias.type] at htype
  cases hquantized : options.quantized with
  | false =>
      rw [hquantized] at htype
      cases htype
      rfl
  | true =>
      rw [hquantized] at htype
      simp only [Bool.not_true, Bool.false_eq_true, if_false] at htype
      split at htype
      · cases htype
        rfl
      · simp only [bind_eq_ok_iff, pure_eq_ok_iff] at htype
        obtain ⟨_, -, rfl⟩ := htype
        rfl

theorem Bias.ofTensor_eq_ok {options : LoweringOptions} {tensor filter : Tensor} {bias : Bias}
    (hread : Bias.ofTensor options tensor filter = .ok bias) :
    ∃ dims values type, tensor.data? = some values ∧
      Bias.type options tensor filter dims = .ok type ∧
      bias.param = ⟨some tensor.name, type, values, none⟩ := by
  simp only [Bias.ofTensor, bind_eq_ok_iff, Tensor.requireData_eq_ok_iff] at hread
  obtain ⟨dims, -, values, hvalues, hread⟩ := hread
  cases hchannels : dims.head? with
  | none =>
      rw [hchannels] at hread
      cases hread
  | some channels =>
      simp only [hchannels, bind_eq_ok_iff, pure_eq_ok_iff] at hread
      obtain ⟨type, htype, rfl⟩ := hread
      exact ⟨dims, values, type, hvalues, htype, rfl⟩

/-! ## Convolutions -/

def FlatOp.Convolves (operator : FlatOp) : Prop :=
  operator.type = "Int8Conv" ∨ operator.type = "Int8ConvRelu"

/-- What a convolution is read from: three tensors, of which the first is in the graph. -/
theorem Convolution.ofOperator_eq_ok {options : LoweringOptions} {graph : Graph}
    {operator : FlatOp} {convolution : Convolution}
    (hread : ofOperator options graph operator = .ok convolution) :
    ∃ source tensor biasTensor filter, operator.inputs[0]? = some source ∧
      operator.inputs[1]? = some tensor ∧ operator.inputs[2]? = some biasTensor ∧
      graph.feed source = .ok convolution.input ∧
      Filter.ofTensor operator tensor convolution.input.axes.c = .ok filter ∧
      filter.param options tensor convolution.input.type.code = .ok convolution.filter ∧
      Bias.ofTensor options biasTensor tensor = .ok convolution.bias ∧
      convolution.depthwise = filter.depthwise := by
  simp only [ofOperator, bind_eq_ok_iff, FlatOp.input_eq_ok_iff, pure_eq_ok_iff] at hread
  obtain ⟨source, hsource, tensor, htensor, biasTensor, hbiasTensor, input, hinput, filter,
    hfilter, _, -, _, -, param, hparam, bias, hbias, rfl⟩ := hread
  exact ⟨source, tensor, biasTensor, filter, hsource, htensor, hbiasTensor, hinput, hfilter, hparam,
    hbias, rfl⟩

theorem FlatOp.Grows.convolution_of_convolves {options : LoweringOptions} {operator : FlatOp}
    {before after : Graph} (hgrows : operator.Grows options before after)
    (hconvolves : operator.Convolves) :
    ∃ convolution, Convolution.ofOperator options before operator = .ok convolution ∧
      before.addLayer (convolution.layer options operator) = .ok after := by
  cases hgrows with
  | convolution convolution _ hread hadded => exact ⟨convolution, hread, hadded⟩
  | pooling _ htype => simp [Convolves, htype] at hconvolves
  | skipped _ _ _ htype => simp [Convolves, htype] at hconvolves
  | softmax _ _ _ _ htype => simp [Convolves, htype] at hconvolves

end NetLowering
