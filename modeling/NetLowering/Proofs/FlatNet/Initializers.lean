import NetLowering.FlatNet.Initializer
import NetLowering.Proofs.Layout

/-!
# From the facts of an initializer to a tensor

Two steps lie between the facts that an initializer states and the tensor that
a flat net knows: unsigned weights may become signed ones, and a channel-first
tensor is relaid.  Neither step minds whether the other one was taken before
it (`channelLast_remapSigned`).
-/

namespace NetLowering

open Checked

theorem Value.ints?_eq_some_iff {value : Value} {numbers : Array Int32} :
    value.ints? = some numbers ↔ value = .numbers (.int32 numbers) := by
  cases value with
  | text content => simp [ints?, buffer?]
  | numbers buffer => cases buffer <;> simp [ints?, buffer?, Buffer.ints?]

theorem Value.int?_eq_some_iff {value : Value} {number : Int32} :
    value.int? = some number ↔ value = .numbers (.int32 #[number]) := by
  constructor
  · intro hint
    cases value with
    | text content => cases hint
    | numbers buffer =>
        cases buffer with
        | int32 values =>
            obtain ⟨_ | ⟨first, _ | ⟨second, rest⟩⟩⟩ := values
            · cases hint
            · cases hint
              rfl
            · cases hint
        | _ => cases hint
  · rintro rfl
    rfl

namespace Tensor

variable {tensor relaid : Tensor} {bytes : Array UInt8}

theorem zeroPoint?_eq_some_iff {number : Int32} :
    tensor.zeroPoint? = some number ↔ tensor.zeroPoint = some (.numbers (.int32 #[number])) := by
  simp [zeroPoint?, Option.bind_eq_some_iff, Value.int?_eq_some_iff]

/-! ## Signed weights -/

/-- The values are unsigned bytes around the zero point 128. -/
def Biased (tensor : Tensor) (bytes : Array UInt8) : Prop :=
  tensor.values = some (.numbers (.uint8 bytes)) ∧
    tensor.zeroPoint = some (.numbers (.int32 #[128]))

/-- The tensor with these bytes as signed ones around 0. -/
def signedAs (tensor : Tensor) (bytes : Array UInt8) : Tensor :=
  { tensor with
    values := some (.numbers (.int8 (bytes.map toSigned)))
    zeroPoint := some (.numbers (.int32 #[0])) }

theorem remapSigned_of_biased (hbiased : tensor.Biased bytes) :
    tensor.remapSigned = tensor.signedAs bytes := by
  rw [remapSigned, zeroPoint?_eq_some_iff.mpr hbiased.2, hbiased.1]
  rfl

theorem remapSigned_of_not_biased (hbiased : ∀ bytes, ¬tensor.Biased bytes) :
    tensor.remapSigned = tensor := by
  rw [remapSigned]
  split
  · rename_i bytes hzero hvalues
    exact absurd ⟨hvalues, zeroPoint?_eq_some_iff.mp hzero⟩ (hbiased bytes)
  · rfl

/-! ## Channel-last order -/

/-- The tensor with its axes and values in channel-last order. -/
def relaidAs (tensor : Tensor) (n c h w : Int32) (values : Buffer) : Tensor :=
  { tensor with
    shape := some (.numbers (.int32 #[n, h, w, c]))
    values := some (.numbers values) }

theorem channelLast_of_axes {n c h w : Int32} {values : Value}
    (hshape : tensor.shape.bind Value.ints? = some #[n, c, h, w])
    (hvalues : tensor.values = some values) :
    tensor.channelLast = (valuesToChannelLast n c h w values).map (tensor.relaidAs n c h w) := by
  rw [channelLast, hshape, hvalues]
  rfl

theorem channelLast_of_no_axes
    (hplain : ∀ n c h w, tensor.shape.bind Value.ints? = some #[n, c, h, w] →
      tensor.values = none) :
    tensor.channelLast = .ok tensor := by
  rw [channelLast]
  rcases hshape : tensor.shape.bind Value.ints? with
    _ | ⟨_ | ⟨n, _ | ⟨c, _ | ⟨h, _ | ⟨w, _ | ⟨more, rest⟩⟩⟩⟩⟩⟩
  case some.cons.cons.cons.cons.nil =>
      rw [hplain n c h w hshape]
      rfl
  all_goals rfl

theorem channelLast_of_no_image
    (himage : ¬∃ n c h w values, tensor.shape.bind Value.ints? = some #[n, c, h, w] ∧
      tensor.values = some values) : tensor.channelLast = .ok tensor := by
  refine channelLast_of_no_axes fun n c h w hshape => ?_
  by_contra hsome
  obtain ⟨values, hvalues⟩ := Option.ne_none_iff_exists'.mp hsome
  exact himage ⟨n, c, h, w, values, hshape, hvalues⟩

/-- A tensor is relaid as a whole or stays as it is. -/
theorem channelLast_eq_ok (hrelaid : tensor.channelLast = .ok relaid) :
    relaid = tensor ∨ ∃ n c h w values moved, tensor.values = some values ∧
      valuesToChannelLast n c h w values = .ok moved ∧ relaid = tensor.relaidAs n c h w moved := by
  by_cases haxes : ∃ n c h w values,
      tensor.shape.bind Value.ints? = some #[n, c, h, w] ∧ tensor.values = some values
  · obtain ⟨n, c, h, w, values, hshape, hvalues⟩ := haxes
    rw [channelLast_of_axes hshape hvalues] at hrelaid
    obtain ⟨moved, hmoved, rfl⟩ := map_eq_ok_iff.mp hrelaid
    exact .inr ⟨n, c, h, w, values, moved, hvalues, hmoved, rfl⟩
  · rw [channelLast_of_no_image haxes] at hrelaid
    cases hrelaid
    exact .inl rfl

theorem name_channelLast (hrelaid : tensor.channelLast = .ok relaid) :
    relaid.name = tensor.name := by
  rcases channelLast_eq_ok hrelaid with rfl | ⟨_, _, _, _, _, _, -, -, rfl⟩
  · rfl
  · rfl

theorem axis_eq_ok_iff {size : Int32} {extent : Nat} :
    axis size = .ok extent ↔ size.toInt = extent := by
  rw [axis]
  split
  · rw [Except.ok.injEq]
    omega
  · simp only [reduceCtorEq, false_iff]
    omega

theorem valuesToChannelLast_eq_ok {n c h w : Int32} {values : Value} {relaid : Buffer}
    (hrelaid : valuesToChannelLast n c h w values = .ok relaid) :
    ∃ buffer shape, values = .numbers buffer ∧
      [n, c, h, w].map Int32.toInt = (Layout.channelFirst.dims shape).map Int.ofNat ∧
      buffer.rearrange (toChannelLast shape.images shape.channels shape.rows shape.columns) =
        .ok relaid := by
  simp only [valuesToChannelLast, bind_eq_ok_iff, axis_eq_ok_iff] at hrelaid
  obtain ⟨images, hn, channels, hc, rows, hh, columns, hw, hrelaid⟩ := hrelaid
  cases values with
  | text content => cases hrelaid
  | numbers buffer =>
      refine ⟨buffer, ⟨images, channels, rows, columns⟩, rfl, ?_, mapError_eq_ok_iff.mp hrelaid⟩
      simp [Layout.dims, hn, hc, hh, hw]

private theorem valuesToChannelLast_toSigned (n c h w : Int32) (bytes : Array UInt8) :
    (∃ fault, valuesToChannelLast n c h w (.numbers (.uint8 bytes)) = .error fault ∧
      valuesToChannelLast n c h w (.numbers (.int8 (bytes.map toSigned))) = .error fault) ∨
    ∃ relaid, valuesToChannelLast n c h w (.numbers (.uint8 bytes)) = .ok (.uint8 relaid) ∧
      valuesToChannelLast n c h w (.numbers (.int8 (bytes.map toSigned))) =
        .ok (.int8 (relaid.map toSigned)) := by
  rw [valuesToChannelLast, valuesToChannelLast]
  rcases axis n with fault | images
  · exact .inl ⟨fault, rfl, rfl⟩
  rcases axis c with fault | channels
  · exact .inl ⟨fault, rfl, rfl⟩
  rcases axis h with fault | rows
  · exact .inl ⟨fault, rfl, rfl⟩
  rcases axis w with fault | columns
  · exact .inl ⟨fault, rfl, rfl⟩
  simp only [ok_bind, Value.buffer?, Buffer.rearrange, toChannelLast_map]
  rcases toChannelLast images channels rows columns bytes with error | relaid
  · exact .inl ⟨.shape error, rfl, rfl⟩
  · exact .inr ⟨relaid, rfl, rfl⟩

theorem biased_of_channelLast (hrelaid : tensor.channelLast = .ok relaid)
    (hbiased : relaid.Biased bytes) : ∃ before, tensor.Biased before := by
  rcases channelLast_eq_ok hrelaid with rfl | ⟨n, c, h, w, values, moved, hvalues, hmoved, rfl⟩
  · exact ⟨bytes, hbiased⟩
  · obtain ⟨hbytes, hzero⟩ := hbiased
    cases hbytes
    obtain ⟨buffer, shape, rfl, -, hrearranged⟩ := valuesToChannelLast_eq_ok hmoved
    have htype := Buffer.elemType_rearrange hrearranged
    cases buffer with
    | uint8 before => exact ⟨before, hvalues, hzero⟩
    | _ => cases htype

/-- Relaid weights can be made signed, and signed weights relaid. -/
theorem channelLast_remapSigned (tensor : Tensor) :
    tensor.remapSigned.channelLast = tensor.channelLast.map remapSigned := by
  by_cases hbiased : ∃ bytes, tensor.Biased bytes
  · obtain ⟨bytes, hbiased⟩ := hbiased
    rw [remapSigned_of_biased hbiased]
    by_cases haxes : ∃ n c h w, tensor.shape.bind Value.ints? = some #[n, c, h, w]
    · obtain ⟨n, c, h, w, hshape⟩ := haxes
      have hsignedShape : (tensor.signedAs bytes).shape.bind Value.ints? = some #[n, c, h, w] :=
        hshape
      rw [channelLast_of_axes hshape hbiased.1, channelLast_of_axes hsignedShape rfl]
      rcases valuesToChannelLast_toSigned n c h w bytes with
        ⟨fault, hplain, hsigned⟩ | ⟨relaid, hplain, hsigned⟩
      · rw [hplain, hsigned]
        rfl
      · have hstays : (tensor.relaidAs n c h w (.uint8 relaid)).Biased relaid := ⟨rfl, hbiased.2⟩
        rw [hplain, hsigned]
        simp only [Except.map, remapSigned_of_biased hstays]
        rfl
    · have hplain : ∀ n c h w, tensor.shape.bind Value.ints? ≠ some #[n, c, h, w] :=
        fun n c h w hshape => haxes ⟨n, c, h, w, hshape⟩
      have hsigned : (tensor.signedAs bytes).channelLast = .ok (tensor.signedAs bytes) :=
        channelLast_of_no_axes fun n c h w hshape => absurd hshape (hplain n c h w)
      rw [hsigned, channelLast_of_no_axes fun n c h w hshape => absurd hshape (hplain n c h w),
        Except.map, remapSigned_of_biased hbiased]
  · rw [remapSigned_of_not_biased fun bytes hbytes => hbiased ⟨bytes, hbytes⟩]
    cases hrelaid : tensor.channelLast with
    | error fault => rfl
    | ok relaid =>
        rw [Except.map, remapSigned_of_not_biased]
        intro bytes hbytes
        exact hbiased (biased_of_channelLast hrelaid hbytes)

/-! ## Initializers -/

@[simp] theorem name_remapSigned (tensor : Tensor) : tensor.remapSigned.name = tensor.name := by
  rw [remapSigned]
  split <;> rfl

theorem ofInitializer_of_plain {options : LoadOptions}
    (hplain : ¬(options.quantized = true ∧ options.signedRemap = true)) (layout : Layout)
    (operator : NetOperator) :
    ofInitializer options layout operator = ofInitializer {} layout operator := by
  rw [ofInitializer, ofInitializer]
  simp only [Bool.and_eq_true, hplain, if_false]
  rfl

theorem ofInitializer_of_signed {options : LoadOptions} (hquantized : options.quantized = true)
    (hsigned : options.signedRemap = true) (layout : Layout) (operator : NetOperator) :
    ofInitializer options layout operator =
      (ofInitializer {} layout operator).map remapSigned := by
  rw [ofInitializer, ofInitializer, hquantized, hsigned]
  cases stated operator with
  | error error => rfl
  | ok facts =>
      cases layout with
      | channelLast => rfl
      | channelFirst =>
          simp only [ok_bind, Bool.and_self, if_true, Bool.false_eq_true, if_false]
          rw [channelLast_remapSigned, name_remapSigned]
          cases facts.channelLast <;> rfl

end Tensor

end NetLowering
