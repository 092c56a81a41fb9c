import NetLowering.Proofs.FlatNet.Initializers

/-!
# Where the elements of an image tensor arrive

An initializer states the axes and the values of its tensor in the layout of its
net.  However that may be, the tensor of the flat net has its channels last: every
element stands at the place of its cell in that layout, as signed as the options
ask for (`places_of_ofInitializer`).
-/

namespace NetLowering

open Checked

/-! ## Elements -/

/-- The element as a signed one, if it is an unsigned byte. -/
def Element.signed : Element → Element
  | .uint8 byte => .int8 (Tensor.toSigned byte)
  | element => element

/-- How an element of an initializer with these facts arrives: unsigned bytes around 128 as signed
ones if these are asked for, and any other element as it is. -/
def LoadOptions.arrival (options : LoadOptions) (facts : Tensor) (element : Element) : Element :=
  if (options.quantized = true ∧ options.signedRemap = true) ∧ facts.zeroPoint? = some 128 then
    element.signed
  else element

theorem toNat_toUInt32 {number : Int32} (hnonneg : 0 ≤ number.toInt) :
    (number.toUInt32.toNat : Int) = number.toInt := by
  have hcases := BitVec.toInt_eq_toNat_cond number.toBitVec
  have hbound := number.toBitVec.isLt
  change 0 ≤ number.toBitVec.toInt at hnonneg
  change (number.toBitVec.toNat : Int) = number.toBitVec.toInt
  split at hcases <;> omega

namespace Buffer

theorem element?_of_not_uint8 {buffer : Buffer} (hother : ∀ bytes, buffer ≠ .uint8 bytes)
    (place : Nat) : (buffer.element? place).map Element.signed = buffer.element? place := by
  cases buffer with
  | uint8 bytes => exact absurd rfl (hother bytes)
  | _ => exact Option.map_map _ _ _

theorem element?_toSigned (bytes : Array UInt8) (place : Nat) :
    (Buffer.int8 (bytes.map Tensor.toSigned)).element? place =
      ((Buffer.uint8 bytes).element? place).map Element.signed := by
  simp only [element?, Array.getElem?_map, Option.map_map]
  rfl

end Buffer

namespace Tensor

variable {options : LoadOptions} {facts tensor : Tensor} {raw : Buffer}

/-! ## Signed weights -/

theorem values_remapSigned (hvalues : facts.values = some (.numbers raw)) :
    ∃ values, facts.remapSigned.values = some (.numbers values) ∧ values.size = raw.size ∧
      ∀ place, values.element? place = (raw.element? place).map fun element =>
        if facts.zeroPoint? = some 128 then element.signed else element := by
  by_cases hbiased : ∃ bytes, facts.Biased bytes
  · obtain ⟨bytes, hbiased⟩ := hbiased
    cases hvalues.symm.trans hbiased.1
    rw [remapSigned_of_biased hbiased, zeroPoint?_eq_some_iff.mpr hbiased.2]
    refine ⟨.int8 (bytes.map toSigned), rfl, Array.size_map, fun place => ?_⟩
    simp only [if_true]
    exact Buffer.element?_toSigned bytes place
  · rw [remapSigned_of_not_biased fun bytes hbytes => hbiased ⟨bytes, hbytes⟩]
    refine ⟨raw, hvalues, rfl, fun place => ?_⟩
    by_cases hzero : facts.zeroPoint? = some 128
    · have hother : ∀ bytes, raw ≠ .uint8 bytes := by
        rintro bytes rfl
        exact hbiased ⟨bytes, hvalues, zeroPoint?_eq_some_iff.mp hzero⟩
      simp only [hzero, if_true]
      exact (Buffer.element?_of_not_uint8 hother place).symm
    · simp only [hzero, if_false, Option.map_id']

/-- The facts as the options have them. -/
def remapped (options : LoadOptions) (facts : Tensor) : Tensor :=
  if options.quantized && options.signedRemap then facts.remapSigned else facts

theorem values_remapped (options : LoadOptions) (hvalues : facts.values = some (.numbers raw)) :
    ∃ values, (remapped options facts).values = some (.numbers values) ∧ values.size = raw.size ∧
      ∀ place, values.element? place = (raw.element? place).map (options.arrival facts) := by
  by_cases hsigned : options.quantized = true ∧ options.signedRemap = true
  · obtain ⟨values, hremapped, hsize, helements⟩ := values_remapSigned hvalues
    have harrival : options.arrival facts =
        fun element => if facts.zeroPoint? = some 128 then element.signed else element := by
      funext element
      simp [LoadOptions.arrival, hsigned]
    rw [harrival]
    exact ⟨values, by simpa [remapped, hsigned] using hremapped, hsize, helements⟩
  · have harrival : options.arrival facts = id := by
      funext element
      simp [LoadOptions.arrival, hsigned]
    rw [harrival]
    refine ⟨raw, by simpa [remapped, hsigned] using hvalues, rfl, fun place => ?_⟩
    rw [Option.map_id_fun, id_eq]

theorem name_remapped : (remapped options facts).name = facts.name := by
  rw [remapped]
  split
  · exact name_remapSigned facts
  · rfl

theorem shape_remapped : (remapped options facts).shape = facts.shape := by
  rw [remapped]
  split
  · rw [remapSigned]
    split <;> rfl
  · rfl

/-! ## Dimensions -/

theorem dims_of_sizes {sizes : List Int32} {dims : List UInt32}
    (hdims : sizes.mapM dim? = some dims) :
    dims.map (fun dim => (dim.toNat : Int)) = sizes.map Int32.toInt := by
  induction sizes generalizing dims with
  | nil =>
      cases hdims
      rfl
  | cons size sizes ih =>
      rw [List.mapM_cons, Option.bind_eq_bind, Option.bind_eq_some_iff] at hdims
      obtain ⟨dim, hdim, hdims⟩ := hdims
      rw [Option.bind_eq_bind, Option.bind_eq_some_iff] at hdims
      obtain ⟨rest, hrest, ⟨⟩⟩ := hdims
      rw [dim?] at hdim
      split at hdim
      · rename_i hsize
        cases hdim
        rw [List.map_cons, List.map_cons, ih hrest, toNat_toUInt32 hsize]
      · cases hdim

theorem dims_eq {dims : List UInt32} {sizes : List Int32} {layout : Layout} {shape : ImageShape}
    (hshape : tensor.shape = some (.numbers (.int32 sizes.toArray)))
    (hdims : tensor.dims? = some dims)
    (hsizes : sizes.map Int32.toInt = (layout.dims shape).map Int.ofNat) :
    dims.map UInt32.toNat = layout.dims shape := by
  rw [dims?, hshape] at hdims
  have hread := dims_of_sizes hdims
  rw [hsizes] at hread
  apply List.map_injective_iff.mpr Int.ofNat_injective
  rw [← hread, List.map_map]
  rfl

/-! ## Places -/

variable {a b c d : Int32} {dims : List UInt32}

/-- Every cell of the image has its raw element, as it arrives, at its target. -/
def Places (options : LoadOptions) (facts : Tensor) (layout : Layout) (shape : ImageShape)
    (raw : Buffer) (target : Cell → Nat) (values : Buffer) : Prop :=
  ∀ cell, shape.Has cell → values.element? (target cell) =
    (raw.element? (layout.place shape cell)).map (options.arrival facts)

theorem places_of_channelLast
    (hshape : facts.shape = some (.numbers (.int32 #[a, b, c, d])))
    (hvalues : facts.values = some (.numbers raw))
    (hdims : (remapped options facts).dims? = some dims) :
    ∃ shape values,
      [a, b, c, d].map Int32.toInt = (Layout.channelLast.dims shape).map Int.ofNat ∧
      (remapped options facts).data? = some values ∧ values.size = raw.size ∧
      Places options facts .channelLast shape raw (Layout.channelLast.place shape) values := by
  have hread : dims.map (fun dim => (dim.toNat : Int)) = [a, b, c, d].map Int32.toInt := by
    rw [dims?, shape_remapped, hshape] at hdims
    exact dims_of_sizes hdims
  obtain ⟨values, hremapped, hsize, helements⟩ := values_remapped options hvalues
  have hlength : dims.length = 4 := by simpa using congrArg List.length hread
  obtain ⟨n, h, w, channels, rfl⟩ := List.length_eq_four.mp hlength
  refine ⟨⟨n.toNat, channels.toNat, h.toNat, w.toNat⟩, values, hread.symm, ?_, hsize, ?_⟩
  · rw [data?, hremapped]
    rfl
  · exact fun cell _ => helements _

theorem places_of_channelFirst
    (hshape : facts.shape = some (.numbers (.int32 #[a, b, c, d])))
    (hvalues : facts.values = some (.numbers raw))
    (hrelaid : (remapped options facts).channelLast = .ok tensor) :
    ∃ shape values,
      [a, b, c, d].map Int32.toInt = (Layout.channelFirst.dims shape).map Int.ofNat ∧
      tensor.shape = some (.numbers (.int32 #[a, c, d, b])) ∧
      raw.size = span (Layout.channelFirst.dims shape) ∧
      tensor.data? = some values ∧ values.size = raw.size ∧
      Places options facts .channelFirst shape raw (Layout.channelLast.place shape) values := by
  obtain ⟨values, hremapped, hsize, helements⟩ := values_remapped options hvalues
  have haxes : (remapped options facts).shape.bind Value.ints? = some #[a, b, c, d] := by
    rw [shape_remapped, hshape]
    rfl
  rw [channelLast_of_axes haxes hremapped] at hrelaid
  obtain ⟨relaid, hmoved, rfl⟩ := map_eq_ok_iff.mp hrelaid
  obtain ⟨buffer, shape, ⟨⟩, hsizes, hrearranged⟩ := valuesToChannelLast_eq_ok hmoved
  obtain ⟨hfilled, hrelaidSize⟩ := Buffer.size_rearrange size_of_toChannelLast hrearranged
  refine ⟨shape, relaid, hsizes, rfl, ?_, rfl, hrelaidSize.trans hsize, ?_⟩
  · rw [← hsize, hfilled, Layout.span_dims]
  intro cell hcell
  rw [← helements]
  exact Buffer.element?_rearrange (fun hmoved => getElem?_toChannelLast hmoved hcell) hrearranged

/-- Whatever the layout of the net, an image tensor arrives with its channels last. -/
theorem places_of_ofInitializer {layout : Layout} {initializer : NetOperator}
    (hload : ofInitializer options layout initializer = .ok tensor)
    (hfacts : stated initializer = .ok facts)
    (hshape : facts.shape = some (.numbers (.int32 #[a, b, c, d])))
    (hvalues : facts.values = some (.numbers raw)) (hdims : tensor.dims? = some dims) :
    ∃ shape values, [a, b, c, d].map Int32.toInt = (layout.dims shape).map Int.ofNat ∧
      dims.map UInt32.toNat = Layout.channelLast.dims shape ∧
      (layout = .channelFirst → raw.size = span (layout.dims shape)) ∧
      tensor.data? = some values ∧ values.size = raw.size ∧
      Places options facts layout shape raw (Layout.channelLast.place shape) values := by
  rw [ofInitializer, hfacts] at hload
  cases layout with
  | channelLast =>
      cases hload
      obtain ⟨shape, values, hsizes, hplaces⟩ := places_of_channelLast hshape hvalues hdims
      exact ⟨shape, values, hsizes, dims_eq (shape_remapped.trans hshape) hdims hsizes, by simp,
        hplaces⟩
  | channelFirst =>
      obtain ⟨shape, values, hsizes, hrelaidShape, hfilled, hplaces⟩ :=
        places_of_channelFirst hshape hvalues (mapError_eq_ok_iff.mp hload)
      refine ⟨shape, values, hsizes, dims_eq hrelaidShape hdims ?_, fun _ => hfilled, hplaces⟩
      simp only [Layout.dims, List.map_cons, List.map_nil, List.cons.injEq, and_true] at hsizes ⊢
      tauto

theorem name_ofInitializer {layout : Layout} {initializer : NetOperator}
    (hload : ofInitializer options layout initializer = .ok tensor)
    (hfacts : stated initializer = .ok facts) : tensor.name = facts.name := by
  rw [ofInitializer, hfacts] at hload
  cases layout with
  | channelLast =>
      cases hload
      exact name_remapped
  | channelFirst =>
      exact (name_channelLast (mapError_eq_ok_iff.mp hload)).trans name_remapped

end Tensor

end NetLowering
