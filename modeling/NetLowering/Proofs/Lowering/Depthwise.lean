import NetLowering.Proofs.Lowering.Translation

/-!
# Depthwise convolutions

A convolution with several groups reads an image with a channel for every group.  The
planes of its filter become the channels of the bound operand, whose dimensions are
written from the number of groups; that there are as many planes follows only from the
count of the values.  `FlatNet.lower_depthwise` says what such a convolution leaves in
the graph, and that a filter which is not made of these planes makes lowering fail.
-/

namespace NetLowering

open Checked

/-- The tensor states planes of one channel and a value for each of their cells.  If there are
values, and not too many to be held, there are as many planes as groups. -/
structure Tensor.HasPlanes (tensor : Tensor) (group : Int32) (n h w : UInt32) (record : Buffer) :
    Prop where
  shape : tensor.dims? = some [n, h, w, 1]
  values : tensor.data? = some record
  count : record.size = n.toNat * h.toNat * w.toNat
  groups : 0 < record.size → record.size < 2 ^ 34 → group.toInt = n.toNat

/-- The planes of the record are the channels of the bound values. -/
structure Buffer.Interleaves (values record : Buffer) (n h w : Nat) : Prop where
  elemType : values.elemType = record.elemType
  size : values.size = record.size
  places : ∀ i < n, ∀ y < h, ∀ x < w, ∃ element,
    record.element? (i * h * w + y * w + x) = some element ∧
      values.element? (y * w * n + x * n + i) = some element

/-- The operand of this name, which the operation takes at this place, has these dimensions. -/
structure Graph.Feeds (graph : Graph) (name : String) (operation : Operation) (place : Nat)
    (id : OperandId) (dims : List Nat) : Prop where
  named : graph.tensorIds.find? name = some id
  taken : operation.inputs[place]? = some id
  sized : ∃ operand, graph.operand? id = some operand ∧ operand.type.dims.map UInt32.toNat = dims

/-- The operation is the convolution that the operator asks for, with a channel of the image and
of the filter for every group. -/
structure Graph.SplitsBy (graph : Graph) (operator : FlatOp) (group : Int32) (tensor : Tensor)
    (h w : Nat) (values : Buffer) (operation : Operation) : Prop where
  listed : operation ∈ graph.operations
  code : operation.code = .depthwiseConv2d
  image : ∃ source id images rows columns, operator.inputs[0]? = some source ∧
    graph.Feeds source.name operation 0 id [images, rows, columns, group.toInt.toNat]
  filter : ∃ id, graph.Feeds tensor.name operation 1 id [1, h, w, group.toInt.toNat] ∧
    graph.values.find? id = some values
  result : ∃ name id, operator.outputs.head? = some name ∧
    graph.tensorIds.find? name = some id ∧ operation.outputs = [id]

/-! ## Filters -/

theorem Filter.channels_of_ofTensor {operator : FlatOp} {tensor : Tensor} {channels : UInt32}
    {filter : Filter} {group : Int32} (hread : ofTensor operator tensor channels = .ok filter)
    (hgroup : operator.group = .ok group) (hgroups : 1 < group) : group.toUInt32 = channels := by
  simp only [ofTensor, hgroup, ok_bind, if_pos hgroups, bind_eq_ok_iff, check_eq_ok_iff,
    not_not] at hread
  obtain ⟨_, -, _, -, hchannels, -⟩ := hread
  exact hchannels

theorem Buffer.exists_element? {buffer : Buffer} {place : Nat} (hplace : place < buffer.size) :
    ∃ element, buffer.element? place = some element := by
  cases buffer <;> exact ⟨_, by rw [element?, Array.getElem?_eq_getElem hplace]; rfl⟩

/-- With several groups a filter is taken from planes, which become the channels of its values. -/
theorem Filter.interleaves_of_ofTensor {operator : FlatOp} {tensor : Tensor} {channels : UInt32}
    {filter : Filter} {group : Int32} (hread : ofTensor operator tensor channels = .ok filter)
    (hgroup : operator.group = .ok group) (hgroups : 1 < group)
    (hspan : wordSpan (filter.dims.map UInt32.toNat) = filter.values.size) :
    ∃ n h w record, tensor.HasPlanes group n h w record ∧ filter.depthwise = true ∧
      filter.dims.map UInt32.toNat = [1, h.toNat, w.toNat, group.toInt.toNat] ∧
      filter.values.Interleaves record n.toNat h.toNat w.toNat := by
  obtain ⟨dims, record, found, hdims, hrecord, hfound, hcases⟩ := ofTensor_eq_ok hread
  cases hfound.symm.trans hgroup
  obtain ⟨hwhole, -⟩ | ⟨-, hrepacked⟩ := hcases
  · exact absurd hgroups hwhole
  obtain ⟨n, h, w, _, rfl, hcount, -, -⟩ := repack_eq_ok hrepacked
  have hshape : [n, h, w, 1].map UInt32.toNat =
      Layout.channelLast.dims ⟨n.toNat, 1, h.toNat, w.toNat⟩ := rfl
  obtain ⟨hdepthwise, hfilterDims, hrepacks⟩ := repacks_of_repack hgroups hrepacked hshape hspan
  refine ⟨n, h, w, record, ⟨hdims, hrecord, hcount, hrepacks.groups⟩, hdepthwise, hfilterDims,
    ?_, hrepacks.size, ?_⟩
  · obtain ⟨values, hvalues, helemType⟩ := elemType_ofTensor hread
    cases hvalues.symm.trans hrecord
    exact helemType
  · intro i hi y hy x hx
    have hcell : ImageShape.Has ⟨n.toNat, 1, h.toNat, w.toNat⟩ ⟨i, 0, y, x⟩ :=
      ⟨hi, Nat.one_pos, hy, hx⟩
    have hplace := Layout.channelLast.place_lt hcell
    rw [← hrepacks.filled] at hplace
    obtain ⟨element, helement⟩ := Buffer.exists_element? hplace
    have hmoved := (hrepacks.places _ hcell).trans helement
    refine ⟨element, ?_, ?_⟩
    · simpa [Layout.place] using helement
    · simpa [ImageShape.planePlace, Layout.place] using hmoved

/-! ## Operators -/

namespace Graph

variable {graph next later : Graph}

/-- What a layer has been fed with is the image of its operation. -/
theorem feeds_image (graph : Graph) (layer : Layer) {tensor : Tensor} {feed : Feed}
    (hfeed : later.feed tensor = .ok feed) (hinput : layer.input = feed.id) :
    later.Feeds tensor.name (layer.operation graph) 0 feed.id
      (feed.axes.toList.map UInt32.toNat) := by
  obtain ⟨hnamed, ⟨operand, hoperand, htype⟩, haxes⟩ := feed_eq_ok_iff.mp hfeed
  rw [Axes.ofDims_eq_ok_iff] at haxes
  exact ⟨hnamed, congrArg some hinput, operand, hoperand, by rw [htype, haxes]⟩

/-- The first parameter of a layer comes after the image and keeps its value. -/
theorem feeds_first {layer : Layer} {param : Param} {params : List Param} {name : String}
    (hadded : graph.addLayer layer = .ok next) (hextends : next.Extends later)
    (hparams : layer.params = param :: params) (hname : param.name = some name) :
    later.Feeds name (layer.operation graph) 1 graph.nextId (param.type.dims.map UInt32.toNat) ∧
      later.values.find? graph.nextId = some param.value := by
  have hstays := (extends_first_of_addLayer hadded hparams).2.trans hextends
  refine ⟨⟨hstays.named _ _ ?_, ?_, param.operand, hstays.operand? (operand?_push_nextId _ _), rfl⟩,
    hstays.bound _ _ ?_⟩
  · simp [withParam, hname]
  · simp [Layer.operation, hparams, nextIds, List.range'_succ]
  · simp [withParam, Table.find?_insert]

end Graph

theorem FlatOp.Grows.splitsBy {options : LoweringOptions} {operator : FlatOp} {group : Int32}
    {before after graph : Graph} (hgrows : operator.Grows options before after)
    (hextends : after.Extends graph) (hconvolves : operator.Convolves)
    (hgroup : operator.group = .ok group) (hgroups : 1 < group) :
    ∃ tensor n h w record values operation, operator.inputs[1]? = some tensor ∧
      tensor.HasPlanes group n h w record ∧
      values.Interleaves record n.toNat h.toNat w.toNat ∧
      graph.SplitsBy operator group tensor h.toNat w.toNat values operation := by
  obtain ⟨convolution, hread, hadded⟩ := hgrows.convolution_of_convolves hconvolves
  obtain ⟨source, tensor, _, filter, hsource, htensor, -, hfeed, hfilter, hparam, -, hdepthwise⟩ :=
    Convolution.ofOperator_eq_ok hread
  obtain ⟨type, htype, hparam⟩ := bind_eq_ok_iff.mp hparam
  rw [pure_eq_ok_iff] at hparam
  have hdims := (Filter.type_eq_ok htype).1
  -- The values of the filter fill its dimensions, since it is a parameter of the layer.
  have hspan : wordSpan (filter.dims.map UInt32.toNat) = filter.values.size := by
    have helements := (Graph.extends_first_of_addLayer hadded rfl).1.elements
    rwa [hparam, OperandType.elements_eq, hdims] at helements
  obtain ⟨n, h, w, record, hplanes, hsplit, hfilterDims, hinterleaves⟩ :=
    Filter.interleaves_of_ofTensor hfilter hgroup hgroups hspan
  have hchannels := Filter.channels_of_ofTensor hfilter hgroup hgroups
  obtain ⟨_, output, _, -, houtput, -⟩ := Graph.addLayer_eq_ok_iff.mp hadded
  have hlays := FlatOp.lays_convolution hconvolves hread
  refine ⟨tensor, n, h, w, record, filter.values,
    (convolution.layer options operator).operation before, htensor, hplanes, hinterleaves, ?_⟩
  constructor
  case listed =>
    refine hextends.operations.subset ?_
    simp [Graph.operations_of_addLayer hadded]
  case code =>
    simp [Layer.operation, Convolution.layer, hdepthwise, hsplit]
  case image =>
    have hfed := (hgrows.extends.trans hextends).feed hfeed
    have hfeeds := Graph.feeds_image before (convolution.layer options operator) hfed rfl
    rw [Axes.toList, ← hchannels] at hfeeds
    simp only [List.map_cons, (toNat_group hgroups).1] at hfeeds
    exact ⟨source, _, _, _, _, hsource, hfeeds⟩
  case filter =>
    obtain ⟨hfeeds, hbound⟩ := Graph.feeds_first hadded hextends rfl (by rw [hparam])
    rw [hparam] at hfeeds hbound
    rw [hdims, hfilterDims] at hfeeds
    exact ⟨before.nextId, hfeeds, hbound⟩
  case result =>
    exact ⟨output, _, hlays.output _ _ houtput,
      hextends.named _ _ (Graph.find?_output_of_addLayer hadded houtput), rfl⟩

/-! ## Nets -/

namespace FlatNet

variable {options : LoweringOptions} {net : FlatNet} {operator : FlatOp} {group : Int32}

/-- A convolution with several groups is depthwise and reads the planes of its filter as channels,
and a filter without these planes is refused. -/
theorem lower_depthwise (hoperator : operator ∈ net.operators) (hconvolves : operator.Convolves)
    (hgroup : operator.group = .ok group) (hgroups : 1 < group) :
    (∀ graph, net.lower options = .ok graph →
      ∃ tensor n h w record values operation, operator.inputs[1]? = some tensor ∧
        tensor.HasPlanes group n h w record ∧
        values.Interleaves record n.toNat h.toNat w.toNat ∧
        graph.SplitsBy operator group tensor h.toNat w.toNat values operation) ∧
    ∀ tensor, operator.inputs[1]? = some tensor →
      (∀ n h w record, ¬tensor.HasPlanes group n h w record) →
      ∃ error, net.lower options = .error error := by
  constructor
  · intro graph hlower
    obtain ⟨before, after, hgrows, hextends⟩ := exists_growth hlower operator hoperator
    exact hgrows.splitsBy hextends hconvolves hgroup hgroups
  · intro tensor htensor hother
    cases hlower : net.lower options with
    | error error => exact ⟨error, rfl⟩
    | ok graph =>
        obtain ⟨before, after, hgrows, hextends⟩ := exists_growth hlower operator hoperator
        obtain ⟨found, n, h, w, record, _, _, hfound, hplanes, -⟩ :=
          hgrows.splitsBy hextends hconvolves hgroup hgroups
        cases htensor.symm.trans hfound
        exact absurd hplanes (hother n h w record)

/-- So many planes of one row and two columns. -/
def planesOf (count : Int32) (values : Array Single) : Tensor where
  name := "filter"
  shape := some (.numbers (.int32 #[count, 1, 2, 1]))
  values := some (.numbers (.float32 values))

/-- A convolution with two groups. -/
def twoGroups (filter : Tensor) : FlatOp where
  type := "Int8Conv"
  inputs := [.named "image", filter,
    { Tensor.named "bias" with
      shape := some (.numbers (.int32 #[2]))
      values := some (.numbers (.float32 #[.zero, .zero])) }]
  outputs := ["features"]
  arguments := .ofList [("kernels", .numbers (.int32 #[1, 2])), ("group", .numbers (.int32 #[2]))]

/-- Two planes are read as two channels, and three are refused. -/
theorem lower_depthwise_twoGroups :
    (∃ graph values operation,
      FlatNet.lower { inputSize := [1, 2, 2] }
        { operators := [twoGroups (planesOf 2 #[⟨1⟩, ⟨2⟩, ⟨3⟩, ⟨4⟩])] } = .ok graph ∧
      values.Interleaves (.float32 #[⟨1⟩, ⟨2⟩, ⟨3⟩, ⟨4⟩]) 2 1 2 ∧
      graph.SplitsBy (twoGroups (planesOf 2 #[⟨1⟩, ⟨2⟩, ⟨3⟩, ⟨4⟩])) 2
        (planesOf 2 #[⟨1⟩, ⟨2⟩, ⟨3⟩, ⟨4⟩]) 1 2 values operation) ∧
    ∃ error, FlatNet.lower { inputSize := [1, 2, 2] }
      { operators := [twoGroups (planesOf 3 #[⟨1⟩, ⟨2⟩, ⟨3⟩, ⟨4⟩, ⟨5⟩, ⟨6⟩])] } = .error error := by
  have hgroup (filter : Tensor) : (twoGroups filter).group = .ok 2 := rfl
  constructor
  · have hlowered : (fun _ => ()) <$> FlatNet.lower { inputSize := [1, 2, 2] }
        { operators := [twoGroups (planesOf 2 #[⟨1⟩, ⟨2⟩, ⟨3⟩, ⟨4⟩])] } = .ok () := by
      decide +kernel
    obtain ⟨graph, hlower, -⟩ := map_eq_ok_iff.mp hlowered
    obtain ⟨tensor, n, h, w, record, values, operation, hfilter, hplanes, hinterleaves, hsplits⟩ :=
      (lower_depthwise (List.mem_singleton.mpr rfl) (.inl rfl) (hgroup _) (by decide)).1 graph
        hlower
    cases hfilter
    cases hplanes.shape
    cases hplanes.values
    exact ⟨graph, values, operation, hlower, hinterleaves, hsplits⟩
  · refine (lower_depthwise (List.mem_singleton.mpr rfl) (.inl rfl) (hgroup _) (by decide)).2 _
      rfl ?_
    intro n h w record hplanes
    cases hplanes.shape
    cases hplanes.values
    exact absurd (hplanes.groups (by decide) (by decide)) (by decide)

end FlatNet

end NetLowering
