import Mathlib.NumberTheory.Padics.PadicVal.Basic
import NetLowering.Proofs.FlatNet.Images
import NetLowering.Proofs.FlatNet.Joining
import NetLowering.Proofs.Lowering.Filters
import NetLowering.Proofs.Lowering.Growth

/-!
# Where the weights of a filter end up

A filter goes from its initializer through the flat net to an operand of the graph.
Its elements may be relaid twice on the way: once because the net is channel-first,
and once more because the convolution is depthwise.  Both times they may already be
signed, which no relayout looks at (`filter_placement`).
-/

namespace NetLowering

open Checked

/-! ## Layers -/

namespace Graph

variable {graph next : Graph} {output name : String} {code : OperationCode} {dims : List Nat}
  {values : Buffer}

/-- The output of this name is written by an operation that reads the operand of that name as its
filter. -/
def HasFilter (graph : Graph) (output name : String) (code : OperationCode) (dims : List Nat)
    (values : Buffer) : Prop :=
  ∃ id operand result operation, graph.tensorIds.find? name = some id ∧
    graph.operand? id = some operand ∧ operand.type.dims.map UInt32.toNat = dims ∧
    graph.values.find? id = some values ∧
    graph.tensorIds.find? output = some result ∧
    operation ∈ graph.operations ∧ operation.code = code ∧
    operation.inputs[1]? = some id ∧ operation.outputs = [result]

theorem HasFilter.mono (hextends : graph.Extends next)
    (hfilter : graph.HasFilter output name code dims values) :
    next.HasFilter output name code dims values := by
  obtain ⟨id, operand, result, operation, hid, hoperand, hdims, hvalues, hresult, hmem, hcode⟩ :=
    hfilter
  exact ⟨id, operand, result, operation, hextends.named _ _ hid, hextends.operand? hoperand, hdims,
    hextends.bound _ _ hvalues, hextends.named _ _ hresult, hextends.operations.subset hmem, hcode⟩

/-- The first parameter of a layer is what its operation reads second. -/
theorem hasFilter_of_addLayer {layer : Layer} {param : Param} {rest : List Param}
    {type : OperandType} (hadded : graph.addLayer layer = .ok next)
    (hparams : layer.params = param :: rest) (hname : param.name = some name)
    (houtput : layer.output = .ok (output, type)) :
    param.type.elements = param.value.size ∧
      next.HasFilter output name layer.code (param.type.dims.map UInt32.toNat) param.value := by
  obtain ⟨hadmits, hextends⟩ := extends_first_of_addLayer hadded hparams
  obtain ⟨withParams, _, _, -, hwritten, -, -, rfl⟩ := addLayer_eq_ok_iff.mp hadded
  cases houtput.symm.trans hwritten
  refine ⟨hadmits.elements, graph.nextId, ⟨param.name, param.type⟩, withParams.nextId, _,
    hextends.named _ _ ?_, hextends.operand? (operand?_push_nextId _ _), rfl,
    hextends.bound _ _ ?_, ?_, List.mem_append_right _ (List.mem_singleton.mpr rfl), rfl, ?_,
    rfl⟩
  · simp [withParam, hname, Table.find?_insert]
  · simp [withParam, Table.find?_insert]
  · simp [withResult, Table.find?_insert]
  · simp [nextIds, hparams, List.range'_succ]

end Graph

/-! ## Convolutions -/

theorem FlatOp.outputName_eq_ok_iff {operator : FlatOp} {name : String} :
    operator.outputName = .ok name ↔ operator.outputs.head? = some name := by
  rw [outputName]
  cases operator.outputs.head? <;> simp

theorem FlatOp.Grows.hasFilter {options : LoweringOptions} {operator : FlatOp}
    {before after : Graph} (hgrows : operator.Grows options before after)
    (hconvolves : operator.Convolves) {tensor : Tensor}
    (htensor : operator.inputs[1]? = some tensor) :
    ∃ channels filter output, Filter.ofTensor operator tensor channels = .ok filter ∧
      operator.outputs.head? = some output ∧
      wordSpan (filter.dims.map UInt32.toNat) = filter.values.size ∧
      after.HasFilter output tensor.name
        (if filter.depthwise then .depthwiseConv2d else .conv2d)
        (filter.dims.map UInt32.toNat) filter.values := by
  obtain ⟨convolution, hread, hadded⟩ := hgrows.convolution_of_convolves hconvolves
  obtain ⟨-, found, -, filter, -, hfound, -, -, hfilter, hparam, -, hdepthwise⟩ :=
    Convolution.ofOperator_eq_ok hread
  cases htensor.symm.trans hfound
  obtain ⟨type, htype, hparam⟩ := bind_eq_ok_iff.mp hparam
  rw [pure_eq_ok_iff] at hparam
  obtain ⟨-, output, _, -, hlayerOutput, -⟩ := Graph.addLayer_eq_ok_iff.mp hadded
  have houtput : operator.outputs.head? = some output := by
    simp only [Convolution.layer, bind_eq_ok_iff, pure_eq_ok_iff, Prod.mk.injEq,
      outputName_eq_ok_iff] at hlayerOutput
    obtain ⟨-, -, -, -, _, hname, rfl, -⟩ := hlayerOutput
    exact hname
  have hcode : (convolution.layer options operator).code =
      if filter.depthwise then .depthwiseConv2d else .conv2d := by
    rw [← hdepthwise]
    rfl
  obtain ⟨helements, hhas⟩ :=
    Graph.hasFilter_of_addLayer hadded rfl (by rw [hparam]) hlayerOutput
  rw [hparam, (Filter.type_eq_ok htype).1, hcode] at hhas
  rw [hparam, OperandType.elements_eq, (Filter.type_eq_ok htype).1] at helements
  exact ⟨_, filter, output, hfilter, houtput, helements, hhas⟩

/-! ## Depthwise filters -/

theorem toNat_group {group : Int32} (hgroups : 1 < group) :
    group.toUInt32.toNat = group.toInt.toNat ∧ 0 ≤ group.toInt := by
  have hone : 1 < group.toInt := Int32.lt_iff_toInt_lt.mp hgroups
  have hnonneg : 0 ≤ group.toInt := by omega
  have hnat := toNat_toUInt32 hnonneg
  omega

/-- Counts of planes that agree as a machine word sees them agree, unless there are too many values
to be held: what they differ by has fewer than 31 factors of two, so the plane would have at least
34 of them. -/
theorem groups_eq_images {groups images plane : Nat}
    (hword : groups * plane % 2 ^ 64 = images * plane) (hgroups : groups < 2 ^ 31)
    (hpositive : 0 < images * plane) (hheld : images * plane < 2 ^ 34) : groups = images := by
  have hplane : 0 < plane := Nat.pos_of_mul_pos_left hpositive
  have himages : 0 < images := Nat.pos_of_mul_pos_right hpositive
  rcases Nat.lt_trichotomy groups images with hfewer | hsame | hmore
  · have hless := Nat.mul_lt_mul_of_pos_right hfewer hplane
    omega
  · exact hsame
  · obtain ⟨excess, rfl⟩ := Nat.exists_eq_add_of_lt hmore
    have hcut : 2 ^ 64 ∣ (excess + 1) * plane := by
      rw [Nat.add_assoc, Nat.add_mul] at hword
      omega
    have hfactors : 64 ≤ padicValNat 2 (excess + 1) + padicValNat 2 plane := by
      rw [← padicValNat.mul (by omega) (by omega)]
      exact (padicValNat_dvd_iff_le (Nat.mul_ne_zero (by omega) (by omega))).mp hcut
    have hexcess : padicValNat 2 (excess + 1) < 31 :=
      (padicValNat_le_nat_log _).trans_lt (Nat.log_lt_of_lt_pow (by omega) (by omega))
    have hplaneLarge : 2 ^ 34 ≤ plane :=
      Nat.le_of_dvd hplane ((padicValNat_dvd_iff_le (by omega)).mpr (by omega))
    have := Nat.le_mul_of_pos_left plane himages
    omega

/-- A filter has one channel if it can be repacked, and as many images as groups if it has values
and not too many to be held; its planes are the channels of what is bound. -/
structure Filter.Repacks (shape : ImageShape) (group : Int32) (relaid values : Buffer) : Prop where
  channels : shape.channels = 1
  groups : 0 < relaid.size → relaid.size < 2 ^ 34 → group.toInt = shape.images
  filled : relaid.size = span (Layout.channelLast.dims shape)
  size : values.size = relaid.size
  places : ∀ cell, shape.Has cell →
    values.element? (shape.planePlace cell) =
      relaid.element? (Layout.channelLast.place shape cell)

theorem Filter.repacks_of_repack {name : String} {group : Int32} {dims : List UInt32}
    {relaid : Buffer} {filter : Filter} {shape : ImageShape} (hgroups : 1 < group)
    (hrepacked : repack name group dims relaid = .ok filter)
    (hdims : dims.map UInt32.toNat = Layout.channelLast.dims shape)
    (hspan : wordSpan (filter.dims.map UInt32.toNat) = filter.values.size) :
    filter.depthwise = true ∧
      filter.dims.map UInt32.toNat = [1, shape.rows, shape.columns, group.toInt.toNat] ∧
      Repacks shape group relaid filter.values := by
  obtain ⟨n, h, w, repacked, rfl, hsize, hrearranged, rfl⟩ := repack_eq_ok hrepacked
  obtain ⟨images, channels, rows, columns⟩ := shape
  simp only [Layout.dims, List.map_cons, List.map_nil, List.cons.injEq, and_true] at hdims
  obtain ⟨rfl, rfl, rfl, rfl⟩ := hdims
  obtain ⟨hgroup, hnonneg⟩ := toNat_group hgroups
  have hplane := plane_lt h w
  have hrepackedSize :=
    (Buffer.size_rearrange (size_of_planesToChannels hplane) hrearranged).2
  refine ⟨rfl, by simp [hgroup], rfl, ?_, ?_, hrepackedSize, ?_⟩
  · -- The operand has a channel for every group, and its values are those of every image.
    intro hpositive hheld
    have hword : group.toUInt32.toNat * (h.toNat * w.toNat) % 2 ^ 64 =
        n.toNat * (h.toNat * w.toNat) :=
      calc group.toUInt32.toNat * (h.toNat * w.toNat) % 2 ^ 64
          = wordSpan ([1, h, w, group.toUInt32].map UInt32.toNat) := by
            simp only [wordSpan, span, List.map_cons, List.map_nil, List.foldr_cons,
              List.foldr_nil, UInt32.toNat_one]
            congr 1
            ring
        _ = n.toNat * (h.toNat * w.toNat) := by
            rw [hspan, hrepackedSize, hsize, Nat.mul_assoc]
    rw [hsize, Nat.mul_assoc] at hpositive hheld
    have hsame := groups_eq_images hword (by have := group.toInt_lt; omega) hpositive hheld
    change group.toInt = (n.toNat : Int)
    omega
  · rw [hsize, Layout.span_dims]
    change n.toNat * h.toNat * w.toNat = n.toNat * 1 * h.toNat * w.toNat
    rw [Nat.mul_one]
  · intro cell hcell
    exact Buffer.element?_rearrange
      (fun hmoved => getElem?_planesToChannels rfl hplane hmoved hcell) hrearranged

/-! ## Nets -/

namespace FlatNet

variable {loadOptions : LoadOptions} {options : LoweringOptions} {predict init : Net}
  {net : FlatNet} {graph : Graph} {operator initializer : NetOperator} {facts : Tensor}
  {a b c d : Int32} {raw : Buffer}

/-- The operator that a convolution becomes reads the tensor of its filter's initializer. -/
theorem Joins.filter (hjoins : net.Joins loadOptions predict init)
    (hoperator : operator ∈ predict.operators)
    (htype : operator.type = some "Int8Conv" ∨ operator.type = some "Int8ConvRelu")
    (hinitializer : initializer ∈ init.operators)
    (hfacts : Tensor.stated initializer = .ok facts)
    (hinput : operator.inputs[1]? = some facts.name) :
    ∃ flat ∈ net.operators, ∃ tensor,
      FlatOp.ofOperator net.predictLayout net.initializers operator = .ok flat ∧
      flat.Convolves ∧ flat.inputs[1]? = some tensor ∧ flat.outputs = operator.outputs ∧
      Tensor.ofInitializer loadOptions net.initLayout initializer = .ok tensor ∧
      tensor.name = facts.name := by
  obtain ⟨flat, hflat, hread⟩ := hjoins.operators operator hoperator
  obtain ⟨tensor, hload, hfound⟩ := hjoins.initializers initializer hinitializer
  have hname := Tensor.name_ofInitializer hload hfacts
  obtain ⟨hflatType, hinputs, houtputs⟩ := FlatOp.ofOperator_eq_ok hread
  refine ⟨flat, hflat, tensor, hread, ?_, ?_, houtputs, hload, hname⟩
  · rcases htype with htype | htype <;> simp [FlatOp.Convolves, hflatType, htype]
  · rw [hname] at hfound
    rw [hinputs, List.getElem?_map, hinput]
    simp [hfound]

/-- Every element of a filter has its place in the graph. -/
theorem filter_placement (hjoin : join loadOptions predict init = .ok net)
    (hlower : net.lower options = .ok graph) (hoperator : operator ∈ predict.operators)
    (htype : operator.type = some "Int8Conv" ∨ operator.type = some "Int8ConvRelu")
    (hinitializer : initializer ∈ init.operators)
    (hfacts : Tensor.stated initializer = .ok facts)
    (hinput : operator.inputs[1]? = some facts.name)
    (hshape : facts.shape = some (.numbers (.int32 #[a, b, c, d])))
    (hvalues : facts.values = some (.numbers raw)) :
    ∃ layout shape group output values, ∃ flat ∈ net.operators,
      (layout = .channelFirst ↔ init.StatesOrder "NCHW") ∧
      [a, b, c, d].map Int32.toInt = (layout.dims shape).map Int.ofNat ∧
      raw.size = wordSpan (layout.dims shape) ∧
      (layout = .channelFirst ∨ 1 < group → raw.size = span (layout.dims shape)) ∧
      values.size = raw.size ∧
      FlatOp.ofOperator net.predictLayout net.initializers operator = .ok flat ∧
      flat.group = .ok group ∧ operator.outputs.head? = some output ∧
      if 1 < group then
        shape.channels = 1 ∧ (0 < raw.size → raw.size < 2 ^ 34 → group.toInt = shape.images) ∧
        graph.HasFilter output facts.name .depthwiseConv2d
          [1, shape.rows, shape.columns, group.toInt.toNat] values ∧
        Tensor.Places loadOptions facts layout shape raw shape.planePlace values
      else
        graph.HasFilter output facts.name .conv2d (Layout.channelLast.dims shape) values ∧
        Tensor.Places loadOptions facts layout shape raw (Layout.channelLast.place shape)
          values := by
  have hjoins := joins_of_join hjoin
  obtain ⟨flat, hflat, tensor, hread, hconvolves, htensor, houtputs, hload, hname⟩ :=
    hjoins.filter hoperator htype hinitializer hfacts hinput
  obtain ⟨before, after, hgrows, hextends⟩ := exists_growth hlower flat hflat
  obtain ⟨channels, filter, output, hfilter, houtput, hspan, hhas⟩ :=
    hgrows.hasFilter hconvolves htensor
  obtain ⟨dims, relaid, group, hdims, hrelaid, hgroup, hcases⟩ := Filter.ofTensor_eq_ok hfilter
  obtain ⟨shape, _, hsizes, hshapeDims, hfirst, hplaced, hsize, hplaces⟩ :=
    Tensor.places_of_ofInitializer hload hfacts hshape hvalues hdims
  cases hrelaid.symm.trans hplaced
  refine ⟨net.initLayout, shape, group, output, filter.values, flat, hflat,
    Net.layout_channelFirst_iff hjoins.initLayout, hsizes, ?_⟩
  rw [hname] at hhas
  rw [houtputs] at houtput
  -- A filter without groups is bound as the flat net has it, any other one is relaid once more.
  rcases hcases with ⟨hgroups, rfl⟩ | ⟨hgroups, hrepacked⟩
  · rw [if_neg hgroups]
    rw [hshapeDims] at hspan hhas
    refine ⟨?_, fun hexact => hfirst (hexact.resolve_right hgroups), hsize, hread, hgroup, houtput,
      hhas.mono hextends, hplaces⟩
    rw [← hsize, ← hspan, wordSpan, wordSpan, Layout.span_dims, Layout.span_dims]
  · rw [if_pos hgroups]
    obtain ⟨hdepthwise, hfilterDims, hrepacks⟩ :=
      Filter.repacks_of_repack hgroups hrepacked hshapeDims hspan
    rw [hfilterDims, if_pos hdepthwise] at hhas
    have hfilled : raw.size = span (net.initLayout.dims shape) := by
      rw [← hsize, hrepacks.filled, Layout.span_dims, Layout.span_dims]
    refine ⟨?_, fun _ => hfilled, hrepacks.size.trans hsize, hread, hgroup, houtput,
      hrepacks.channels, hsize ▸ hrepacks.groups, hhas.mono hextends, ?_⟩
    · have hheld : raw.size < 2 ^ 64 := by
        rw [← hsize, ← hrepacks.size, ← hspan]
        exact Nat.mod_lt _ (by decide)
      rw [wordSpan, ← hfilled]
      exact (Nat.mod_eq_of_lt hheld).symm
    · intro cell hcell
      rw [hrepacks.places cell hcell, hplaces cell hcell]

/-- A channel-first initializer net with a filter of two planes and a bias for them. -/
def planesInit : Net where
  operators := [
    { outputs := ["filter"]
      arguments := [{ name := some "order", bytes := some [78, 67, 72, 87] },
        { name := some "shape", ints := [2, 1, 1, 2] },
        { name := some "values", bytes := some [130, 131, 132, 133] },
        { name := some "Y_scale", float := some .one },
        { name := some "Y_zero_point", int := some 128 }] },
    { outputs := ["bias"]
      arguments := [{ name := some "shape", ints := [2] },
        { name := some "values", ints := [0, 0] },
        { name := some "Y_scale", float := some .one }] }]

def planesPredict : Net where
  operators := [
    { inputs := ["image", "filter", "bias"]
      outputs := ["features"]
      type := some "Int8Conv"
      arguments := [{ name := some "kernel", int := some 1 },
        { name := some "group", int := some 2 },
        { name := some "X_scale", float := some .one }] }]

/-- The second column of the first plane comes after the first column of both planes. -/
theorem filter_placement_planes :
    ∃ net graph values,
      join { quantized := true, signedRemap := true } planesPredict planesInit = .ok net ∧
      net.lower { quantized := true, signedRemap := true, inputSize := [1, 1, 2] } = .ok graph ∧
      graph.HasFilter "features" "filter" .depthwiseConv2d [1, 1, 2, 2] values ∧
      values.element? 2 = some (.int8 3) := by
  have hjoined : (fun net : FlatNet => (net.operators.map FlatOp.group,
          (fun _ => ()) <$> net.lower
            { quantized := true, signedRemap := true, inputSize := [1, 1, 2] })) <$>
        join { quantized := true, signedRemap := true } planesPredict planesInit =
        .ok ([.ok 2], .ok ()) := by
    decide +kernel
  obtain ⟨net, hjoin, hnet⟩ := map_eq_ok_iff.mp hjoined
  simp only [Prod.mk.injEq] at hnet
  obtain ⟨hgroups, hlowered⟩ := hnet
  obtain ⟨graph, hlower, -⟩ := map_eq_ok_iff.mp hlowered
  have hstated : (fun facts : Tensor =>
          (facts.name, facts.shape, facts.values, facts.zeroPoint?)) <$>
        Tensor.stated (planesInit.operators.head (by decide)) =
        .ok ("filter", some (.numbers (.int32 #[2, 1, 1, 2])),
          some (.numbers (.uint8 #[130, 131, 132, 133])), some 128) := by
    decide +kernel
  obtain ⟨facts, hfacts, hknown⟩ := map_eq_ok_iff.mp hstated
  simp only [Prod.mk.injEq] at hknown
  obtain ⟨hname, hshape, hvalues, hzero⟩ := hknown
  obtain ⟨layout, shape, group, output, values, flat, hflat, hlayout, hsizes, -, -, -, -,
    hgroup, houtput, hplacement⟩ :=
    filter_placement hjoin hlower (List.mem_singleton.mpr rfl) (.inl rfl) (List.head_mem _) hfacts
      (by rw [hname]; rfl) hshape hvalues
  have hfirst : layout = .channelFirst :=
    hlayout.mpr ⟨_, List.head_mem (by decide), _, List.mem_cons_self, rfl, _, rfl, rfl⟩
  have htwo : group = 2 := by
    have hmem := List.mem_map_of_mem (f := FlatOp.group) hflat
    rw [hgroups, List.mem_singleton, hgroup] at hmem
    exact Except.ok.inj hmem
  obtain rfl : shape = ⟨2, 1, 1, 2⟩ := by
    rw [hfirst] at hsizes
    obtain ⟨images, channels, rows, columns⟩ := shape
    simp only [Layout.dims, List.map_cons, List.map_nil, List.cons.injEq, and_true] at hsizes
    obtain ⟨himages, hchannels, hrows, hcolumns⟩ := hsizes
    cases Int.ofNat.inj himages
    cases Int.ofNat.inj hchannels
    cases Int.ofNat.inj hrows
    cases Int.ofNat.inj hcolumns
    rfl
  cases Option.some.inj houtput
  rw [htwo, if_pos (by decide), hname] at hplacement
  obtain ⟨-, -, hfilter, hplaces⟩ := hplacement
  have hplace := hplaces ⟨0, 0, 0, 1⟩ ⟨by decide, by decide, by decide, by decide⟩
  have harrival : LoadOptions.arrival { quantized := true, signedRemap := true } facts =
      Element.signed := by
    funext element
    simp [LoadOptions.arrival, hzero]
  refine ⟨net, graph, values, hjoin, hlower, hfilter, hplace.trans ?_⟩
  rw [hfirst, harrival]
  decide

end FlatNet

end NetLowering
