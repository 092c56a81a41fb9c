import NetLowering.Proofs.Lowering.Depthwise
import NetLowering.Proofs.Lowering.Windows

/-!
# Groups of a convolution

An operator states how many groups its convolution has.  How many channels its image has
is up to all the layers before it.  A net is lowered only if every convolution has one
group or one for every channel, and only with several groups it is depthwise.  Since what
is looked at is whether the number is negative and whether it is more than one, no groups
at all are taken for one (`FlatNet.lower_grouped`, `FlatNet.lower_noGroups`).
-/

namespace NetLowering

open Checked

namespace FlatOp

/-- How many groups the argument says there are, or one if it is missing. -/
inductive StatesGroup (operator : FlatOp) : Int32 → Prop where
  | stated {group : Int32}
      (stated : operator.arguments.find? "group" = some (.numbers (.int32 #[group]))) :
      StatesGroup operator group
  | absent (missing : operator.arguments.find? "group" = none) : StatesGroup operator 1

/-- Whether so many channels are kept apart: not in one group or in none, but in several if there
is one for each. -/
inductive Splits (operator : FlatOp) (channels : UInt32) : Bool → Prop where
  | whole {group : Int32} (states : operator.StatesGroup group) (few : group = 0 ∨ group = 1) :
      Splits operator channels false
  | apart {group : Int32} (states : operator.StatesGroup group) (several : 1 < group)
      (each : group.toInt = channels.toNat) : Splits operator channels true

/-- The operator lists a filter with its dimensions and values, and a bias. -/
def ListsWeights (operator : FlatOp) : Prop :=
  ∃ filter bias dims values, operator.inputs[1]? = some filter ∧ operator.inputs[2]? = some bias ∧
    filter.dims? = some dims ∧ filter.data? = some values

variable {operator : FlatOp} {group : Int32}

theorem statesGroup_iff :
    operator.StatesGroup group ↔
      ∃ found, operator.int? "group" = .ok found ∧ found.getD 1 = group := by
  constructor
  · rintro (hstated | hmissing)
    · exact ⟨some group, int?_eq_some_iff.mpr hstated, rfl⟩
    · exact ⟨none, optional_eq_none_iff.mpr hmissing, rfl⟩
  · rintro ⟨_ | number, hfound, rfl⟩
    · exact .absent (optional_eq_none_iff.mp hfound)
    · exact .stated (int?_eq_some_iff.mp hfound)

theorem StatesGroup.unique {other : Int32} (hstates : operator.StatesGroup group)
    (hother : operator.StatesGroup other) : group = other := by
  obtain ⟨found, hfound, rfl⟩ := statesGroup_iff.mp hstates
  obtain ⟨again, hagain, rfl⟩ := statesGroup_iff.mp hother
  cases hfound.symm.trans hagain
  rfl

theorem group_eq_ok_iff : operator.group = .ok group ↔ operator.StatesGroup group ∧ ¬group < 0 := by
  simp only [FlatOp.group, statesGroup_iff, bind_eq_ok_iff, check_eq_ok_iff, pure_eq_ok_iff]
  constructor
  · rintro ⟨found, hfound, hnonneg, rfl⟩
    exact ⟨⟨found, hfound, rfl⟩, hnonneg⟩
  · rintro ⟨⟨found, hfound, rfl⟩, hnonneg⟩
    exact ⟨found, hfound, hnonneg, rfl⟩

theorem StatesGroup.group_eq_error (hstates : operator.StatesGroup group) (hnegative : group < 0) :
    operator.group = .error (operator.invalid "group" (.negative group)) := by
  obtain ⟨found, hfound, rfl⟩ := statesGroup_iff.mp hstates
  rw [FlatOp.group, hfound, ok_bind, if_pos hnegative, throw_bind]

end FlatOp

/-! ## Filters -/

theorem eq_zero_or_one {group : Int32} (hnonneg : ¬group < 0) (hfew : ¬1 < group) :
    group = 0 ∨ group = 1 := by
  simp only [Int32.lt_iff_toInt_lt, ← Int32.toInt_inj] at *
  change ¬group.toInt < 0 at hnonneg
  change ¬1 < group.toInt at hfew
  change group.toInt = 0 ∨ group.toInt = 1
  omega

theorem toUInt32_eq_iff {group : Int32} {channels : UInt32} (hgroups : 1 < group) :
    group.toUInt32 = channels ↔ group.toInt = channels.toNat := by
  obtain ⟨hnat, hnonneg⟩ := toNat_group hgroups
  rw [← UInt32.toNat_inj, hnat]
  omega

namespace Filter

variable {operator : FlatOp} {tensor : Tensor} {channels : UInt32} {group : Int32}

theorem splits_of_ofTensor {filter : Filter}
    (hread : ofTensor operator tensor channels = .ok filter) :
    operator.Splits channels filter.depthwise := by
  obtain ⟨group, hgroup, hdepthwise⟩ := depthwise_iff_of_ofTensor hread
  obtain ⟨hstates, hnonneg⟩ := FlatOp.group_eq_ok_iff.mp hgroup
  by_cases hgroups : 1 < group
  · rw [hdepthwise.mpr hgroups]
    exact .apart hstates hgroups (toUInt32_eq_iff hgroups |>.mp
      (channels_of_ofTensor hread hgroup hgroups))
  · rw [Bool.eq_false_iff.mpr (mt hdepthwise.mp hgroups)]
    exact .whole hstates (eq_zero_or_one hnonneg hgroups)

/-- Any other number of groups is refused, for its sign or for the channels that there are. -/
theorem ofTensor_eq_error {dims : List UInt32} {values : Buffer} (hdims : tensor.dims? = some dims)
    (hvalues : tensor.data? = some values) (hstates : operator.StatesGroup group)
    (hother : ∀ depthwise, ¬operator.Splits channels depthwise) :
    ofTensor operator tensor channels = .error (if group < 0 then
      operator.invalid "group" (.negative group)
      else .unsupportedGrouping operator.name group channels) := by
  rw [ofTensor, Tensor.requireDims_eq_ok_iff.mpr hdims, ok_bind,
    Tensor.requireData_eq_ok_iff.mpr hvalues, ok_bind]
  by_cases hnegative : group < 0
  · rw [hstates.group_eq_error hnegative, error_bind, if_pos hnegative]
  · have hgroups : 1 < group := by
      by_contra hfew
      exact hother _ (.whole hstates (eq_zero_or_one hnegative hfew))
    have hchannels : group.toUInt32 ≠ channels := fun hsame =>
      hother _ (.apart hstates hgroups ((toUInt32_eq_iff hgroups).mp hsame))
    rw [FlatOp.group_eq_ok_iff.mpr ⟨hstates, hnegative⟩, ok_bind, if_pos hgroups,
      if_pos hchannels, throw_bind, if_neg hnegative]

end Filter

/-! ## Operators -/

/-- The operation keeps the channels of its image apart, or not, as the operator says.  If it does,
the depth multiplier 1 comes between the placement of the window and the activation. -/
structure Graph.GroupsBy (graph : Graph) (operator : FlatOp) (operation : Operation)
    (depthwise : Bool) : Prop where
  image : ∃ (image : Operand) (axes : Axes), graph.operandAt? operation 0 = some image ∧
    image.type.dims = axes.toList ∧ operator.Splits axes.c depthwise
  code : operation.code = if depthwise then .depthwiseConv2d else .conv2d
  ints : ∃ placement activation, placement.length = 6 ∧
    graph.ints operation = placement ++ (if depthwise then [1] else []) ++ [activation]

namespace FlatOp

variable {options : LoweringOptions} {operator : FlatOp} {before graph : Graph}

theorem Becomes.groupsBy {operation : Operation}
    (hbecomes : operator.Becomes options graph operation) (hconvolves : operator.Convolves)
    (hints : graph.IntsAreScalars) : ∃ depthwise, graph.GroupsBy operator operation depthwise := by
  obtain ⟨before, convolution, hread, hkeeps⟩ := hbecomes.convolution hconvolves
  obtain ⟨source, _, _, filter, -, -, -, hfeed, hfilter, -, -, hdepthwise⟩ :=
    Convolution.ofOperator_eq_ok hread
  refine ⟨convolution.depthwise, ?_⟩
  constructor
  case image =>
    obtain ⟨image, himage, hdims⟩ := hkeeps.image hfeed rfl
    refine ⟨image, convolution.input.axes, himage, hdims, ?_⟩
    rw [hdepthwise]
    exact Filter.splits_of_ofTensor hfilter
  case code =>
    rw [hkeeps.operation]
    rfl
  case ints =>
    exact ⟨convolution.window.placement, convolution.activation.number, rfl,
      Convolution.ints_of_keeps hread hkeeps hints⟩

theorem lower_of_convolves (hconvolves : operator.Convolves) :
    operator.lower options before = (do
      let convolution ← Convolution.ofOperator options before operator
      before.addLayer (convolution.layer options operator)) := by
  rcases hconvolves with htype | htype
  · rw [lower, htype]
    rfl
  · rw [lower, htype]
    rfl

/-- No convolution comes of an image whose channels are not split as the operator says. -/
theorem splits_of_lower {after : Graph} {source : Tensor} {image : Feed}
    (hlower : operator.lower options before = .ok after) (hconvolves : operator.Convolves)
    (hsource : operator.inputs[0]? = some source) (hfeed : before.feed source = .ok image) :
    ∃ depthwise, operator.Splits image.axes.c depthwise := by
  obtain ⟨convolution, hread, -⟩ := (grows_of_lower hlower).convolution_of_convolves hconvolves
  obtain ⟨found, _, _, filter, hfound, -, -, hread, hfilter, -⟩ :=
    Convolution.ofOperator_eq_ok hread
  cases hsource.symm.trans hfound
  cases hfeed.symm.trans hread
  exact ⟨_, Filter.splits_of_ofTensor hfilter⟩

theorem lower_eq_error {source : Tensor} {image : Feed} {group : Int32}
    (hconvolves : operator.Convolves) (hsource : operator.inputs[0]? = some source)
    (hfeed : before.feed source = .ok image) (hweights : operator.ListsWeights)
    (hstates : operator.StatesGroup group)
    (hother : ∀ depthwise, ¬operator.Splits image.axes.c depthwise) :
    operator.lower options before = .error (if group < 0 then
      operator.invalid "group" (.negative group)
      else .unsupportedGrouping operator.name group image.axes.c) := by
  obtain ⟨filter, bias, dims, values, hfilter, hbias, hdims, hvalues⟩ := hweights
  rw [lower_of_convolves hconvolves, Convolution.ofOperator, input_eq_ok_iff.mpr hsource, ok_bind,
    input_eq_ok_iff.mpr hfilter, ok_bind, input_eq_ok_iff.mpr hbias, ok_bind, hfeed, ok_bind,
    Filter.ofTensor_eq_error hdims hvalues hstates hother, error_bind, error_bind]

end FlatOp

/-! ## Nets -/

namespace FlatNet

variable {options : LoweringOptions} {net : FlatNet} {operator : FlatOp} {before : Graph}

/-- When it is the operator's turn, the graph is this one. -/
def Turn (net : FlatNet) (options : LoweringOptions) (operator : FlatOp) (graph : Graph) : Prop :=
  ∃ done rest first start, net.operators = done ++ operator :: rest ∧
    net.operators.head? = some first ∧ inputGraph options first = .ok start ∧
    done.foldlM (FlatOp.lower options) start = .ok graph

/-- A net is refused for what an operator is refused for in its turn. -/
theorem Turn.lower_eq_error {error : LoweringError} (hturn : net.Turn options operator before)
    (hrefused : operator.lower options before = .error error) :
    net.lower options = .error error := by
  obtain ⟨done, rest, first, start, hoperators, hfirst, hstart, hrun⟩ := hturn
  obtain ⟨last, hlast⟩ : ∃ last, net.operators.getLast? = some last :=
    ⟨_, List.getLast?_eq_some_getLast (List.ne_nil_of_mem (List.mem_of_mem_head? hfirst))⟩
  have hrefusal : net.operators.foldlM (FlatOp.lower options) start = .error error := by
    rw [hoperators, List.foldlM_append, hrun, ok_bind, List.foldlM_cons, hrefused, error_bind]
  simp only [lower, hfirst, hlast, hstart, hrefusal, ok_bind, error_bind]

/-- In a net that is lowered, convolutions are split as their operators say.  A net with one that
cannot be split in its turn is refused, and for its groups if its weights are there. -/
theorem lower_grouped (options : LoweringOptions) (net : FlatNet) :
    (∀ graph, net.lower options = .ok graph →
      List.Forall₂ (fun operator operation =>
          operator.Convolves → ∃ depthwise, graph.GroupsBy operator operation depthwise)
        (net.operators.filter fun operator => ¬operator.IsSkipped options) graph.operations) ∧
    ∀ operator before source image, net.Turn options operator before → operator.Convolves →
      operator.inputs[0]? = some source → before.feed source = .ok image →
      (∀ depthwise, ¬operator.Splits image.axes.c depthwise) →
      (∃ error, net.lower options = .error error) ∧
      ∀ group, operator.ListsWeights → operator.StatesGroup group →
        net.lower options = .error (if group < 0 then operator.invalid "group" (.negative group)
          else .unsupportedGrouping operator.name group image.axes.c) := by
  constructor
  · intro graph hlower
    have hints := intsAreScalars_of_lower hlower
    exact (becomes_of_lower hlower).imp fun _ _ hbecomes hconvolves =>
      hbecomes.groupsBy hconvolves hints
  · intro operator before source image hturn hconvolves hsource hfeed hother
    constructor
    · cases hlower : operator.lower options before with
      | error error => exact ⟨error, hturn.lower_eq_error hlower⟩
      | ok after =>
          obtain ⟨depthwise, hsplits⟩ :=
            FlatOp.splits_of_lower hlower hconvolves hsource hfeed
          exact absurd hsplits (hother depthwise)
    · intro group hweights hstates
      exact hturn.lower_eq_error
        (FlatOp.lower_eq_error hconvolves hsource hfeed hweights hstates hother)

/-- A convolution of an image with three channels, into so many groups. -/
def threeChannels (group : Int32) : FlatOp where
  type := "Int8Conv"
  inputs := [.named "image",
    { name := "filter"
      shape := some (.numbers (.int32 #[3, 1, 1, 1]))
      values := some (.numbers (.float32 #[.one, .one, .one])) },
    { name := "bias"
      shape := some (.numbers (.int32 #[3]))
      values := some (.numbers (.float32 #[.zero, .zero, .zero])) }]
  outputs := ["features"]
  arguments := .ofList [("kernel", .numbers (.int32 #[1])), ("group", .numbers (.int32 #[group]))]

/-- Three groups are kept apart, and two are refused. -/
theorem lower_grouped_threeChannels :
    (∃ graph operation,
      FlatNet.lower { inputSize := [1, 1, 3] } { operators := [threeChannels 3] } = .ok graph ∧
      graph.operations = [operation] ∧ graph.GroupsBy (threeChannels 3) operation true) ∧
    FlatNet.lower { inputSize := [1, 1, 3] } { operators := [threeChannels 2] } =
      .error (.unsupportedGrouping (threeChannels 2).name 2 3) := by
  constructor
  · have hread : (fun graph : Graph => graph.operations.map Operation.code) <$>
        FlatNet.lower { inputSize := [1, 1, 3] } { operators := [threeChannels 3] } =
          .ok [.depthwiseConv2d] := by
      decide +kernel
    obtain ⟨graph, hlower, hcodes⟩ := map_eq_ok_iff.mp hread
    have hgroups := (lower_grouped _ _).1 graph hlower
    obtain ⟨operation, hoperations, hcode⟩ := List.map_eq_singleton_iff.mp hcodes
    rw [hoperations] at hgroups
    obtain ⟨hfirst, -⟩ := List.forall₂_cons.mp hgroups
    obtain ⟨depthwise, hgroupsBy⟩ := hfirst (.inl rfl)
    refine ⟨graph, operation, hlower, hoperations, ?_⟩
    cases depthwise with
    | true => exact hgroupsBy
    | false => cases hcode.symm.trans hgroupsBy.code
  · have hread : (fun image : Feed => image.axes.c) <$>
        (startGraph "image" (.plain .tensorFloat32 [1, 1, 1, 3])).feed (.named "image") =
          .ok 3 := by
      rfl
    obtain ⟨image, hfeed, hchannels⟩ := map_eq_ok_iff.mp hread
    have hstates : (threeChannels 2).StatesGroup 2 := .stated rfl
    have hother : ∀ depthwise, ¬(threeChannels 2).Splits image.axes.c depthwise := by
      rintro depthwise (⟨hfound, hfew⟩ | ⟨hfound, -, heach⟩)
      · cases hstates.unique hfound
        exact absurd hfew (by decide)
      · cases hstates.unique hfound
        rw [hchannels] at heach
        exact absurd heach (by decide)
    have hturn : Turn { operators := [threeChannels 2] } { inputSize := [1, 1, 3] }
        (threeChannels 2) (startGraph "image" (.plain .tensorFloat32 [1, 1, 1, 3])) :=
      ⟨[], [], _, _, rfl, rfl, rfl, rfl⟩
    obtain ⟨-, hnamed⟩ :=
      (lower_grouped _ _).2 _ _ _ image hturn (.inl rfl) rfl hfeed hother
    rw [hnamed 2 ⟨_, _, _, _, rfl, rfl, rfl, rfl⟩ hstates, hchannels]
    rfl

/-- Three channels in no groups are taken for one group. -/
theorem lower_noGroups :
    ∃ graph operation image, (threeChannels 0).StatesGroup 0 ∧
      FlatNet.lower { inputSize := [1, 1, 3] } { operators := [threeChannels 0] } = .ok graph ∧
      graph.operations = [operation] ∧ operation.code = .conv2d ∧
      graph.operandAt? operation 0 = some image ∧ image.type.dims = [1, 1, 1, 3] := by
  have hread : (fun graph : Graph => graph.operations.map fun operation =>
        (operation.code, (graph.operandAt? operation 0).map (·.type.dims))) <$>
      FlatNet.lower { inputSize := [1, 1, 3] } { operators := [threeChannels 0] } =
        .ok [(.conv2d, some [1, 1, 1, 3])] := by
    decide +kernel
  obtain ⟨graph, hlower, hoperations⟩ := map_eq_ok_iff.mp hread
  obtain ⟨operation, hoperations, hoperation⟩ := List.map_eq_singleton_iff.mp hoperations
  obtain ⟨hcode, himage⟩ := Prod.mk.inj hoperation
  obtain ⟨image, himage, hdims⟩ := Option.map_eq_some_iff.mp himage
  exact ⟨graph, operation, image, .stated rfl, hlower, hoperations, hcode, himage, hdims⟩

end FlatNet

end NetLowering
