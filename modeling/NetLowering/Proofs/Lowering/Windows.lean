import NetLowering.Proofs.FlatNet.Initializers
import NetLowering.Proofs.Lowering.Integers
import NetLowering.Proofs.Lowering.WindowCount

/-!
# Windows as operators state them

Sizes, strides and paddings are stated per axis or as one number, and strides and
paddings may be left out.  `FlatOp.StatesWindow` says which window an operator states,
looking at nothing but its arguments.  `FlatNet.lower_windowed` says that an operation
takes the integers of this window, width before height and the paddings of a row first,
and that its output has as many rows and columns as the window has places.
-/

namespace NetLowering

open Checked

/-! ## Arguments -/

namespace FlatOp

variable {α : Type} {operator : FlatOp} {name : String}

theorem optional_eq_none_iff {read : Value → Option α} {fault : Value → ArgumentFault} :
    operator.optional name read fault = .ok none ↔ operator.arguments.find? name = none := by
  rw [optional]
  cases operator.arguments.find? name with
  | none => simp
  | some value => cases hread : read value <;> simp [hread]

theorem optional_eq_some_iff {read : Value → Option α} {fault : Value → ArgumentFault}
    {content : α} :
    operator.optional name read fault = .ok (some content) ↔
      ∃ value, operator.arguments.find? name = some value ∧ read value = some content := by
  rw [optional]
  cases operator.arguments.find? name with
  | none => simp
  | some value => cases hread : read value <;> simp [hread]

theorem int?_eq_some_iff {number : Int32} :
    operator.int? name = .ok (some number) ↔
      operator.arguments.find? name = some (.numbers (.int32 #[number])) := by
  rw [int?, optional_eq_some_iff]
  simp [Value.int?_eq_some_iff]

theorem required_eq_ok_iff {found : Option α} {content : α} :
    operator.required name found = .ok content ↔ found = some content := by
  cases found <;> simp [required]

/-! ## What an operator states -/

/-- A size for both axes: a height and a width, or one number for both, or else what is usual. -/
inductive StatesExtent (operator : FlatOp) (name sideName : String) (usual : Option Extent) :
    Extent → Prop where
  | axes {height width : Int32}
      (stated : operator.arguments.find? name = some (.numbers (.int32 #[height, width]))) :
      StatesExtent operator name sideName usual ⟨height, width⟩
  | side {length : Int32} (noAxes : operator.arguments.find? name = none)
      (stated : operator.arguments.find? sideName = some (.numbers (.int32 #[length]))) :
      StatesExtent operator name sideName usual ⟨length, length⟩
  | usual {extent : Extent} (noAxes : operator.arguments.find? name = none)
      (noSide : operator.arguments.find? sideName = none) (given : usual = some extent) :
      StatesExtent operator name sideName usual extent

/-- Paddings: one for each side, or one number for all sides, or else none. -/
inductive StatesPads (operator : FlatOp) : Pads → Prop where
  | sides {top left bottom right : Int32}
      (stated : operator.arguments.find? "pads" =
        some (.numbers (.int32 #[top, left, bottom, right]))) :
      StatesPads operator ⟨top, left, bottom, right⟩
  | around {size : Int32} (noSides : operator.arguments.find? "pads" = none)
      (stated : operator.arguments.find? "pad" = some (.numbers (.int32 #[size]))) :
      StatesPads operator ⟨size, size, size, size⟩
  | absent (noSides : operator.arguments.find? "pads" = none)
      (noSize : operator.arguments.find? "pad" = none) : StatesPads operator ⟨0, 0, 0, 0⟩

/-- A window whose kernel has to be stated, while strides are usually 1. -/
structure StatesWindow (operator : FlatOp) (window : Window) : Prop where
  kernel : operator.StatesExtent "kernels" "kernel" none window.kernel
  stride : operator.StatesExtent "strides" "stride" (some ⟨1, 1⟩) window.stride
  pads : operator.StatesPads window.pads

/-- An activation, by both of its bounds or not at all. -/
inductive StatesActivation (operator : FlatOp) : Activation → Prop where
  | bounds {upper lower : Value} {max min : Single}
      (hasMax : operator.arguments.find? "bound_max" = some upper)
      (hasMin : operator.arguments.find? "bound_min" = some lower)
      (readsMax : upper.single? = some max) (readsMin : lower.single? = some min) :
      StatesActivation operator (.ofBounds max min)
  | unbounded (missing : operator.arguments.find? "bound_max" = none ∨
      operator.arguments.find? "bound_min" = none) : StatesActivation operator .none

/-- The operator pools the whole plane, whatever its kernel is. -/
def PoolsGlobally (operator : FlatOp) : Prop :=
  ∃ number, operator.arguments.find? "global_pooling" = some (.numbers (.int32 #[number])) ∧
    number ≠ 0

end FlatOp

/-! ## Reading windows -/

variable {operator : FlatOp}

theorem Extent.states_of_ofOperator? {name sideName : String} {found usual : Option Extent}
    {extent : Extent} (hread : ofOperator? operator name sideName = .ok found)
    (hextent : found.or usual = some extent) :
    operator.StatesExtent name sideName usual extent := by
  obtain ⟨pair, hpair, hread⟩ := bind_eq_ok_iff.mp hread
  cases pair with
  | some stated =>
      rw [pure_eq_ok_iff] at hread
      subst hread
      cases hextent
      obtain ⟨value, hvalue, hstated⟩ := FlatOp.optional_eq_some_iff.mp hpair
      cases hints : value.ints? with
      | none =>
          rw [hints] at hstated
          cases hstated
      | some numbers =>
          rw [hints] at hstated
          rw [Value.ints?_eq_some_iff.mp hints] at hvalue
          obtain ⟨_ | ⟨height, _ | ⟨width, _ | ⟨third, rest⟩⟩⟩⟩ := numbers
          · cases hstated
          · cases hstated
          · cases hstated
            exact .axes hvalue
          · cases hstated
  | none =>
      have hnone := FlatOp.optional_eq_none_iff.mp hpair
      obtain ⟨side, hside, hread⟩ := bind_eq_ok_iff.mp hread
      rw [pure_eq_ok_iff] at hread
      subst hread
      cases side with
      | some length =>
          cases hextent
          exact .side hnone (FlatOp.int?_eq_some_iff.mp hside)
      | none => exact .usual hnone (FlatOp.optional_eq_none_iff.mp hside) hextent

theorem Extent.checkPositive_eq_ok_iff {extent : Extent} {name : String} :
    extent.checkPositive operator name = .ok () ↔ 0 < extent.height ∧ 0 < extent.width := by
  rw [checkPositive]
  cases hfound : extent.toList.find? fun number => number ≤ 0 with
  | none => simpa [toList] using hfound
  | some number =>
      have hnumber := List.find?_some hfound
      have hmem := List.mem_of_find?_eq_some hfound
      rw [decide_eq_true_eq] at hnumber
      simp only [toList, List.mem_cons, List.not_mem_nil, or_false] at hmem
      simp only [reduceCtorEq, false_iff, not_and_or, Int32.not_lt]
      rcases hmem with rfl | rfl
      · exact .inl hnumber
      · exact .inr hnumber

namespace Pads

theorem states_of_given {pads : Pads} (hread : given operator = .ok pads) :
    operator.StatesPads pads := by
  obtain ⟨sides, hsides, hread⟩ := bind_eq_ok_iff.mp hread
  cases sides with
  | some stated =>
      rw [pure_eq_ok_iff] at hread
      subst hread
      obtain ⟨value, hvalue, hstated⟩ := FlatOp.optional_eq_some_iff.mp hsides
      cases hints : value.ints? with
      | none =>
          rw [hints] at hstated
          cases hstated
      | some numbers =>
          rw [hints] at hstated
          rw [Value.ints?_eq_some_iff.mp hints] at hvalue
          obtain ⟨_ | ⟨top, _ | ⟨left, _ | ⟨bottom, _ | ⟨right, _ | ⟨fifth, rest⟩⟩⟩⟩⟩⟩ := numbers
          all_goals cases hstated
          exact .sides hvalue
  | none =>
      have hnone := FlatOp.optional_eq_none_iff.mp hsides
      obtain ⟨size, hsize, hread⟩ := bind_eq_ok_iff.mp hread
      rw [pure_eq_ok_iff] at hread
      subst hread
      cases size with
      | some length => exact .around hnone (FlatOp.int?_eq_some_iff.mp hsize)
      | none => exact .absent hnone (FlatOp.optional_eq_none_iff.mp hsize)

/-- No side is padded by less than nothing. -/
structure Nonneg (pads : Pads) : Prop where
  top : 0 ≤ pads.top
  left : 0 ≤ pads.left
  bottom : 0 ≤ pads.bottom
  right : 0 ≤ pads.right

theorem ofOperator_eq_ok {pads : Pads} (hread : ofOperator operator = .ok pads) :
    operator.StatesPads pads ∧ pads.Nonneg := by
  obtain ⟨stated, hgiven, hread⟩ := bind_eq_ok_iff.mp hread
  cases hfound : stated.toList.find? fun number => number < 0 with
  | some number =>
      rw [hfound] at hread
      cases hread
  | none =>
      rw [hfound] at hread
      cases hread
      simp [toList, Int32.not_lt] at hfound
      exact ⟨states_of_given hgiven, hfound.1, hfound.2.1, hfound.2.2.1, hfound.2.2.2⟩

end Pads

/-- The window moves, and covers something. -/
structure Window.Proper (window : Window) : Prop where
  pads : window.pads.Nonneg
  stride : 1 ≤ window.stride.height ∧ 1 ≤ window.stride.width
  kernel : 1 ≤ window.kernel.height ∧ 1 ≤ window.kernel.width

/-- What is read as a window is what the operator states, and proper. -/
theorem Window.stated_of_ofOperator {usual : Option Extent} {window : Window}
    (hread : ofOperator operator usual = .ok window) :
    operator.StatesExtent "kernels" "kernel" usual window.kernel ∧
      operator.StatesExtent "strides" "stride" (some ⟨1, 1⟩) window.stride ∧
      operator.StatesPads window.pads ∧ window.Proper := by
  have hone {number : Int32} : 0 < number ↔ 1 ≤ number := by
    rw [Int32.lt_iff_toInt_lt, Int32.le_iff_toInt_le]
    exact Iff.rfl
  simp only [ofOperator, bind_eq_ok_iff, pure_eq_ok_iff, FlatOp.required_eq_ok_iff] at hread
  obtain ⟨kernels, hkernels, kernel, hkernel, strides, hstrides, pads, hpads, ⟨⟩, hpositive, ⟨⟩,
    hmoves, rfl⟩ := hread
  obtain ⟨hstated, hnonneg⟩ := Pads.ofOperator_eq_ok hpads
  rw [Extent.checkPositive_eq_ok_iff, hone, hone] at hpositive hmoves
  refine ⟨Extent.states_of_ofOperator? hkernels hkernel,
    Extent.states_of_ofOperator? hstrides ?_, hstated, hnonneg, hmoves, hpositive⟩
  cases strides <;> rfl

theorem Window.ofOperator_eq_ok {window : Window} (hread : ofOperator operator none = .ok window) :
    operator.StatesWindow window ∧ window.Proper := by
  obtain ⟨hkernel, hstride, hpads, hproper⟩ := stated_of_ofOperator hread
  exact ⟨⟨hkernel, hstride, hpads⟩, hproper⟩

theorem FlatOp.states_of_activation {activation : Activation}
    (hread : operator.activation = .ok activation) : operator.StatesActivation activation := by
  simp only [FlatOp.activation, bind_eq_ok_iff] at hread
  obtain ⟨max, hmax, min, hmin, hread⟩ := hread
  have hunbounded : Activation.ofBounds .zero .zero = .none := rfl
  cases max with
  | none =>
      cases pure_eq_ok_iff.mp hread
      exact .unbounded (.inl (optional_eq_none_iff.mp hmax))
  | some max =>
      cases min with
      | none =>
          cases pure_eq_ok_iff.mp hread
          exact .unbounded (.inr (optional_eq_none_iff.mp hmin))
      | some min =>
          cases pure_eq_ok_iff.mp hread
          obtain ⟨upper, hupper, hreadsMax⟩ := optional_eq_some_iff.mp hmax
          obtain ⟨lower, hlower, hreadsMin⟩ := optional_eq_some_iff.mp hmin
          exact .bounds hupper hlower hreadsMax hreadsMin

/-! ## Outputs -/

/-- The window fits the padded line, and this is how often. -/
structure Slides (extent : UInt32) (kernel padBegin padEnd stride : Int32) (count : UInt32) :
    Prop where
  fits : kernel.toInt ≤ paddedLength extent padBegin padEnd
  count : (count.toNat : Int) =
    (paddedLength extent padBegin padEnd - kernel.toInt) / stride.toInt + 1

/-- The output has a row and a column for every place of the window on the image. -/
structure Window.Maps (window : Window) (image output : Axes) : Prop where
  images : output.n = image.n
  rows : Slides image.h window.kernel.height window.pads.top window.pads.bottom
    window.stride.height output.h
  columns : Slides image.w window.kernel.width window.pads.left window.pads.right
    window.stride.width output.w

theorem slides_of_windowCount {extent count : UInt32} {kernel padBegin padEnd stride : Int32}
    (hcount : windowCount extent kernel padBegin padEnd stride = some count) :
    Slides extent kernel padBegin padEnd stride count := by
  obtain ⟨-, -, hfits, hplaces⟩ := windowCount_eq_some_iff.mp hcount
  exact ⟨hfits, hplaces.symm⟩

theorem Window.maps_of_outputAxes {window : Window} {image output : Axes} {channels : UInt32}
    (haxes : window.outputAxes operator image channels = .ok output) :
    window.Maps image output ∧ output.c = channels := by
  simp only [outputAxes] at haxes
  split at haxes
  · rename_i rows columns hrows hcolumns
    split at haxes
    · cases haxes
      exact ⟨⟨rfl, slides_of_windowCount hrows, slides_of_windowCount hcolumns⟩, rfl⟩
    · cases haxes
  · cases haxes

/-! ## Operations -/

/-- The operation takes the integers of this window and activation, some of its own between them,
and has the output that the window makes of its image. -/
structure Graph.Applies (graph : Graph) (operation : Operation) (window : Window)
    (activation : Activation) (own : List Int32) (channels : Axes → Option UInt32) : Prop where
  ints : graph.ints operation =
    [window.pads.left, window.pads.right, window.pads.top, window.pads.bottom,
      window.stride.width, window.stride.height] ++ own ++ [activation.number]
  maps : ∃ image output before after, graph.operandAt? operation 0 = some image ∧
    image.type.dims = before.toList ∧ graph.output? operation = some output ∧
    output.type.dims = after.toList ∧ window.Maps before after ∧ channels before = some after.c

/-- The operation applies the window and the activation that the operator states. -/
def FlatOp.AppliedBy (operator : FlatOp) (graph : Graph) (operation : Operation)
    (own : Window → List Int32) (channels : Axes → Option UInt32) : Prop :=
  ∃ window activation, operator.StatesWindow window ∧ window.Proper ∧
    operator.StatesActivation activation ∧
    graph.Applies operation window activation (own window) channels

variable {options : LoweringOptions} {graph before : Graph} {operation : Operation}

/-- A layer whose output is what its window makes of its image keeps both in the graph. -/
theorem Graph.Keeps.maps {layer : Layer} {source : Tensor} {input : Feed} {window : Window}
    {channels : UInt32} {code : OperandCode} {scale : Single} {zeroPoint : Int32}
    (hkeeps : graph.Keeps operation before layer) (hfeed : before.feed source = .ok input)
    (hinput : layer.input = input.id)
    (houtput : layer.output = do
      let axes ← window.outputAxes operator input.axes channels
      let type ← operator.outputType options code axes.toList scale zeroPoint
      return (← operator.outputName, type)) :
    ∃ image output after, graph.operandAt? operation 0 = some image ∧
      image.type.dims = input.axes.toList ∧ graph.output? operation = some output ∧
      output.type.dims = after.toList ∧ window.Maps input.axes after ∧ after.c = channels := by
  obtain ⟨image, himage, hdims⟩ := hkeeps.image hfeed hinput
  obtain ⟨name, type, hwritten, hkept⟩ := hkeeps.output
  simp only [houtput, bind_eq_ok_iff, pure_eq_ok_iff, Prod.mk.injEq] at hwritten
  obtain ⟨axes, hmapped, _, htype, _, -, -, rfl⟩ := hwritten
  obtain ⟨hmaps, hchannels⟩ := Window.maps_of_outputAxes hmapped
  exact ⟨image, _, axes, himage, hdims, hkept, (FlatOp.outputType_eq_ok htype).2.1, hmaps,
    hchannels⟩

theorem Convolution.readings {convolution : Convolution}
    (hread : ofOperator options before operator = .ok convolution) :
    Window.ofOperator operator none = .ok convolution.window ∧
      operator.activation = .ok convolution.activation := by
  simp only [ofOperator, bind_eq_ok_iff, pure_eq_ok_iff] at hread
  obtain ⟨_, -, _, -, _, -, _, -, _, -, window, hwindow, activation, hactivation, _, -, _, -,
    rfl⟩ := hread
  exact ⟨hwindow, hactivation⟩

theorem Bias.dims?_of_ofTensor {tensor filter : Tensor} {bias : Bias}
    (hread : ofTensor options tensor filter = .ok bias) :
    tensor.dims? = some bias.param.type.dims := by
  simp only [ofTensor, bind_eq_ok_iff, Tensor.requireDims_eq_ok_iff] at hread
  obtain ⟨dims, hdims, values, -, hread⟩ := hread
  cases hchannels : dims.head? with
  | none =>
      rw [hchannels] at hread
      cases hread
  | some channels =>
      simp only [hchannels, bind_eq_ok_iff, pure_eq_ok_iff] at hread
      obtain ⟨type, htype, rfl⟩ := hread
      rw [hdims, (dims_of_type htype).1]

/-- Unless it pools globally, an operator pools by the window that it states. -/
theorem Pooling.readings {pooling : Pooling} (hread : ofOperator before operator = .ok pooling)
    (hlocal : ¬operator.PoolsGlobally) :
    Window.ofOperator operator none = .ok pooling.window ∧
      operator.activation = .ok pooling.activation := by
  simp only [ofOperator, isGlobal, bind_eq_ok_iff, pure_eq_ok_iff] at hread
  obtain ⟨_, -, _, -, isGlobal, ⟨number, hnumber, rfl⟩, window, hwindow, activation, hactivation,
    rfl⟩ := hread
  have hfalse : (number.getD 0 != 0) = false := by
    cases number with
    | none => rfl
    | some number =>
        rw [bne_eq_false_iff_eq]
        by_contra hnonzero
        exact hlocal ⟨number, FlatOp.int?_eq_some_iff.mp hnumber, hnonzero⟩
  rw [hfalse] at hwindow ⊢
  exact ⟨hwindow, hactivation⟩

theorem FlatOp.Becomes.applied_convolution (hbecomes : operator.Becomes options graph operation)
    (hconvolves : operator.Convolves) (hints : graph.IntsAreScalars) :
    ∃ bias, operator.inputs[2]? = some bias ∧
      operator.AppliedBy graph operation
        (fun _ => if operation.code = .depthwiseConv2d then [1] else [])
        fun _ => bias.dims?.bind List.head? := by
  obtain ⟨before, convolution, hread, hkeeps⟩ := hbecomes.convolution hconvolves
  obtain ⟨source, _, bias, _, -, -, hbiasTensor, hfeed, -, -, hbias, -⟩ :=
    Convolution.ofOperator_eq_ok hread
  obtain ⟨hwindow, hactivation⟩ := Convolution.readings hread
  obtain ⟨hstates, hproper⟩ := Window.ofOperator_eq_ok hwindow
  obtain ⟨image, output, after, himage, hdims, hwritten, hafter, hmaps, hchannels⟩ :=
    hkeeps.maps hfeed rfl rfl
  have hcode : (if operation.code = .depthwiseConv2d then [1] else []) =
      if convolution.depthwise then [(1 : Int32)] else [] := by
    rw [hkeeps.operation, Layer.operation, Convolution.layer]
    cases convolution.depthwise <;> rfl
  refine ⟨bias, hbiasTensor, convolution.window, convolution.activation, hstates, hproper,
    FlatOp.states_of_activation hactivation, ?_, image, output, _, after, himage, hdims, hwritten,
    hafter, hmaps, ?_⟩
  · rw [hcode]
    exact Convolution.ints_of_keeps hread hkeeps hints
  · rw [hchannels, Bias.dims?_of_ofTensor hbias]
    exact Bias.channels_of_ofTensor hbias

theorem FlatOp.Becomes.applied_pooling (hbecomes : operator.Becomes options graph operation)
    (hpools : operator.type = "Int8AveragePool") (hlocal : ¬operator.PoolsGlobally) :
    operator.AppliedBy graph operation
      (fun window => [window.kernel.width, window.kernel.height]) fun image => some image.c := by
  obtain ⟨before, pooling, hread, hkeeps⟩ := hbecomes.pooling hpools
  obtain ⟨source, -, hfeed⟩ := Pooling.input_of_ofOperator hread
  obtain ⟨hwindow, hactivation⟩ := Pooling.readings hread hlocal
  obtain ⟨hstates, hproper⟩ := Window.ofOperator_eq_ok hwindow
  obtain ⟨image, output, after, himage, hdims, hwritten, hafter, hmaps, hchannels⟩ :=
    hkeeps.maps hfeed rfl rfl
  exact ⟨pooling.window, pooling.activation, hstates, hproper,
    FlatOp.states_of_activation hactivation, Pooling.ints_of_keeps hread hkeeps, image, output, _,
    after, himage, hdims, hwritten, hafter, hmaps, congrArg some hchannels.symm⟩

/-! ## Nets -/

namespace FlatNet

variable {net : FlatNet}

/-- Every convolution, and every pooling that is not global, applies the window that its operator
states; a convolution has the channels of its bias, and a pooling those of its image. -/
theorem lower_windowed (hlower : net.lower options = .ok graph) :
    List.Forall₂ (fun operator operation =>
        (operator.Convolves → ∃ bias, operator.inputs[2]? = some bias ∧
          operator.AppliedBy graph operation
            (fun _ => if operation.code = .depthwiseConv2d then [1] else [])
            fun _ => bias.dims?.bind List.head?) ∧
        (operator.type = "Int8AveragePool" → ¬operator.PoolsGlobally →
          operator.AppliedBy graph operation
            (fun window => [window.kernel.width, window.kernel.height])
            fun image => some image.c))
      (net.operators.filter fun operator => ¬operator.IsSkipped options) graph.operations := by
  have hints := intsAreScalars_of_lower hlower
  exact (becomes_of_lower hlower).imp fun _ _ hbecomes =>
    ⟨fun hconvolves => hbecomes.applied_convolution hconvolves hints,
      fun hpools hlocal => hbecomes.applied_pooling hpools hlocal⟩

/-- A convolution that is padded on the left and below. -/
def shiftedPlanes : FlatOp where
  type := "Int8Conv"
  inputs := [.named "image",
    { name := "filter"
      shape := some (.numbers (.int32 #[2, 1, 2, 1]))
      values := some (.numbers (.float32 #[.one, .zero, .zero, .one])) },
    { name := "bias"
      shape := some (.numbers (.int32 #[2]))
      values := some (.numbers (.float32 #[.zero, .one])) }]
  outputs := ["features"]
  arguments := .ofList [("kernels", .numbers (.int32 #[1, 2])), ("kernel", .numbers (.int32 #[7])),
    ("pads", .numbers (.int32 #[0, 1, 2, 0])), ("bound_max", .numbers (.float32 #[.one]))]

/-- A pooling that moves on by two rows but by one column. -/
def pairedRows : FlatOp where
  type := "Int8AveragePool"
  inputs := [.named "features"]
  outputs := ["pooled"]
  arguments := .ofList [("kernel", .numbers (.int32 #[2])), ("strides", .numbers (.int32 #[2, 1])),
    ("global_pooling", .numbers (.int32 #[0]))]

theorem lower_windowed_pairedRows :
    ∃ graph conv pool,
      FlatNet.lower { inputSize := [2, 3, 1] } { operators := [shiftedPlanes, pairedRows] } =
        .ok graph ∧
      graph.operations = [conv, pool] ∧
      graph.ints conv = [1, 0, 0, 2, 1, 1, 0] ∧ graph.ints pool = [0, 0, 0, 0, 1, 2, 2, 2, 0] ∧
      (∃ bias, shiftedPlanes.inputs[2]? = some bias ∧
        shiftedPlanes.AppliedBy graph conv
          (fun _ => if conv.code = .depthwiseConv2d then [1] else [])
          fun _ => bias.dims?.bind List.head?) ∧
      pairedRows.AppliedBy graph pool
        (fun window => [window.kernel.width, window.kernel.height]) fun image => some image.c := by
  have hread : (fun graph : Graph => graph.operations.map graph.ints) <$>
      FlatNet.lower { inputSize := [2, 3, 1] } { operators := [shiftedPlanes, pairedRows] } =
        .ok [[1, 0, 0, 2, 1, 1, 0], [0, 0, 0, 0, 1, 2, 2, 2, 0]] := by
    decide +kernel
  obtain ⟨graph, hlower, hints⟩ := map_eq_ok_iff.mp hread
  have hwindows := lower_windowed hlower
  obtain ⟨conv, pool, hoperations⟩ : ∃ conv pool, graph.operations = [conv, pool] := by
    have hlength := congrArg List.length hints
    rw [List.length_map] at hlength
    exact List.length_eq_two.mp hlength
  rw [hoperations] at hints hwindows
  obtain ⟨hconv, hpool⟩ := List.forall₂_cons.mp hwindows
  obtain ⟨hpool, -⟩ := List.forall₂_cons.mp hpool
  simp only [List.map_cons, List.map_nil, List.cons.injEq, and_true] at hints
  refine ⟨graph, conv, pool, hlower, hoperations, hints.1, hints.2, hconv.1 (.inl rfl),
    hpool.2 rfl ?_⟩
  rintro ⟨number, hnumber, hnonzero⟩
  cases hnumber
  exact hnonzero rfl

end FlatNet

end NetLowering
