import NetLowering.Proofs.Lowering.Grouping

/-!
# Pooling the whole plane

A pooling that is global has a window as large as the plane of its image, whatever kernel
the operator states.  Only paddings leave such a window room to move, so that without any
it has one place, whatever the strides are.  The sides of a plane have 32 bits without a
sign, and those of a window have one: a plane with a side of 2 ^ 31 or more has no window of
its size, and a net in which it is to be pooled is refused (`FlatNet.lower_global`).
-/

namespace NetLowering

open Checked

/-! ## Windows as large as a plane -/

/-- A side of a plane that is positive with a sign is the same number without one. -/
theorem toInt_toInt32_of_pos {side : UInt32} (hpositive : 0 < side.toInt32) :
    side.toInt32.toInt = side.toNat ∧ side.toNat < 2 ^ 31 := by
  rw [Int32.lt_iff_toInt_lt, Int32.toInt_zero] at hpositive
  have hlt := side.toNat_lt
  have hint : side.toInt32.toInt =
      if 2 * side.toNat < 2 ^ 32 then (side.toNat : Int) else side.toNat - (2 ^ 32 : Nat) := by
    rw [Int32.toInt, UInt32.toBitVec_toInt32, BitVec.toInt_eq_toNat_cond, UInt32.toNat_toBitVec]
  omega

/-- The window is as large as the plane of the image, and the output has a row and a column for
each of its places, of which the paddings make more than one. -/
structure Window.Spans (window : Window) (image output : Axes) : Prop where
  height : window.kernel.height.toInt = image.h.toNat
  width : window.kernel.width.toInt = image.w.toNat
  images : output.n = image.n
  rows : (output.h.toNat : Int) =
    (window.pads.top.toInt + window.pads.bottom.toInt) / window.stride.height.toInt + 1
  columns : (output.w.toNat : Int) =
    (window.pads.left.toInt + window.pads.right.toInt) / window.stride.width.toInt + 1
  channels : output.c = image.c

namespace Window

variable {operator : FlatOp} {window : Window} {image output : Axes} {channels : UInt32}

theorem spans_of_maps (hmaps : window.Maps image output) (hchannels : output.c = image.c)
    (hheight : window.kernel.height.toInt = image.h.toNat)
    (hwidth : window.kernel.width.toInt = image.w.toNat) : window.Spans image output where
  height := hheight
  width := hwidth
  images := hmaps.images
  rows := by
    rw [hmaps.rows.count, hheight, paddedLength]
    congr 2
    omega
  columns := by
    rw [hmaps.columns.count, hwidth, paddedLength]
    congr 2
    omega
  channels := hchannels

/-- Without paddings there is one place for the window. -/
theorem Spans.eq_of_unpadded (hspans : window.Spans image output)
    (hpads : window.pads = ⟨0, 0, 0, 0⟩) : output = ⟨image.n, 1, 1, image.c⟩ := by
  obtain ⟨-, -, himages, hrows, hcolumns, hchannels⟩ := hspans
  rw [hpads] at hrows hcolumns
  have hone {count : UInt32} {stride : Int32}
      (hcount : (count.toNat : Int) = (Int32.toInt 0 + Int32.toInt 0) / stride.toInt + 1) :
      count = 1 := by
    rw [Int32.toInt_zero, Int.add_zero, Int.zero_ediv] at hcount
    rw [← UInt32.toNat_inj, UInt32.toNat_one]
    omega
  obtain ⟨n, h, w, c⟩ := output
  simp only at himages hrows hcolumns hchannels
  rw [himages, hone hrows, hone hcolumns, hchannels]

theorem kernel_pos_of_outputAxes (haxes : window.outputAxes operator image channels = .ok output) :
    0 < window.kernel.height ∧ 0 < window.kernel.width := by
  simp only [outputAxes] at haxes
  split at haxes
  · rename_i hrows hcolumns
    exact ⟨(windowCount_eq_some_iff.mp hrows).1, (windowCount_eq_some_iff.mp hcolumns).1⟩
  · cases haxes

end Window

/-! ## Global poolings -/

namespace Pooling

variable {options : LoweringOptions} {operator : FlatOp} {before : Graph} {pooling : Pooling}

/-- A pooling that is global takes everything but its kernel from the arguments. -/
theorem readings_of_global (hread : ofOperator before operator = .ok pooling)
    (hglobal : operator.PoolsGlobally) :
    ∃ stated, Window.ofOperator operator (some (plane pooling.input.axes)) = .ok stated ∧
      pooling.window = { stated with kernel := plane pooling.input.axes } ∧
      operator.activation = .ok pooling.activation := by
  obtain ⟨number, hstated, hnonzero⟩ := hglobal
  have hwhole : isGlobal operator = .ok true := by
    rw [isGlobal, FlatOp.int?_eq_some_iff.mpr hstated, ok_bind]
    exact congrArg Except.ok (bne_iff_ne.mpr hnonzero)
  simp only [ofOperator, hwhole, bind_eq_ok_iff, pure_eq_ok_iff, Except.ok.injEq] at hread
  obtain ⟨_, -, _, -, _, rfl, stated, hwindow, activation, hactivation, rfl⟩ := hread
  exact ⟨stated, hwindow, rfl, hactivation⟩

/-- Where there is an output, the sides of the plane are those of the window. -/
theorem sides_of_output {name : String} {type : OperandType}
    (hkernel : pooling.window.kernel = plane pooling.input.axes)
    (houtput : (pooling.layer options operator).output = .ok (name, type)) :
    (pooling.window.kernel.height.toInt = pooling.input.axes.h.toNat ∧
      pooling.input.axes.h.toNat < 2 ^ 31) ∧
    pooling.window.kernel.width.toInt = pooling.input.axes.w.toNat ∧
      pooling.input.axes.w.toNat < 2 ^ 31 := by
  obtain ⟨axes, haxes, -⟩ := bind_eq_ok_iff.mp houtput
  obtain ⟨hheight, hwidth⟩ := Window.kernel_pos_of_outputAxes haxes
  rw [hkernel] at hheight hwidth ⊢
  exact ⟨toInt_toInt32_of_pos hheight, toInt_toInt32_of_pos hwidth⟩

end Pooling

/-- The operation takes the paddings, the strides and the activation that the operator states, and
between them the sides of its image. -/
def FlatOp.PooledWhole (operator : FlatOp) (graph : Graph) (operation : Operation) : Prop :=
  ∃ (window : Window) (activation : Activation) (image output : Operand) (before after : Axes),
    operator.StatesPads window.pads ∧
    operator.StatesExtent "strides" "stride" (some ⟨1, 1⟩) window.stride ∧
    operator.StatesActivation activation ∧
    graph.ints operation =
      [window.pads.left, window.pads.right, window.pads.top, window.pads.bottom,
        window.stride.width, window.stride.height, window.kernel.width, window.kernel.height,
        activation.number] ∧
    graph.operandAt? operation 0 = some image ∧ image.type.dims = before.toList ∧
    graph.output? operation = some output ∧ output.type.dims = after.toList ∧
    window.Spans before after ∧
    (window.pads = ⟨0, 0, 0, 0⟩ → after = ⟨before.n, 1, 1, before.c⟩)

namespace FlatOp

variable {options : LoweringOptions} {operator : FlatOp} {before graph : Graph}
  {operation : Operation}

theorem Becomes.pooledWhole (hbecomes : operator.Becomes options graph operation)
    (htype : operator.type = "Int8AveragePool") (hglobal : operator.PoolsGlobally) :
    operator.PooledWhole graph operation := by
  obtain ⟨before, pooling, hread, hkeeps⟩ := hbecomes.pooling htype
  obtain ⟨source, -, hfeed⟩ := Pooling.input_of_ofOperator hread
  obtain ⟨stated, hstated, hwindow, hactivation⟩ := Pooling.readings_of_global hread hglobal
  obtain ⟨-, hstride, hpads, -⟩ := Window.stated_of_ofOperator hstated
  obtain ⟨image, output, after, himage, hdims, hwritten, hafter, hmaps, hchannels⟩ :=
    hkeeps.maps hfeed rfl rfl
  obtain ⟨name, type, houtput, -⟩ := hkeeps.output
  obtain ⟨⟨hheight, -⟩, hwidth, -⟩ :=
    Pooling.sides_of_output (congrArg Window.kernel hwindow) houtput
  have hspans := Window.spans_of_maps hmaps hchannels hheight hwidth
  refine ⟨pooling.window, pooling.activation, image, output, _, after, ?_, ?_,
    states_of_activation hactivation, Pooling.ints_of_keeps hread hkeeps, himage, hdims, hwritten,
    hafter, hspans, hspans.eq_of_unpadded⟩
  · rw [hwindow]
    exact hpads
  · rw [hwindow]
    exact hstride

/-- A plane that is pooled as a whole has sides below 2 ^ 31. -/
theorem sides_of_lower {after : Graph} {source : Tensor} {image : Feed}
    (hlower : operator.lower options before = .ok after)
    (htype : operator.type = "Int8AveragePool") (hglobal : operator.PoolsGlobally)
    (hsource : operator.inputs[0]? = some source) (hfeed : before.feed source = .ok image) :
    image.axes.h.toNat < 2 ^ 31 ∧ image.axes.w.toNat < 2 ^ 31 := by
  obtain ⟨pooling, hread, hadded⟩ := (grows_of_lower hlower).pooling_of_type htype
  obtain ⟨found, hfound, hfed⟩ := Pooling.input_of_ofOperator hread
  cases (input_eq_ok_iff.mpr hsource).symm.trans hfound
  cases hfeed.symm.trans hfed
  obtain ⟨stated, -, hwindow, -⟩ := Pooling.readings_of_global hread hglobal
  obtain ⟨_, name, type, -, houtput, -⟩ := Graph.addLayer_eq_ok_iff.mp hadded
  obtain ⟨⟨-, hheight⟩, -, hwidth⟩ :=
    Pooling.sides_of_output (congrArg Window.kernel hwindow) houtput
  exact ⟨hheight, hwidth⟩

end FlatOp

/-! ## Nets -/

namespace FlatNet

/-- In a net that is lowered, poolings that are global have a window for the whole plane of their
image.  A net with one whose plane has a side of 2 ^ 31 or more is refused. -/
theorem lower_global (options : LoweringOptions) (net : FlatNet) :
    (∀ graph, net.lower options = .ok graph →
      List.Forall₂ (fun operator operation =>
          operator.type = "Int8AveragePool" → operator.PoolsGlobally →
            operator.PooledWhole graph operation)
        (net.operators.filter fun operator => ¬operator.IsSkipped options) graph.operations) ∧
    ∀ operator before source image, net.Turn options operator before →
      operator.type = "Int8AveragePool" → operator.PoolsGlobally →
      operator.inputs[0]? = some source → before.feed source = .ok image →
      2 ^ 31 ≤ image.axes.h.toNat ∨ 2 ^ 31 ≤ image.axes.w.toNat →
      ∃ error, operator.lower options before = .error error ∧
        net.lower options = .error error := by
  constructor
  · intro graph hlower
    exact (becomes_of_lower hlower).imp fun _ _ => FlatOp.Becomes.pooledWhole
  · intro operator before source image hturn htype hglobal hsource hfeed hlarge
    cases hlower : operator.lower options before with
    | error error => exact ⟨error, rfl, hturn.lower_eq_error hlower⟩
    | ok after =>
        obtain ⟨hheight, hwidth⟩ := FlatOp.sides_of_lower hlower htype hglobal hsource hfeed
        omega

/-- A pooling of the whole plane, whose other arguments are these. -/
def pooledPlane (arguments : List (String × Value)) : FlatOp where
  type := "Int8AveragePool"
  inputs := [.named "image"]
  outputs := ["pooled"]
  arguments := .ofList (("global_pooling", .numbers (.int32 #[1])) :: arguments)

/-- A window with a room of four rows, and planes too high for any window. -/
theorem lower_global_pooledPlane :
    (∃ graph operation,
      FlatNet.lower { inputSize := [3, 5, 2] } { operators := [pooledPlane
        [("kernel", .numbers (.int32 #[2])), ("pads", .numbers (.int32 #[3, 0, 1, 0])),
          ("stride", .numbers (.int32 #[2]))]] } = .ok graph ∧
      graph.operations = [operation] ∧ graph.ints operation = [0, 0, 3, 1, 2, 2, 5, 3, 0] ∧
      (graph.output? operation).map (·.type.dims) = some [1, 3, 1, 2] ∧
      (pooledPlane [("kernel", .numbers (.int32 #[2])), ("pads", .numbers (.int32 #[3, 0, 1, 0])),
        ("stride", .numbers (.int32 #[2]))]).PooledWhole graph operation) ∧
    ∀ arguments ∈ [[], [("kernel", Value.numbers (.int32 #[1]))]],
      ∃ error, FlatNet.lower { inputSize := [2147483648, 1, 1] }
        { operators := [pooledPlane arguments] } = .error error := by
  constructor
  · have hread : (fun graph : Graph => graph.operations.map fun operation =>
          (graph.ints operation, (graph.output? operation).map (·.type.dims))) <$>
        FlatNet.lower { inputSize := [3, 5, 2] } { operators := [pooledPlane
          [("kernel", .numbers (.int32 #[2])), ("pads", .numbers (.int32 #[3, 0, 1, 0])),
            ("stride", .numbers (.int32 #[2]))]] } =
          .ok [([0, 0, 3, 1, 2, 2, 5, 3, 0], some [1, 3, 1, 2])] := by
      decide +kernel
    obtain ⟨graph, hlower, hoperations⟩ := map_eq_ok_iff.mp hread
    have hwhole := (lower_global _ _).1 graph hlower
    obtain ⟨operation, hoperations, hoperation⟩ := List.map_eq_singleton_iff.mp hoperations
    obtain ⟨hints, hdims⟩ := Prod.mk.inj hoperation
    rw [hoperations] at hwhole
    obtain ⟨hfirst, -⟩ := List.forall₂_cons.mp hwhole
    exact ⟨graph, operation, hlower, hoperations, hints, hdims, hfirst rfl ⟨1, rfl, by decide⟩⟩
  · have hread : (fun image : Feed => image.axes.h) <$>
        (startGraph "image" (.plain .tensorFloat32 [1, 2147483648, 1, 1])).feed (.named "image") =
          .ok 2147483648 := by
      rfl
    obtain ⟨image, hfeed, hheight⟩ := map_eq_ok_iff.mp hread
    intro arguments harguments
    have hturn : Turn { operators := [pooledPlane arguments] } { inputSize := [2147483648, 1, 1] }
        (pooledPlane arguments)
        (startGraph "image" (.plain .tensorFloat32 [1, 2147483648, 1, 1])) :=
      ⟨[], [], _, _, rfl, rfl, rfl, rfl⟩
    have hglobal : (pooledPlane arguments).PoolsGlobally := by
      simp only [List.mem_cons, List.not_mem_nil, or_false] at harguments
      obtain rfl | rfl := harguments <;> exact ⟨1, rfl, by decide⟩
    obtain ⟨error, -, hrefused⟩ := (lower_global _ _).2 _ _ _ image hturn rfl hglobal rfl hfeed
      (.inl (by rw [hheight]; decide))
    exact ⟨error, hrefused⟩

end FlatNet

end NetLowering
