import NetLowering.Proofs.Lowering.Layers
import NetLowering.Proofs.Lowering.SingleAssignment
import NetLowering.Proofs.Lowering.Typing

/-!
# Which graphs have no empty activations

The input of a graph has no dimension that is 0, and a window that fits nowhere is
refused.  The channels of a convolution are not looked at: they come from its bias as
they are.  Nor is a constant that is read as an image.  `FlatNet.lower_solid_iff` says
that an empty activation can come from nowhere else.
-/

namespace NetLowering

open Checked

namespace Graph

variable {graph next : Graph}

/-- The operand is there, and no dimension of it is 0. -/
def Solid (graph : Graph) (id : OperandId) : Prop :=
  ∃ operand, graph.operand? id = some operand ∧ operand.type.Solid

theorem solid_iff {id : OperandId} {operand : Operand}
    (hoperand : graph.operand? id = some operand) :
    graph.Solid id ↔ operand.type.Solid := by
  simp [Solid, hoperand]

theorem Solid.mono {id : OperandId} (hsolid : graph.Solid id) (hextends : graph.Extends next) :
    next.Solid id := by
  obtain ⟨operand, hoperand, htype⟩ := hsolid
  exact ⟨operand, hextends.operand? hoperand, htype⟩

/-- What the output has from the operand that the operation reads as an image is not 0. -/
def ImageLasts (graph : Graph) (operation : Operation) : Prop :=
  ∃ image, graph.operandAt? operation 0 = some image ∧
    ∀ dim ∈ operation.code.kept image.type.dims, 0 < dim

/-- If the operation is a convolution, its bias has at least one channel. -/
def BiasLasts (graph : Graph) (operation : Operation) : Prop :=
  operation.code.convolves = true → ∃ bias, graph.operandAt? operation 2 = some bias ∧
    ∀ dim ∈ bias.type.dims.head?, 0 < dim

/-- What the operation reads as an image is a constant. -/
def ReadsConstant (graph : Graph) (operation : Operation) : Prop :=
  ∃ image ∈ operation.inputs.head?, image ∈ graph.values.keys

theorem imageLasts_of_solid {operation : Operation} {image : OperandId}
    (himage : operation.inputs.head? = some image) (hsolid : graph.Solid image) :
    graph.ImageLasts operation := by
  obtain ⟨operand, hoperand, htype⟩ := hsolid
  refine ⟨operand, ?_, fun dim hdim => htype dim (OperationCode.mem_of_mem_kept hdim)⟩
  rw [operandAt?, ← List.head?_eq_getElem?, himage, Option.bind_some, hoperand]

end Graph

/-! ## Inputs -/

namespace LoweringOptions

variable {options : LoweringOptions}

theorem positive_of_inputDims {dims : List UInt32} (hdims : options.inputDims = .ok dims) :
    ∀ dim ∈ dims, 0 < dim := by
  rw [inputDims] at hdims
  split at hdims
  · cases hdims
  · rename_i hzero
    have hpositive : ∀ dim ∈ options.inputSize, 0 < dim := by
      intro dim hdim
      rw [UInt32.pos_iff_ne_zero]
      rintro rfl
      exact hzero hdim
    split at hdims
    · rename_i hsize
      cases hdims
      rw [List.forall_mem_cons, ← hsize]
      exact ⟨by decide, hpositive⟩
    · rename_i hsize
      cases hdims
      rw [← hsize]
      exact hpositive
    · cases hdims

theorem dims_of_inputType {first : FlatOp} {type : OperandType}
    (htype : options.inputType first = .ok type) : options.inputDims = .ok type.dims := by
  obtain ⟨dims, hdims, htype⟩ := bind_eq_ok_iff.mp htype
  split at htype
  · obtain ⟨_, -, htype⟩ := bind_eq_ok_iff.mp htype
    obtain ⟨_, -, htype⟩ := bind_eq_ok_iff.mp htype
    split at htype
    all_goals
      simp only [bind_eq_ok_iff, pure_eq_ok_iff] at htype
      obtain ⟨_, -, htype⟩ := htype
    · exact htype ▸ hdims
    · obtain ⟨_, -, rfl⟩ := htype
      exact hdims
  · cases htype
    exact hdims

end LoweringOptions

/-! ## Operations -/

variable {options : LoweringOptions} {net : FlatNet} {graph : Graph}

theorem Graph.Stems.solid_iff {operation : Operation} (hstems : graph.Stems options net operation) :
    ∃ image output, operation.inputs.head? = some image ∧ operation.outputs = [output] ∧
      (graph.Solid output ↔ graph.ImageLasts operation ∧ graph.BiasLasts operation) := by
  obtain ⟨operator, -, before, layer, after, hmakes, hadded, hextends, rfl⟩ := hstems
  obtain ⟨image, himage, htakesAfter⟩ := hmakes.image
  obtain ⟨_, name, type, -, houtput, -⟩ := addLayer_eq_ok_iff.mp hadded
  have hwritten := hextends.operand? (operand?_output_of_addLayer hadded houtput)
  have hread := ((extends_addLayer hadded).trans hextends).operand? himage
  have hbias := operandAt?_param_of_addLayer hadded hextends 1
  refine ⟨_, _, rfl, rfl, ?_⟩
  rw [Graph.solid_iff hwritten, (htakesAfter name type houtput).solid]
  refine and_congr ?_ (forall_congr' fun _ => ?_)
  · simp [ImageLasts, operandAt?, Layer.operation, hread]
  · simp [hbias, Param.operand]

namespace FlatNet

theorem solid_input_of_lower (hlower : net.lower options = .ok graph) : graph.Solid (.own 0) := by
  obtain ⟨grown, _, _, hsolid, -, rfl⟩ :=
    lower_preserves_from_input (fun state => state.Solid (.own 0)) hlower
      (fun _ _ _ htype => ⟨_, rfl,
        LoweringOptions.positive_of_inputDims (LoweringOptions.dims_of_inputType htype)⟩)
      fun _ _ _ _ hbefore hgrows => hbefore.mono hgrows.extends
  exact hsolid.mono (grown.extends_withEnds _ _)

theorem layered_of_lower (hlower : net.lower options = .ok graph) :
    graph.Layered ∧ graph.inputs = [.own 0] := by
  obtain ⟨grown, _, _, hlayered, -, rfl⟩ :=
    lower_preserves Graph.Layered hlower layered_startGraph
      fun _ _ _ _ hbefore hgrows => hbefore.grows hgrows
  exact ⟨⟨hlayered.sources, hlayered.named, hlayered.operations, hlayered.ascending⟩, rfl⟩

/-- An operand of a lowered graph is a constant, or solid if all operations before it are. -/
theorem solid_results_of_lasting (hlower : net.lower options = .ok graph)
    (hlasts : ∀ operation ∈ graph.operations,
      (graph.ReadsConstant operation → graph.ImageLasts operation) ∧ graph.BiasLasts operation) :
    ∀ id ∈ graph.results, graph.Solid id := by
  obtain ⟨hlayered, -⟩ := layered_of_lower hlower
  intro id
  -- An operation reads what has a smaller index than its output.
  induction hindex : id.index using Nat.strong_induction_on generalizing id with
  | _ index ih =>
      intro hresult
      obtain ⟨operation, hoperation, hid⟩ := List.mem_flatMap.mp hresult
      obtain ⟨image, output, hinputs, houtputs, hsolid⟩ :=
        (stems_of_lower hlower operation hoperation).solid_iff
      rw [houtputs, List.mem_singleton] at hid
      obtain ⟨hconstant, hbias⟩ := hlasts operation hoperation
      rw [hid, hsolid]
      refine ⟨?_, hbias⟩
      obtain ⟨written, hwritten, hreads⟩ := hlayered.operations operation hoperation
      rw [houtputs, List.singleton_inj] at hwritten
      obtain ⟨hids, hlt⟩ := hreads image (List.mem_of_mem_head? hinputs)
      rw [← hlayered.sources.mem_iff, List.mem_cons, List.mem_append] at hids
      rcases hids with rfl | hbound | hearlier
      · exact Graph.imageLasts_of_solid hinputs (solid_input_of_lower hlower)
      · exact hconstant ⟨image, hinputs, hbound⟩
      · rw [← hwritten, ← hid, hindex] at hlt
        exact Graph.imageLasts_of_solid hinputs (ih image.index hlt image rfl hearlier)

/-- Nothing in a lowered graph is empty just when no constant that is read as an image leaves an
empty output and no bias is empty. -/
theorem lower_solid_iff (hlower : net.lower options = .ok graph) :
    (∀ id ∈ graph.inputs ++ graph.results, graph.Solid id) ↔
      ∀ operation ∈ graph.operations,
        (graph.ReadsConstant operation → graph.ImageLasts operation) ∧
          graph.BiasLasts operation := by
  constructor
  · intro hall operation hoperation
    obtain ⟨-, output, -, houtputs, hsolid⟩ :=
      (stems_of_lower hlower operation hoperation).solid_iff
    have hresult : output ∈ graph.results :=
      List.mem_flatMap.mpr ⟨operation, hoperation, houtputs ▸ List.mem_singleton_self output⟩
    obtain ⟨himage, hbias⟩ := hsolid.mp (hall output (List.mem_append_right _ hresult))
    exact ⟨fun _ => himage, hbias⟩
  · intro hlasts id hid
    rcases List.mem_append.mp hid with hinput | hresult
    · rw [(layered_of_lower hlower).2, List.mem_singleton] at hinput
      exact hinput ▸ solid_input_of_lower hlower
    · exact solid_results_of_lasting hlower hlasts id hresult

theorem lower_solid_iff_threeLayers :
    ∃ graph, threeLayers.lower { inputSize := [3, 2, 1], softmax := .emit } = .ok graph ∧
      graph.operations.length = 3 ∧ (∀ id ∈ graph.inputs ++ graph.results, graph.Solid id) ∧
      ∀ operation ∈ graph.operations, graph.BiasLasts operation := by
  have hread : (fun graph : Graph => (graph.operations.length,
        (graph.inputs ++ graph.results).all fun id =>
          (graph.operand? id).any fun operand => operand.type.dims.all (0 < ·))) <$>
      threeLayers.lower { inputSize := [3, 2, 1], softmax := .emit } = .ok (3, true) := by
    decide +kernel
  obtain ⟨graph, hlower, hgraph⟩ := map_eq_ok_iff.mp hread
  obtain ⟨hlength, hdims⟩ := Prod.mk.inj hgraph
  have hsolid : ∀ id ∈ graph.inputs ++ graph.results, graph.Solid id := by
    simp only [List.all_eq_true, Option.any_eq_true, decide_eq_true_eq] at hdims
    exact hdims
  have hlasts := (lower_solid_iff hlower).mp hsolid
  exact ⟨graph, hlower, hlength, hsolid, fun operation hmem => (hlasts operation hmem).2⟩

/-- A convolution with nothing in its filter and its bias. -/
def noChannels : FlatNet :=
  oneConvolution (filterOf 0 (.float32 #[]) #[.one]) (biasOf 0 (.float32 #[]))

/-- Lowering succeeds all the same, with an output of no channels. -/
theorem lower_hollow :
    ∃ graph, noChannels.lower { inputSize := [1, 1, 1] } = .ok graph ∧
      ∃ id ∈ graph.results, ¬graph.Solid id := by
  have hread : (fun graph : Graph => (graph.results,
        (graph.operand? (.own 10)).map (·.type.dims))) <$>
      noChannels.lower { inputSize := [1, 1, 1] } = .ok ([.own 10], some [1, 1, 1, 0]) := by
    decide +kernel
  obtain ⟨graph, hlower, hgraph⟩ := map_eq_ok_iff.mp hread
  obtain ⟨hresults, hoperand⟩ := Prod.mk.inj hgraph
  obtain ⟨operand, hoperand, hdims⟩ := Option.map_eq_some_iff.mp hoperand
  refine ⟨graph, hlower, .own 10, by simp [hresults], ?_⟩
  rw [Graph.solid_iff hoperand, OperandType.Solid, hdims]
  simp

end FlatNet

end NetLowering
