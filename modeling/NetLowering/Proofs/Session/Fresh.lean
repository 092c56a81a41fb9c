import NetLowering.Proofs.Lowering.Ends
import NetLowering.Proofs.Session.Atomicity
import NetLowering.Proofs.Session.Lifecycle

/-!
# Computing on what has just been created

What has just been created holds no buffers, so a computation has to bring all of them: one
for the input of the graph and one for its output, each of a type and a size that its
operand takes.
-/

namespace NetLowering

/-! ## Fitting buffers, none left out -/

theorem fit_whole_iff {types : List OperandType} {buffers : List Buffer} :
    Fit types 0 buffers ∧ types.length ≤ buffers.length ↔
      List.Forall₂ OperandType.TakesValue types buffers := by
  rw [List.forall₂_iff_get]
  constructor
  · rintro ⟨hfit, hwhole⟩
    refine ⟨Nat.le_antisymm hwhole (length_le_of_fit hfit), fun place htype hbuffer => ?_⟩
    obtain ⟨type, hfound, htakes⟩ := hfit place _ (List.getElem?_eq_getElem hbuffer)
    rw [Nat.zero_add, List.getElem?_eq_getElem htype] at hfound
    cases hfound
    exact htakes
  · rintro ⟨hlength, htakes⟩
    refine ⟨fun place buffer hbuffer => ?_, Nat.le_of_eq hlength⟩
    obtain ⟨hplace, rfl⟩ := List.getElem?_eq_some_iff.mp hbuffer
    have htype : place < types.length := hlength ▸ hplace
    exact ⟨types[place], by rw [Nat.zero_add, List.getElem?_eq_getElem htype],
      htakes place htype hplace⟩

namespace Session

/-! ## Blank executions -/

/-- Without earlier computations nothing may be left out. -/
theorem status_of_fresh_iff {execution : Execution} (hfresh : Recalls [] execution)
    (inputs outputs : List Buffer) :
    (outcome execution inputs outputs).status = .ok () ↔
      List.Forall₂ OperandType.TakesValue execution.inputTypes inputs ∧
        List.Forall₂ OperandType.TakesValue execution.outputTypes outputs := by
  have hwhole {types : List OperandType} {buffers : List Buffer}
      {Bound : Computation → Nat → Prop} :
      (∀ index, buffers.length ≤ index → index < types.length →
        ∃ other ∈ ([] : List Computation), Bound other index) ↔ types.length ≤ buffers.length := by
    constructor
    · intro hbound
      by_contra hshort
      obtain ⟨_, hnone, -⟩ := hbound buffers.length le_rfl (Nat.lt_of_not_le hshort)
      cases hnone
    · omega
  rw [status_eq_ok_iff hfresh ⟨inputs, outputs⟩, ← fit_whole_iff, ← fit_whole_iff, hwhole, hwhole]
  tauto

theorem status_of_twoEnds_iff {execution : Execution} {input output : OperandType}
    (hfresh : Recalls [] execution) (hinput : execution.inputTypes = [input])
    (houtput : execution.outputTypes = [output]) (inputs outputs : List Buffer) :
    (outcome execution inputs outputs).status = .ok () ↔
      ∃ given asked, inputs = [given] ∧ outputs = [asked] ∧
        input.TakesValue given ∧ output.TakesValue asked := by
  rw [status_of_fresh_iff hfresh, hinput, houtput]
  constructor
  · rintro ⟨hinputs, houtputs⟩
    obtain ⟨given, _, hgiven, hnone, rfl⟩ := List.forall₂_cons_left_iff.mp hinputs
    cases hnone
    obtain ⟨asked, _, hasked, hnone, rfl⟩ := List.forall₂_cons_left_iff.mp houtputs
    cases hnone
    exact ⟨given, asked, rfl, rfl, hgiven, hasked⟩
  · rintro ⟨given, asked, rfl, rfl, hgiven, hasked⟩
    exact ⟨.cons hgiven .nil, .cons hasked .nil⟩

end Session

/-- An execution of a graph has the types of its ends. -/
theorem Execution.Runs.types_of_hasEnds {execution : Execution} {graph : Graph}
    {input output : Operand} (hruns : execution.Runs graph) (hends : graph.HasEnds input output) :
    execution.inputTypes = [input.type] ∧ execution.outputTypes = [output.type] := by
  have htypes {ids : List OperandId} {types : List OperandType} {operand : Operand}
      (hrun : types.map some = ids.map graph.type?)
      (hend : ids.map graph.operand? = [some operand]) : types = [operand.type] := by
    obtain ⟨id, rfl, hoperand⟩ := List.map_eq_singleton_iff.mp hend
    obtain ⟨type, rfl, htype⟩ := List.map_eq_singleton_iff.mp hrun
    rw [Graph.type?, hoperand] at htype
    cases htype
    rfl
  exact ⟨htypes hruns.inputs hends.inputs, htypes hruns.outputs hends.outputs⟩

namespace Session

/-! ## Creations -/

/-- A computation on the state takes one buffer for the input and one for the output, each of which
fits its operand, and it fills the latter with zeros. -/
structure State.Computes (state : State) (graph : Graph) (input output : Operand) : Prop where
  held : state.graph? = some graph
  ends : graph.HasEnds input output
  status : ∀ inputs outputs, (compute state inputs outputs).1.status = .ok () ↔
    ∃ given asked, inputs = [given] ∧ outputs = [asked] ∧
      input.type.TakesValue given ∧ output.type.TakesValue asked
  zeros : ∀ given asked, input.type.TakesValue given → output.type.TakesValue asked →
    (compute state [given] [asked]).1.outputs = [.zeros asked.elemType output.type.elements]

variable {session : Session} {history : List Step}

/-- A session whose last step was a successful creation computes on what fits, and on nothing
else. -/
theorem computes_of_created
    (hcreated : session.report (session.after history) .create = .ok ()) :
    ∃ graph input output, session.net.lower session.options = .ok graph ∧
      output.type.code.isTensor = true ∧
      input.type.code = (if session.options.quantized then session.options.quantCode
        else .tensorFloat32) ∧
      (session.after (history ++ [.create])).Computes graph input output := by
  have hready := ready_create_iff.mpr hcreated
  obtain ⟨execution, hcompiled⟩ :=
    Option.isSome_iff_exists.mp ((session.compiled_iff_ready _).mpr hready)
  obtain ⟨graph, hgraph⟩ :=
    Option.isSome_iff_exists.mp ((session.together_after _).mpr (by rw [hcompiled]; rfl))
  obtain ⟨hlower, hruns⟩ := runs_of_held hgraph hcompiled
  obtain ⟨input, output, hends, hinput, houtput⟩ := FlatNet.ends_of_lower hlower
  obtain ⟨hinputTypes, houtputTypes⟩ := hruns.types_of_hasEnds hends
  obtain ⟨_, -, -, hholds⟩ := session.exists_holds
  obtain ⟨-, hindexed, hfresh⟩ := hholds _ execution hcompiled
  rw [sinceCreation_create] at hfresh
  have hstatus := status_of_twoEnds_iff hfresh hinputTypes houtputTypes
  have hcompute (inputs outputs : List Buffer) :
      (compute (session.after (history ++ [.create])) inputs outputs).1 =
        outcome execution inputs outputs := by
    obtain ⟨_, _, hresult⟩ := compute_eq hcompiled hfresh.slotted hindexed inputs outputs
    rw [hresult]
  refine ⟨graph, input, output, hlower, houtput, hinput, hgraph, hends, fun inputs outputs => ?_,
    fun given asked hgiven hasked => ?_⟩
  · rw [hcompute, hstatus]
  · rw [hcompute]
    have hok := (hstatus [given] [asked]).mpr ⟨given, asked, rfl, rfl, hgiven, hasked⟩
    rw [(outputs_of_outcome execution [given] [asked]).2 hok, List.map_singleton,
      (OperandType.takesValue_iff.mp hasked).2]

end Session

end NetLowering
