import NetLowering.Proofs.Session.History

/-!
# Computing with what was left out

A computation ends like the same one on a freshly created model, unless its
buffers fit and the first slot that they leave out still holds what an earlier
computation put there.  It succeeds just when its buffers fit and all slots
that they leave out hold something.
-/

namespace NetLowering

/-- The buffers fit, but the first slot they leave out holds what an earlier computation bound. -/
def Reuses (execution : Execution) (earlier : List Computation) (computation : Computation) :
    Prop :=
  Fit execution.inputTypes 0 computation.inputs ∧
    Fit execution.outputTypes 0 computation.outputs ∧
    ((computation.inputs.length < execution.inputTypes.length ∧
        ∃ other ∈ earlier, other.BindsInput execution computation.inputs.length) ∨
      (computation.inputs.length = execution.inputTypes.length ∧
        computation.outputs.length < execution.outputTypes.length ∧
        ∃ other ∈ earlier, other.BindsOutput execution computation.outputs.length))

namespace Execution

variable {execution : Execution} {inputs outputs : List Buffer}

/-! ## What is missing -/

theorem missing?_eq_inputNotSet_iff {index : Nat} :
    execution.missing? = some (.inputNotSet index) ↔
      execution.inputs.findIdx? Option.isNone = some index := by
  rw [missing?]
  cases execution.inputs.findIdx? Option.isNone <;> simp

theorem missing?_of_complete (hinputs : execution.inputs.findIdx? Option.isNone = none) :
    execution.missing? = (execution.outputs.findIdx? Option.isNone).map .outputNotSet := by
  rw [missing?, hinputs]

section LeftOut

variable (hslotted : execution.Slotted)
include hslotted

theorem withInputs_complete_iff (hlength : inputs.length ≤ execution.inputTypes.length) :
    (execution.withInputs inputs).inputs.findIdx? Option.isNone = none ↔
      ∀ index, inputs.length ≤ index → index < execution.inputTypes.length →
        Filled execution.inputs index := by
  rw [← hslotted.inputs] at hlength ⊢
  exact overlay_complete_iff (fun _ => rfl) hlength

theorem withOutputs_complete_iff (hlength : outputs.length ≤ execution.outputTypes.length) :
    (execution.withOutputs outputs).outputs.findIdx? Option.isNone = none ↔
      ∀ index, outputs.length ≤ index → index < execution.outputTypes.length →
        Filled execution.outputs index := by
  rw [← hslotted.outputs] at hlength ⊢
  exact overlay_complete_iff (fun _ => rfl) hlength

theorem withInputs_first_iff (hlength : inputs.length < execution.inputTypes.length) :
    (execution.withInputs inputs).inputs.findIdx? Option.isNone = some inputs.length ↔
      ¬Filled execution.inputs inputs.length := by
  rw [← hslotted.inputs] at hlength
  exact overlay_first_iff (fun _ => rfl) hlength

theorem withOutputs_first_iff (hlength : outputs.length < execution.outputTypes.length) :
    (execution.withOutputs outputs).outputs.findIdx? Option.isNone = some outputs.length ↔
      ¬Filled execution.outputs outputs.length := by
  rw [← hslotted.outputs] at hlength
  exact overlay_first_iff (fun _ => rfl) hlength

theorem missing?_binding_eq_none_iff (hinputs : inputs.length ≤ execution.inputTypes.length)
    (houtputs : outputs.length ≤ execution.outputTypes.length) :
    ((execution.withInputs inputs).withOutputs outputs).missing? = none ↔
      (∀ index, inputs.length ≤ index → index < execution.inputTypes.length →
        Filled execution.inputs index) ∧
      (∀ index, outputs.length ≤ index → index < execution.outputTypes.length →
        Filled execution.outputs index) := by
  rw [← withInputs_complete_iff hslotted hinputs, ← withOutputs_complete_iff hslotted houtputs]
  exact missing?_eq_none_iff

theorem missing?_of_full (hfull : inputs.length = execution.inputTypes.length) :
    ((execution.withInputs inputs).withOutputs outputs).missing? =
      ((execution.withOutputs outputs).outputs.findIdx? Option.isNone).map .outputNotSet := by
  have hcomplete : (execution.withInputs inputs).inputs.findIdx? Option.isNone = none := by
    rw [withInputs_complete_iff hslotted (Nat.le_of_eq hfull)]
    omega
  exact missing?_of_complete hcomplete

theorem withOutputs_of_full (hfull : outputs.length = execution.outputTypes.length) :
    (execution.withOutputs outputs).outputs.findIdx? Option.isNone = none := by
  rw [withOutputs_complete_iff hslotted (Nat.le_of_eq hfull)]
  omega

/-- A blank execution misses the first slot that is left out, so another one that misses the
same has to find that slot without content. -/
theorem missing?_eq_blank_iff {fresh : Execution} (hfresh : Recalls [] fresh)
    (hinputTypes : execution.inputTypes = fresh.inputTypes)
    (houtputTypes : execution.outputTypes = fresh.outputTypes)
    (hinputs : inputs.length ≤ execution.inputTypes.length)
    (houtputs : outputs.length ≤ execution.outputTypes.length) :
    ((execution.withInputs inputs).withOutputs outputs).missing? =
        ((fresh.withInputs inputs).withOutputs outputs).missing? ↔
      ¬((inputs.length < execution.inputTypes.length ∧ Filled execution.inputs inputs.length) ∨
        (inputs.length = execution.inputTypes.length ∧
          outputs.length < execution.outputTypes.length ∧
          Filled execution.outputs outputs.length)) := by
  have hunfilledInputs : ∀ index, ¬Filled fresh.inputs index := by simp [hfresh.inputs]
  have hunfilledOutputs : ∀ index, ¬Filled fresh.outputs index := by simp [hfresh.outputs]
  rcases Nat.lt_or_eq_of_le hinputs with hshort | hfull
  · have hfirst : ((fresh.withInputs inputs).withOutputs outputs).missing? =
        some (.inputNotSet inputs.length) :=
      missing?_eq_inputNotSet_iff.mpr
        ((withInputs_first_iff hfresh.slotted (hinputTypes ▸ hshort)).mpr (hunfilledInputs _))
    rw [hfirst, missing?_eq_inputNotSet_iff]
    change (execution.withInputs inputs).inputs.findIdx? Option.isNone = _ ↔ _
    rw [withInputs_first_iff hslotted hshort]
    simp [hshort, Nat.ne_of_lt hshort]
  · -- With no input left out, both miss what their outputs miss.
    have hinjective : Function.Injective BackendError.outputNotSet := by
      rintro first second ⟨⟩
      rfl
    rw [missing?_of_full hslotted hfull, missing?_of_full hfresh.slotted (hinputTypes ▸ hfull),
      (Option.map_injective hinjective).eq_iff]
    rcases Nat.lt_or_eq_of_le houtputs with hshort | houtputsFull
    · have hfirst := (withOutputs_first_iff hfresh.slotted (houtputTypes ▸ hshort)).mpr
        (hunfilledOutputs _)
      rw [hfirst, withOutputs_first_iff hslotted hshort]
      simp [hfull, hshort]
    · rw [withOutputs_of_full hslotted houtputsFull,
        withOutputs_of_full hfresh.slotted (houtputTypes ▸ houtputsFull)]
      simp [hfull, houtputsFull]

end LeftOut

end Execution

/-! ## Outcomes -/

namespace Session

variable {execution fresh : Execution} {earlier : List Computation}

theorem outcome_of_fit {inputs outputs : List Buffer} (hinputs : Fit execution.inputTypes 0 inputs)
    (houtputs : Fit execution.outputTypes 0 outputs) :
    outcome execution inputs outputs =
      conclusion ((execution.withInputs inputs).withOutputs outputs).missing? outputs := by
  rw [outcome, Execution.admission_eq_ok_iff.mpr ⟨hinputs, houtputs⟩,
    Execution.binding_of_fit hinputs houtputs]

theorem outcome_of_misfit {inputs outputs : List Buffer}
    (hmisfit : ¬(Fit execution.inputTypes 0 inputs ∧ Fit execution.outputTypes 0 outputs)) :
    ∃ error, execution.admission inputs outputs = .error error ∧
      outcome execution inputs outputs = ⟨.error (.backend error), outputs⟩ := by
  rw [← Execution.admission_eq_ok_iff] at hmisfit
  cases hadmission : execution.admission inputs outputs with
  | error error => exact ⟨error, rfl, by rw [outcome, hadmission]⟩
  | ok _ => exact absurd hadmission hmisfit

theorem conclusion_inj {missing other : Option BackendError} {outputs : List Buffer} :
    conclusion missing outputs = conclusion other outputs ↔ missing = other := by
  cases missing <;> cases other <;> simp [conclusion]

theorem conclusion_status_iff {missing : Option BackendError} {outputs : List Buffer} :
    (conclusion missing outputs).status = .ok () ↔ missing = none := by
  cases missing <;> simp [conclusion]

theorem outcome_eq_blank_iff (hrecalls : Recalls earlier execution) (hfresh : Recalls [] fresh)
    (hinputTypes : execution.inputTypes = fresh.inputTypes)
    (houtputTypes : execution.outputTypes = fresh.outputTypes) (computation : Computation) :
    outcome execution computation.inputs computation.outputs =
        outcome fresh computation.inputs computation.outputs ↔
      ¬Reuses execution earlier computation := by
  by_cases hfit : Fit execution.inputTypes 0 computation.inputs ∧
      Fit execution.outputTypes 0 computation.outputs
  · obtain ⟨hinputs, houtputs⟩ := hfit
    have hmissing := Execution.missing?_eq_blank_iff hrecalls.slotted hfresh hinputTypes
      houtputTypes (length_le_of_fit hinputs) (length_le_of_fit houtputs)
    rw [outcome_of_fit hinputs houtputs,
      outcome_of_fit (hinputTypes ▸ hinputs) (houtputTypes ▸ houtputs), conclusion_inj, hmissing,
      hrecalls.inputs, hrecalls.outputs]
    simp only [Reuses, hinputs, houtputs, true_and]
  · obtain ⟨error, hadmission, houtcome⟩ := outcome_of_misfit hfit
    have hsame : fresh.admission computation.inputs computation.outputs = .error error := by
      rw [← hadmission, Execution.admission, Execution.admission, hinputTypes, houtputTypes]
    rw [houtcome, outcome, hsame]
    simp only [Reuses, true_iff]
    tauto

theorem status_eq_ok_iff (hrecalls : Recalls earlier execution) (computation : Computation) :
    (outcome execution computation.inputs computation.outputs).status = .ok () ↔
      Fit execution.inputTypes 0 computation.inputs ∧
      Fit execution.outputTypes 0 computation.outputs ∧
      (∀ index, computation.inputs.length ≤ index → index < execution.inputTypes.length →
        ∃ other ∈ earlier, other.BindsInput execution index) ∧
      (∀ index, computation.outputs.length ≤ index → index < execution.outputTypes.length →
        ∃ other ∈ earlier, other.BindsOutput execution index) := by
  by_cases hfit : Fit execution.inputTypes 0 computation.inputs ∧
      Fit execution.outputTypes 0 computation.outputs
  · obtain ⟨hinputs, houtputs⟩ := hfit
    have hnone := Execution.missing?_binding_eq_none_iff hrecalls.slotted (length_le_of_fit hinputs)
      (length_le_of_fit houtputs)
    simp only [hrecalls.inputs, hrecalls.outputs] at hnone
    rw [outcome_of_fit hinputs houtputs, conclusion_status_iff, hnone]
    simp only [hinputs, houtputs, true_and]
  · obtain ⟨error, -, houtcome⟩ := outcome_of_misfit hfit
    rw [houtcome]
    simp only [reduceCtorEq, false_iff]
    tauto

/-- A computation depends on earlier ones only through the slots it leaves out. -/
theorem compute_eq_created_iff (session : Session) (history : List Step) {execution : Execution}
    (hcompiled : (session.after history).compiled? = some execution) (computation : Computation) :
    ∃ fresh, (session.after [.create]).compiled? = some fresh ∧
      (session.after history).graph? = (session.after [.create]).graph? ∧
      execution.inputTypes = fresh.inputTypes ∧
      execution.outputTypes = fresh.outputTypes ∧
      ((compute (session.after history) computation.inputs computation.outputs).1 =
          (compute (session.after [.create]) computation.inputs computation.outputs).1 ↔
        ¬Reuses execution (sinceCreation history) computation) ∧
      ((compute (session.after history) computation.inputs computation.outputs).1.status = .ok () ↔
        Fit execution.inputTypes 0 computation.inputs ∧
        Fit execution.outputTypes 0 computation.outputs ∧
        (∀ index, computation.inputs.length ≤ index → index < execution.inputTypes.length →
          ∃ other ∈ sinceCreation history, other.BindsInput execution index) ∧
        (∀ index, computation.outputs.length ≤ index → index < execution.outputTypes.length →
          ∃ other ∈ sinceCreation history, other.BindsOutput execution index)) := by
  obtain ⟨created, hcreated, hcreate, hholds⟩ := exists_holds session
  obtain ⟨⟨graph, fresh, rfl, hgraph, hinputTypes, houtputTypes⟩, hindexed, hrecalls⟩ :=
    hholds history execution hcompiled
  obtain ⟨calls, hfirst⟩ := hcreate {}
  have hafter : session.after [.create] = .ofCreation calls (.ok (graph, fresh)) :=
    congrArg Prod.snd hfirst
  have hfreshCompiled : (session.after [.create]).compiled? = some fresh := by
    rw [hafter]
    rfl
  have hfreshRecalls : Recalls [] fresh := .of_blank hcreated.blank
  obtain ⟨_, _, hcompute⟩ :=
    compute_eq hcompiled hrecalls.slotted hindexed computation.inputs computation.outputs
  obtain ⟨_, _, hfreshCompute⟩ := compute_eq hfreshCompiled hfreshRecalls.slotted
    hcreated.indexed computation.inputs computation.outputs
  rw [hcompute, hfreshCompute]
  exact ⟨fresh, hfreshCompiled, by rw [hgraph, hafter]; rfl, hinputTypes, houtputTypes,
    outcome_eq_blank_iff hrecalls hfreshRecalls hinputTypes houtputTypes computation,
    status_eq_ok_iff hrecalls computation⟩

def softmaxOnly : Session where
  net := { operators := [{ type := "Softmax", inputs := [.named "image"], outputs := ["odds"] }] }
  options := { inputSize := [2, 1, 1], softmax := .emit }

/-- A computation that leaves nothing out. -/
def wholeComputation : Computation where
  inputs := [.float32 #[.zero, .one]]
  outputs := [.float32 #[.one, .one]]

theorem compute_eq_created_softmaxOnly :
    ∃ execution,
      (softmaxOnly.after [.create, .compute ⟨[], []⟩]).compiled? = some execution ∧
      (compute (softmaxOnly.after [.create, .compute ⟨[], []⟩])
          wholeComputation.inputs wholeComputation.outputs).1 =
        (compute (softmaxOnly.after [.create])
          wholeComputation.inputs wholeComputation.outputs).1 := by
  have hsizes : (softmaxOnly.after [.create, .compute ⟨[], []⟩]).compiled?.map
      (fun execution => (execution.inputTypes.length, execution.outputTypes.length)) =
        some (1, 1) := by
    decide +kernel
  obtain ⟨execution, hcompiled, hlengths⟩ := Option.map_eq_some_iff.mp hsizes
  obtain ⟨hinputs, houtputs⟩ := Prod.mk.inj hlengths
  obtain ⟨-, -, -, -, -, heq, -⟩ := compute_eq_created_iff _ _ hcompiled wholeComputation
  refine ⟨execution, hcompiled, heq.mpr ?_⟩
  rintro ⟨-, -, ⟨hshort, -⟩ | ⟨-, hshort, -⟩⟩
  · rw [hinputs] at hshort
    exact absurd hshort (by decide)
  · rw [houtputs] at hshort
    exact absurd hshort (by decide)

/-- The input that an earlier computation has bound makes up for the one that is left out. -/
theorem compute_ne_created_softmaxOnly :
    (softmaxOnly.after [.create, .compute wholeComputation]).compiled?.isSome = true ∧
      (compute (softmaxOnly.after [.create, .compute wholeComputation]) [] []).1.status = .ok () ∧
      (compute (softmaxOnly.after [.create]) [] []).1.status =
        .error (.backend (.inputNotSet 0)) := by
  exact ⟨by decide +kernel, by decide +kernel, by decide +kernel⟩

end Session

end NetLowering
