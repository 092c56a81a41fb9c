import NetLowering.Proofs.Backend.Models

/-!
# When an execution computes

An execution has a slot for each of its inputs and outputs.  A computation is
refused over the first input, or else the first output, whose slot is empty, and
its results are zeros of the element types that the slots of the outputs hold.
-/

namespace NetLowering.Execution

variable {execution : Execution}

structure Slotted (execution : Execution) : Prop where
  inputs : execution.inputs.length = execution.inputTypes.length
  outputs : execution.outputs.length = execution.outputTypes.length

private def resultsFrom (place : Nat) (slots : List (Option ElemType))
    (types : List OperandType) : Except BackendError (List Buffer) :=
  ((slots.zip types).zipIdx place).mapM fun ((output, type), index) => result index output type

private theorem resultsFrom_cons (place : Nat) (slot : Option ElemType) (type : OperandType)
    (slots : List (Option ElemType)) (types : List OperandType) :
    resultsFrom place (slot :: slots) (type :: types) =
      result place slot type >>= fun first =>
        resultsFrom (place + 1) slots types >>= fun rest => pure (first :: rest) := by
  rw [resultsFrom, List.zip_cons_cons, List.zipIdx_cons, List.mapM_cons]
  rfl

private theorem resultsFrom_eq_error (place : Nat) {missing : Nat} {slots : List (Option ElemType)}
    {types : List OperandType} (hslots : slots.length = types.length)
    (hmissing : slots.findIdx? Option.isNone = some missing) :
    resultsFrom place slots types = .error (.outputNotSet (place + missing)) := by
  induction slots generalizing types place missing with
  | nil => simp at hmissing
  | cons slot slots ih =>
      cases types with
      | nil => simp at hslots
      | cons type types =>
          rw [resultsFrom_cons]
          rw [List.findIdx?_cons] at hmissing
          cases slot with
          | none =>
              cases hmissing
              rfl
          | some elem =>
              simp only [Option.isNone_some, Bool.false_eq_true, if_false,
                Option.map_eq_some_iff] at hmissing
              obtain ⟨later, hlater, rfl⟩ := hmissing
              rw [ih (place + 1) (by simpa using hslots) hlater, Nat.add_assoc, Nat.add_comm 1]
              rfl

private theorem resultsFrom_eq_ok (place : Nat) {slots : List (Option ElemType)}
    {types : List OperandType} (hslots : slots.length = types.length)
    (hset : slots.findIdx? Option.isNone = none) :
    ∃ results, resultsFrom place slots types = .ok results ∧
      ∀ (offset : Nat) (elem : ElemType) (type : OperandType),
        slots[offset]? = some (some elem) → types[offset]? = some type →
          results[offset]? = some (.zeros elem type.elements) := by
  induction slots generalizing types place with
  | nil => exact ⟨[], by cases types <;> rfl, by simp⟩
  | cons slot slots ih =>
      cases types with
      | nil => simp at hslots
      | cons type types =>
          rw [resultsFrom_cons]
          rw [List.findIdx?_cons] at hset
          cases slot with
          | none => simp at hset
          | some elem =>
              simp only [Option.isNone_some, Bool.false_eq_true, if_false,
                Option.map_eq_none_iff] at hset
              obtain ⟨results, hresults, hzeros⟩ := ih (place + 1) (by simpa using hslots) hset
              refine ⟨.zeros elem type.elements :: results, by rw [hresults]; rfl, ?_⟩
              intro offset
              cases offset with
              | zero =>
                  rintro _ _ ⟨⟩ ⟨⟩
                  rfl
              | succ offset => simpa using hzeros offset

/-- These results are zeros for every output that has been set, as many as its type counts. -/
def ShownBy (execution : Execution) (results : List Buffer) : Prop :=
  ∀ (slot : Nat) (elem : ElemType) (type : OperandType),
    execution.outputs[slot]? = some (some elem) → execution.outputTypes[slot]? = some type →
      results[slot]? = some (.zeros elem type.elements)

theorem zeros_of_unset {index : Nat} (hslotted : execution.Slotted)
    (hunset : execution.outputs.findIdx? Option.isNone = some index) :
    execution.zeros = .error (.outputNotSet index) := by
  have hresults := resultsFrom_eq_error 0 hslotted.outputs hunset
  rwa [Nat.zero_add] at hresults

theorem zeros_of_set (hslotted : execution.Slotted)
    (hset : execution.outputs.findIdx? Option.isNone = none) :
    ∃ results, execution.zeros = .ok results ∧ execution.ShownBy results :=
  resultsFrom_eq_ok 0 hslotted.outputs hset

/-- Something is missing: the first input, or else the first output, that is not set. -/
def missing? (execution : Execution) : Option BackendError :=
  match execution.inputs.findIdx? Option.isNone with
  | some index => some (.inputNotSet index)
  | none => (execution.outputs.findIdx? Option.isNone).map .outputNotSet

theorem missing?_eq_none_iff :
    execution.missing? = none ↔
      execution.inputs.findIdx? Option.isNone = none ∧
        execution.outputs.findIdx? Option.isNone = none := by
  rw [missing?]
  cases execution.inputs.findIdx? Option.isNone <;> simp

/-- Nothing is computed while something is missing. -/
theorem startCompute_of_missing {error : BackendError} (hslotted : execution.Slotted)
    (hmissing : execution.missing? = some error) :
    startCompute.outcome execution = .error error := by
  rw [execution.startCompute_achieves.outcome_eq]
  rw [missing?] at hmissing
  cases hinputs : execution.inputs.findIdx? Option.isNone with
  | some index =>
      rw [hinputs] at hmissing
      cases hmissing
      rfl
  | none =>
      simp only [hinputs, Option.map_eq_some_iff] at hmissing
      obtain ⟨index, houtputs, rfl⟩ := hmissing
      simp only [zeros_of_unset hslotted houtputs]
      rfl

theorem startCompute_of_complete (hslotted : execution.Slotted)
    (hcomplete : execution.missing? = none) :
    ∃ results, startCompute.outcome execution = .ok ((), { execution with results }) ∧
      execution.ShownBy results := by
  obtain ⟨hinputs, houtputs⟩ := missing?_eq_none_iff.mp hcomplete
  obtain ⟨results, hresults, hshown⟩ := zeros_of_set hslotted houtputs
  refine ⟨results, ?_, hshown⟩
  rw [execution.startCompute_achieves.outcome_eq, hinputs]
  simp only [hresults]
  rfl

end NetLowering.Execution
