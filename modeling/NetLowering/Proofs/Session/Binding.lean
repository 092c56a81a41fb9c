import NetLowering.Proofs.Backend.Computing
import NetLowering.Proofs.Emission.Acceptance
import NetLowering.Session

/-!
# What a computation binds

A computation binds its buffers one after the other, up to the first that does
not fit.  What it binds replaces the first slots of the execution, and the
slots after those keep what they held.  Slots are told apart by indices of 32
bits, so this is said of executions that do not have more slots than that.
-/

namespace NetLowering

/-! ## Fitting buffers -/

/-- Checks a buffer against the type at a place, which its index is. -/
def checkAt (types : List OperandType) (place : Nat) (buffer : Buffer) :
    Except BackendError Unit :=
  match types[place]? with
  | none => .error (.badIndex (.ofNat place))
  | some type =>
      if type.code.accepts buffer.elemType = true ∧ buffer.size = type.elements then .ok ()
      else .error (.invalidOperand (.ofNat place) (.bufferType buffer.elemType type))

theorem checkBuffer_ofNat {types : List OperandType} {place : Nat} (hplace : place < 2 ^ 32)
    (buffer : Buffer) :
    Execution.checkBuffer types (.ofNat place) buffer = checkAt types place buffer := by
  rw [Execution.checkBuffer, checkAt, UInt32.toNat_ofNat_of_lt' hplace]
  cases types[place]? with
  | none => rfl
  | some type =>
      by_cases haccepts : type.code.accepts buffer.elemType = true <;>
        by_cases hsize : buffer.size = type.elements <;>
          simp [haccepts, hsize, pure, Except.pure, throw, throwThe, MonadExceptOf.throw]

/-- The buffers that are taken, up to the first that does not fit, and the end of it. -/
def takeFitting (types : List OperandType) :
    Nat → List Buffer → List Buffer × Except BackendError Unit
  | _, [] => ([], .ok ())
  | place, buffer :: rest =>
      match checkAt types place buffer with
      | .error error => ([], .error error)
      | .ok () =>
          let (taken, ended) := takeFitting types (place + 1) rest
          (buffer :: taken, ended)

/-- The buffers fit the types from `place` on, each the one at its own place. -/
def Fit (types : List OperandType) (place : Nat) (buffers : List Buffer) : Prop :=
  ∀ (offset : Nat) (buffer : Buffer), buffers[offset]? = some buffer →
    ∃ type, types[place + offset]? = some type ∧ type.TakesValue buffer

theorem checkAt_eq_ok_iff {types : List OperandType} {place : Nat} {buffer : Buffer} :
    checkAt types place buffer = .ok () ↔
      ∃ type, types[place]? = some type ∧ type.TakesValue buffer := by
  rw [checkAt]
  cases htype : types[place]? with
  | none => simp
  | some type =>
      simp only [Option.some.injEq, exists_eq_left', OperandType.takesValue_iff]
      split <;> simp_all

variable {types : List OperandType} {place : Nat} {buffers : List Buffer}

theorem fit_cons_iff {buffer : Buffer} :
    Fit types place (buffer :: buffers) ↔
      checkAt types place buffer = .ok () ∧ Fit types (place + 1) buffers := by
  rw [checkAt_eq_ok_iff]
  constructor
  · intro hall
    refine ⟨hall 0 buffer rfl, ?_⟩
    intro offset later hlater
    have hfit := hall (offset + 1) later (by simpa using hlater)
    rwa [← Nat.add_assoc, Nat.add_right_comm] at hfit
  · rintro ⟨hfirst, hrest⟩ offset later hlater
    cases offset with
    | zero => simp_all
    | succ offset =>
        have hfit := hrest offset later (by simpa using hlater)
        rwa [Nat.add_right_comm] at hfit

theorem takeFitting_eq_ok_iff :
    (takeFitting types place buffers).2 = .ok () ↔ Fit types place buffers := by
  induction buffers generalizing place with
  | nil => simp [takeFitting, Fit]
  | cons buffer rest ih =>
      rw [fit_cons_iff, takeFitting]
      cases hcheck : checkAt types place buffer with
      | error error => simp
      | ok _ => simp [← ih]

theorem takeFitting_of_fit (hfit : Fit types place buffers) :
    (takeFitting types place buffers).1 = buffers := by
  induction buffers generalizing place with
  | nil => rfl
  | cons buffer rest ih =>
      obtain ⟨hcheck, hrest⟩ := fit_cons_iff.mp hfit
      simp only [takeFitting, hcheck, ih hrest]

theorem lt_length_takeFitting_iff {offset : Nat} :
    offset < (takeFitting types place buffers).1.length ↔
      offset < buffers.length ∧ Fit types place (buffers.take (offset + 1)) := by
  induction buffers generalizing place offset with
  | nil => simp [takeFitting]
  | cons buffer rest ih =>
      rw [List.take_succ_cons, fit_cons_iff, takeFitting]
      cases hcheck : checkAt types place buffer with
      | error error => simp
      | ok _ =>
          cases offset with
          | zero => simp [Fit]
          | succ offset => simp [ih]

private theorem place_add_length_takeFitting_le (hplace : place ≤ types.length) :
    place + (takeFitting types place buffers).1.length ≤ types.length := by
  induction buffers generalizing place with
  | nil => simpa [takeFitting] using hplace
  | cons buffer rest ih =>
      rw [takeFitting]
      cases hcheck : checkAt types place buffer with
      | error error => simpa using hplace
      | ok _ =>
          obtain ⟨type, htype, -⟩ := checkAt_eq_ok_iff.mp hcheck
          have hlt := (List.getElem?_eq_some_iff.mp htype).1
          -- A buffer only fits at a place that has a type.
          have hrest : place + 1 + (takeFitting types (place + 1) rest).1.length ≤ types.length :=
            ih hlt
          simp only [List.length_cons]
          omega

theorem length_takeFitting_le : (takeFitting types 0 buffers).1.length ≤ types.length := by
  simpa using place_add_length_takeFitting_le (Nat.zero_le types.length)

theorem length_le_of_fit (hfit : Fit types 0 buffers) : buffers.length ≤ types.length := by
  rw [← takeFitting_of_fit hfit]
  exact length_takeFitting_le

/-! ## Slots -/

namespace Execution

variable {execution : Execution}

def withInputs (execution : Execution) (buffers : List Buffer) : Execution :=
  { execution with inputs := buffers.map some ++ execution.inputs.drop buffers.length }

def withOutputs (execution : Execution) (buffers : List Buffer) : Execution :=
  { execution with
    outputs := buffers.map (fun buffer => some buffer.elemType) ++
      execution.outputs.drop buffers.length }

@[simp] theorem outputTypes_withInputs (execution : Execution) (buffers : List Buffer) :
    (execution.withInputs buffers).outputTypes = execution.outputTypes := rfl

/-- A place of a slot is a number of 32 bits. -/
structure Indexed (execution : Execution) : Prop where
  inputs : execution.inputTypes.length < 2 ^ 32
  outputs : execution.outputTypes.length < 2 ^ 32

/-- A buffer that fits takes the first slot that the buffers before it leave. -/
private theorem set_next {γ : Type} {types : List OperandType} {slots : List γ}
    (hslots : slots.length = types.length) (slot : Buffer → γ) {done : List Buffer}
    {buffer : Buffer} (hcheck : checkAt types done.length buffer = .ok ()) :
    (done.map slot ++ slots.drop done.length).set done.length (slot buffer) =
      (done ++ [buffer]).map slot ++ slots.drop (done ++ [buffer]).length := by
  obtain ⟨type, htype, -⟩ := checkAt_eq_ok_iff.mp hcheck
  have hslot : done.length < slots.length := by
    rw [hslots]
    exact (List.getElem?_eq_some_iff.mp htype).1
  rw [List.drop_eq_getElem_cons hslot, List.set_append_right _ _ (by simp)]
  simp only [List.length_map, List.length_append, List.length_singleton, List.map_append,
    List.map_singleton, List.append_assoc, List.singleton_append, Nat.sub_self,
    List.set_cons_zero]

theorem setInput_withInputs (hslotted : execution.Slotted) {done : List Buffer}
    (hplace : done.length < 2 ^ 32) (buffer : Buffer) :
    (setInput (.ofNat done.length) buffer).outcome (execution.withInputs done) =
      (checkAt execution.inputTypes done.length buffer).map fun _ =>
        ((), execution.withInputs (done ++ [buffer])) := by
  rw [((execution.withInputs done).setInput_achieves _ buffer).outcome_eq]
  change (checkBuffer execution.inputTypes (.ofNat done.length) buffer >>= _) = _
  rw [checkBuffer_ofNat hplace, UInt32.toNat_ofNat_of_lt' hplace]
  cases hcheck : checkAt execution.inputTypes done.length buffer with
  | error error => rfl
  | ok _ =>
      rw [withInputs, withInputs, ← set_next hslotted.inputs some hcheck]
      rfl

theorem setOutput_withOutputs (hslotted : execution.Slotted) {done : List Buffer}
    (hplace : done.length < 2 ^ 32) (buffer : Buffer) :
    (setOutput (.ofNat done.length) buffer).outcome (execution.withOutputs done) =
      (checkAt execution.outputTypes done.length buffer).map fun _ =>
        ((), execution.withOutputs (done ++ [buffer])) := by
  rw [((execution.withOutputs done).setOutput_achieves _ buffer).outcome_eq]
  change (checkBuffer execution.outputTypes (.ofNat done.length) buffer >>= _) = _
  rw [checkBuffer_ofNat hplace, UInt32.toNat_ofNat_of_lt' hplace]
  cases hcheck : checkAt execution.outputTypes done.length buffer with
  | error error => rfl
  | ok _ =>
      rw [withOutputs, withOutputs,
        ← set_next hslotted.outputs (fun buffer => some buffer.elemType) hcheck]
      rfl

end Execution

/-! ## Runs -/

namespace Execution

variable {execution : Execution}

/-- Whether every buffer of a call fits. -/
def admission (execution : Execution) (inputs outputs : List Buffer) : Except BackendError Unit :=
  (takeFitting execution.inputTypes 0 inputs).2 >>= fun _ =>
    (takeFitting execution.outputTypes 0 outputs).2

/-- What a call binds, computed or not. -/
def binding (execution : Execution) (inputs outputs : List Buffer) : Execution :=
  let bound := execution.withInputs (takeFitting execution.inputTypes 0 inputs).1
  match (takeFitting execution.inputTypes 0 inputs).2 with
  | .error _ => bound
  | .ok () => bound.withOutputs (takeFitting execution.outputTypes 0 outputs).1

theorem admission_eq_ok_iff {inputs outputs : List Buffer} :
    execution.admission inputs outputs = .ok () ↔
      Fit execution.inputTypes 0 inputs ∧ Fit execution.outputTypes 0 outputs := by
  rw [admission, Checked.bind_eq_ok_iff, ← takeFitting_eq_ok_iff, ← takeFitting_eq_ok_iff]
  constructor
  · rintro ⟨⟨⟩, hinputs, houtputs⟩
    exact ⟨hinputs, houtputs⟩
  · rintro ⟨hinputs, houtputs⟩
    exact ⟨(), hinputs, houtputs⟩

theorem binding_of_fit {inputs outputs : List Buffer} (hinputs : Fit execution.inputTypes 0 inputs)
    (houtputs : Fit execution.outputTypes 0 outputs) :
    execution.binding inputs outputs = (execution.withInputs inputs).withOutputs outputs := by
  simp only [binding, takeFitting_eq_ok_iff.mpr hinputs, takeFitting_of_fit hinputs,
    takeFitting_of_fit houtputs]

theorem slotted_withInputs {buffers : List Buffer} (hslotted : execution.Slotted)
    (hlength : buffers.length ≤ execution.inputTypes.length) :
    (execution.withInputs buffers).Slotted := by
  refine ⟨?_, hslotted.outputs⟩
  have hinputs := hslotted.inputs
  simp only [withInputs, List.length_append, List.length_map, List.length_drop]
  omega

theorem slotted_withOutputs {buffers : List Buffer} (hslotted : execution.Slotted)
    (hlength : buffers.length ≤ execution.outputTypes.length) :
    (execution.withOutputs buffers).Slotted := by
  refine ⟨hslotted.inputs, ?_⟩
  have houtputs := hslotted.outputs
  simp only [withOutputs, List.length_append, List.length_map, List.length_drop]
  omega

theorem slotted_binding (hslotted : execution.Slotted) (inputs outputs : List Buffer) :
    (execution.binding inputs outputs).Slotted := by
  have hbound : (execution.withInputs (takeFitting execution.inputTypes 0 inputs).1).Slotted :=
    slotted_withInputs hslotted length_takeFitting_le
  rw [binding]
  split
  · exact hbound
  · exact slotted_withOutputs hbound length_takeFitting_le

end Execution

namespace Session

theorem step_eq {method : Recording Execution Unit} {entry : Unit → Call} {execution : Execution}
    (hwhole : method.Whole entry execution) (calls : List Call) :
    step method (execution, calls) =
      match method.outcome execution with
      | .ok (_, changed) => (.ok (), changed, calls ++ [entry ()])
      | .error error => (.error (.backend error), execution, calls) := by
  change (match method.run (execution, calls) with
    | (ended, after) => (ended.mapError SessionError.backend, after)) = _
  rw [hwhole calls]
  rcases method.outcome execution with error | ⟨_, changed⟩ <;> rfl

/-- Binding from a place on, when the execution is known after every part of the buffers. -/
theorem bind_fitting {types : List OperandType} (hindexed : types.length < 2 ^ 32)
    {set : UInt32 → Buffer → Recording Execution Unit} {entry : UInt32 → Buffer → Unit → Call}
    (hwhole : ∀ index buffer execution, (set index buffer).Whole (entry index buffer) execution)
    (after : List Buffer → Execution)
    (hset : ∀ (done : List Buffer) (buffer : Buffer), done.length < 2 ^ 32 →
      (set (.ofNat done.length) buffer).outcome (after done) =
        (checkAt types done.length buffer).map fun _ => ((), after (done ++ [buffer])))
    (buffers done : List Buffer) (hdone : done.length ≤ types.length)
    (calls : List Call) :
    ∃ longer,
      ((buffers.zipIdx done.length).forM fun (buffer, place) =>
        step (set (.ofNat place) buffer)) (after done, calls) =
          ((takeFitting types done.length buffers).2.mapError .backend,
            after (done ++ (takeFitting types done.length buffers).1), longer) := by
  -- What has been bound grows as what is left to bind shrinks, so the execution is `after done`.
  induction buffers generalizing done calls with
  | nil => exact ⟨calls, by simp [takeFitting]; rfl⟩
  | cons buffer rest ih =>
      change ∃ longer, (step (set (.ofNat done.length) buffer) >>= fun _ =>
        (rest.zipIdx (done.length + 1)).forM fun (buffer, place) =>
          step (set (.ofNat place) buffer)) (after done, calls) = _
      rw [bind_apply, step_eq (hwhole _ buffer _), hset done buffer (by omega), takeFitting]
      cases hcheck : checkAt types done.length buffer with
      | error error => exact ⟨calls, by simp [Except.map, Except.mapError]⟩
      | ok _ =>
          obtain ⟨type, htype, -⟩ := checkAt_eq_ok_iff.mp hcheck
          have hplace := (List.getElem?_eq_some_iff.mp htype).1
          have hnext : (done ++ [buffer]).length ≤ types.length := by
            rw [List.length_append, List.length_singleton]
            omega
          obtain ⟨longer, hrest⟩ := ih (done ++ [buffer]) hnext
            (calls ++ [entry (.ofNat done.length) buffer ()])
          rw [List.length_append, List.append_assoc] at hrest
          exact ⟨longer, hrest⟩

variable {execution : Execution}

private theorem bindInputs_eq (hslotted : execution.Slotted) (hindexed : execution.Indexed)
    (inputs : List Buffer) (calls : List Call) :
    ∃ longer,
      (inputs.zipIdx.forM fun (buffer, place) =>
        step (Execution.setInput (.ofNat place) buffer)) (execution, calls) =
          ((takeFitting execution.inputTypes 0 inputs).2.mapError .backend,
            execution.withInputs (takeFitting execution.inputTypes 0 inputs).1, longer) :=
  bind_fitting hindexed.inputs
    (fun index buffer execution => (execution.setInput_achieves index buffer).whole)
    execution.withInputs
    (fun _ buffer hplace => Execution.setInput_withInputs hslotted hplace buffer) inputs []
    (Nat.zero_le _) calls

private theorem bindOutputs_eq (hslotted : execution.Slotted) (hindexed : execution.Indexed)
    (outputs : List Buffer) (calls : List Call) :
    ∃ longer,
      (outputs.zipIdx.forM fun (buffer, place) =>
        step (Execution.setOutput (.ofNat place) buffer)) (execution, calls) =
          ((takeFitting execution.outputTypes 0 outputs).2.mapError .backend,
            execution.withOutputs (takeFitting execution.outputTypes 0 outputs).1, longer) :=
  bind_fitting hindexed.outputs
    (fun index buffer execution => (execution.setOutput_achieves index buffer).whole)
    execution.withOutputs
    (fun _ buffer hplace => Execution.setOutput_withOutputs hslotted hplace buffer) outputs []
    (Nat.zero_le _) calls

/-- A run binds what fits and computes if everything does. -/
theorem run_eq (hslotted : execution.Slotted) (hindexed : execution.Indexed)
    (inputs outputs : List Buffer) (calls : List Call) :
    ∃ longer, run inputs outputs (execution, calls) =
      match execution.admission inputs outputs with
      | .error error => (.error (.backend error), execution.binding inputs outputs, longer)
      | .ok () =>
          match Execution.startCompute.outcome (execution.binding inputs outputs) with
          | .error error => (.error (.backend error), execution.binding inputs outputs, longer)
          | .ok (_, final) => (.ok (), final, longer) := by
  obtain ⟨middle, hinputs⟩ := bindInputs_eq hslotted hindexed inputs calls
  obtain ⟨later, houtputs⟩ :=
    bindOutputs_eq (Execution.slotted_withInputs hslotted length_takeFitting_le)
      ⟨hindexed.inputs, hindexed.outputs⟩ outputs middle
  rw [Execution.outputTypes_withInputs] at houtputs
  rw [run, bind_apply, hinputs, Execution.admission, Execution.binding]
  cases hinputsFit : (takeFitting execution.inputTypes 0 inputs).2 with
  | error error => exact ⟨middle, rfl⟩
  | ok _ =>
      simp only [Except.mapError, Checked.ok_bind]
      rw [bind_apply, houtputs]
      cases houtputsFit : (takeFitting execution.outputTypes 0 outputs).2 with
      | error error => exact ⟨later, rfl⟩
      | ok _ =>
          have hstep := step_eq (Execution.startCompute_achieves
            ((execution.withInputs (takeFitting execution.inputTypes 0 inputs).1).withOutputs
              (takeFitting execution.outputTypes 0 outputs).1)).whole later
          rcases houtcome : Execution.startCompute.outcome
              ((execution.withInputs (takeFitting execution.inputTypes 0 inputs).1).withOutputs
                (takeFitting execution.outputTypes 0 outputs).1) with error | ⟨_, final⟩
          · rw [houtcome] at hstep
            exact ⟨later, hstep.trans (by simp only)⟩
          · rw [houtcome] at hstep
            exact ⟨later ++ [.startCompute], hstep.trans (by simp only)⟩

/-! ## Outcomes -/

theorem collect_zeros {buffers : List Buffer} {place : Nat}
    (hresults : ∀ (offset : Nat) (buffer : Buffer), buffers[offset]? = some buffer →
      execution.output? (.ofNat (place + offset)) =
        some (.zeros buffer.elemType buffer.size)) :
    collect execution place buffers =
      (.ok (), buffers.map fun buffer => .zeros buffer.elemType buffer.size) := by
  induction buffers generalizing place with
  | nil => rfl
  | cons buffer rest ih =>
      have hfirst : execution.output? (.ofNat place) = some (.zeros buffer.elemType buffer.size) :=
        hresults 0 buffer rfl
      have hrest : collect execution (place + 1) rest =
          (.ok (), rest.map fun buffer => .zeros buffer.elemType buffer.size) := by
        apply ih
        intro offset later hlater
        rw [Nat.add_right_comm]
        exact hresults (offset + 1) later (by simpa using hlater)
      simp [collect, hfirst, Buffer.overwrite?, hrest]

private theorem collect_computed (hindexed : execution.Indexed)
    {inputs outputs results : List Buffer}
    (hinputs : Fit execution.inputTypes 0 inputs) (houtputs : Fit execution.outputTypes 0 outputs)
    (hshown : (execution.binding inputs outputs).ShownBy results) :
    collect { execution.binding inputs outputs with results } 0 outputs =
      (.ok (), outputs.map fun buffer => .zeros buffer.elemType buffer.size) := by
  apply collect_zeros
  intro offset buffer hbuffer
  obtain ⟨type, htype, htakes⟩ := houtputs offset buffer hbuffer
  obtain ⟨-, hsize⟩ := OperandType.takesValue_iff.mp htakes
  rw [Nat.zero_add] at htype ⊢
  have hplace : offset < 2 ^ 32 :=
    (List.getElem?_eq_some_iff.mp htype).1.trans hindexed.outputs
  rw [Execution.output?, UInt32.toNat_ofNat_of_lt' hplace, hsize]
  rw [Execution.binding_of_fit hinputs houtputs] at hshown
  apply hshown offset buffer.elemType type _ htype
  rw [Execution.withOutputs, List.getElem?_append_left]
  · simp [hbuffer]
  · rw [List.length_map]
    exact (List.getElem?_eq_some_iff.mp hbuffer).1

def conclusion (missing : Option BackendError) (outputs : List Buffer) : Outcome :=
  match missing with
  | some error => ⟨.error (.backend error), outputs⟩
  | none => ⟨.ok (), outputs.map fun buffer => .zeros buffer.elemType buffer.size⟩

/-- How a call on an execution ends, once it is known what it binds. -/
def outcome (execution : Execution) (inputs outputs : List Buffer) : Outcome :=
  match execution.admission inputs outputs with
  | .error error => ⟨.error (.backend error), outputs⟩
  | .ok () => conclusion (execution.binding inputs outputs).missing? outputs

/-- A call ends as its bindings say, and it leaves nothing behind but these. -/
theorem compute_eq {state : State} (hcompiled : state.compiled? = some execution)
    (hslotted : execution.Slotted) (hindexed : execution.Indexed) (inputs outputs : List Buffer) :
    ∃ calls results, compute state inputs outputs =
      (outcome execution inputs outputs, { state with
        calls, compiled? := some { execution.binding inputs outputs with results } }) := by
  obtain ⟨longer, hrun⟩ := run_eq hslotted hindexed inputs outputs state.calls
  have hbound := Execution.slotted_binding hslotted inputs outputs
  simp only [compute, hcompiled, ExceptT.run, outcome]
  rw [hrun]
  cases hadmission : execution.admission inputs outputs with
  | error error => exact ⟨longer, _, rfl⟩
  | ok _ =>
      cases hmissing : (execution.binding inputs outputs).missing? with
      | some error =>
          rw [Execution.startCompute_of_missing hbound hmissing]
          exact ⟨longer, _, rfl⟩
      | none =>
          obtain ⟨results, hcompute, hshown⟩ := Execution.startCompute_of_complete hbound hmissing
          obtain ⟨hinputsFit, houtputsFit⟩ := Execution.admission_eq_ok_iff.mp hadmission
          rw [hcompute]
          refine ⟨longer, results, ?_⟩
          simp only []
          rw [collect_computed hindexed hinputsFit houtputsFit hshown]
          rfl

end Session

end NetLowering
