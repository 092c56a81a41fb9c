import NetLowering.Proofs.Session.Reuse

/-!
# A computation is all or nothing

The results of a computation are copied out one by one, and each copy may be
refused.  Yet either all buffers are filled with zeros or none is touched: a
computation that has got as far as starting is never refused afterwards.  The
log tells which of the two has happened, since a start is recorded once it has
succeeded and nothing else in a computation records one.
-/

namespace NetLowering.Session

variable {α β : Type}

/-! ## What is recorded -/

/-- Whether it ends well or not, the action records calls of this kind only. -/
def Records (action : Running α) (kind : Call → Prop) : Prop :=
  ∀ execution calls, ∃ added, (action (execution, calls)).2.2 = calls ++ added ∧
    ∀ call ∈ added, kind call

/-- The action records this call just when it ends well. -/
def Marks (action : Running Unit) (call : Call) : Prop :=
  ∀ execution calls, ∃ added, (action (execution, calls)).2.2 = calls ++ added ∧
    (call ∈ added ↔ (action (execution, calls)).1 = .ok ())

section Step

variable {method : Recording Execution Unit} {entry : Unit → Call}
  (hwhole : ∀ execution, method.Whole entry execution)
include hwhole

theorem records_step {kind : Call → Prop} (hkind : kind (entry ())) :
    Records (step method) kind := by
  intro execution calls
  rw [step_eq (hwhole execution)]
  cases method.outcome execution with
  | ok granted => exact ⟨[entry ()], rfl, by simpa using hkind⟩
  | error error => exact ⟨[], by simp, by simp⟩

theorem marks_step : Marks (step method) (entry ()) := by
  intro execution calls
  rw [step_eq (hwhole execution)]
  cases method.outcome execution with
  | ok granted => exact ⟨[entry ()], rfl, by simp⟩
  | error error => exact ⟨[], by simp, by simp⟩

end Step

theorem Records.bind {first : Running α} {next : α → Running β} {kind : Call → Prop}
    (hfirst : Records first kind) (hnext : ∀ value, Records (next value) kind) :
    Records (first >>= next) kind := by
  intro execution calls
  obtain ⟨added, hadded, hkind⟩ := hfirst execution calls
  rw [bind_apply]
  rcases hrun : first (execution, calls) with ⟨ended, changed, longer⟩
  rw [hrun] at hadded
  obtain rfl : longer = calls ++ added := hadded
  cases ended with
  | error error => exact ⟨added, rfl, hkind⟩
  | ok value =>
      obtain ⟨more, hmore, hmoreKind⟩ := hnext value changed (calls ++ added)
      refine ⟨added ++ more, by rw [hmore, List.append_assoc], ?_⟩
      simp only [List.forall_mem_append]
      exact ⟨hkind, hmoreKind⟩

theorem Records.bind_marks {first : Running α} {next : Running Unit} {call : Call}
    (hfirst : Records first (· ≠ call)) (hnext : Marks next call) :
    Marks (first >>= fun _ => next) call := by
  intro execution calls
  obtain ⟨added, hadded, hother⟩ := hfirst execution calls
  have habsent : call ∉ added := fun hmem => hother call hmem rfl
  rw [bind_apply]
  rcases hrun : first (execution, calls) with ⟨ended, changed, longer⟩
  rw [hrun] at hadded
  obtain rfl : longer = calls ++ added := hadded
  cases ended with
  | error error => exact ⟨added, rfl, by simp [habsent]⟩
  | ok value =>
      obtain ⟨more, hmore, hmarks⟩ := hnext changed (calls ++ added)
      refine ⟨added ++ more, by rw [hmore, List.append_assoc], ?_⟩
      rw [List.mem_append, or_iff_right habsent]
      exact hmarks

theorem records_forM {items : List α} {action : α → Running Unit} {kind : Call → Prop}
    (haction : ∀ item, Records (action item) kind) : Records (items.forM action) kind := by
  induction items with
  | nil => exact fun execution calls => ⟨[], (List.append_nil calls).symm, by simp⟩
  | cons item items ih => exact (haction item).bind fun _ => ih

/-- Of all that a run does, only its start records a start. -/
theorem marks_run (inputs outputs : List Buffer) : Marks (run inputs outputs) .startCompute := by
  apply Records.bind_marks
  · exact records_forM fun (buffer, place) =>
      records_step (fun execution => (execution.setInput_achieves _ buffer).whole) (by simp)
  apply Records.bind_marks
  · exact records_forM fun (buffer, place) =>
      records_step (fun execution => (execution.setOutput_achieves _ buffer).whole) (by simp)
  · exact marks_step fun execution => execution.startCompute_achieves.whole

/-! ## How a computation ends -/

/-- Once a run is over, nothing is left that could be refused. -/
theorem run_ok_iff_outcome_ok {execution : Execution} (hslotted : execution.Slotted)
    (hindexed : execution.Indexed) (inputs outputs : List Buffer) (calls : List Call) :
    (run inputs outputs (execution, calls)).1 = .ok () ↔
      (outcome execution inputs outputs).status = .ok () := by
  obtain ⟨longer, hrun⟩ := run_eq hslotted hindexed inputs outputs calls
  have hbound := Execution.slotted_binding hslotted inputs outputs
  rw [hrun, outcome]
  cases execution.admission inputs outputs with
  | error error => simp
  | ok _ =>
      cases hmissing : (execution.binding inputs outputs).missing? with
      | some error => simp [Execution.startCompute_of_missing hbound hmissing, conclusion]
      | none =>
          obtain ⟨results, hcompute, -⟩ := Execution.startCompute_of_complete hbound hmissing
          simp [hcompute, conclusion]

/-- A computation from this state, meant to fill these buffers, fills all of them or none. -/
structure AllOrNothing (before : State) (outputs : List Buffer) (result : Outcome × State) :
    Prop where
  refused : ∀ error, result.1.status = .error error → result.1.outputs = outputs
  completed : result.1.status = .ok () →
    result.1.outputs = outputs.map fun buffer => .zeros buffer.elemType buffer.size
  /-- What has started is not refused any more. -/
  started : result.1.status = .ok () ↔
    ∃ added, .startCompute ∈ added ∧ result.2.calls = before.calls ++ added

theorem outputs_of_outcome (execution : Execution) (inputs outputs : List Buffer) :
    (∀ error, (outcome execution inputs outputs).status = .error error →
      (outcome execution inputs outputs).outputs = outputs) ∧
    ((outcome execution inputs outputs).status = .ok () →
      (outcome execution inputs outputs).outputs =
        outputs.map fun buffer => .zeros buffer.elemType buffer.size) := by
  rw [outcome]
  cases execution.admission inputs outputs with
  | error error => simp
  | ok _ => cases (execution.binding inputs outputs).missing? <;> simp [conclusion]

theorem calls_compute {state : State} {execution : Execution}
    (hcompiled : state.compiled? = some execution) (inputs outputs : List Buffer) :
    (compute state inputs outputs).2.calls =
      (run inputs outputs (execution, state.calls)).2.2 := by
  simp only [compute, hcompiled, ExceptT.run]
  rcases run inputs outputs (execution, state.calls) with ⟨_ | _, _, _⟩ <;> rfl

/-- Whatever has come before it, a computation is all or nothing. -/
theorem compute_allOrNothing (session : Session) (history : List Step)
    (inputs outputs : List Buffer) :
    AllOrNothing (session.after history) outputs
      (compute (session.after history) inputs outputs) := by
  cases hcompiled : (session.after history).compiled? with
  | none =>
      have hrefused : compute (session.after history) inputs outputs =
          (⟨.error .notCompiled, outputs⟩, session.after history) := by
        rw [compute, hcompiled]
      rw [hrefused]
      exact ⟨fun _ _ => rfl, by simp, by simp⟩
  | some execution =>
      -- Of the history only this matters: it leaves a slot for each input and output.
      obtain ⟨_, -, -, hholds⟩ := session.exists_holds
      obtain ⟨-, hindexed, hslotted, -, -⟩ := hholds history execution hcompiled
      obtain ⟨hrefused, hcompleted⟩ := outputs_of_outcome execution inputs outputs
      obtain ⟨added, hadded, hmarks⟩ :=
        marks_run inputs outputs execution (session.after history).calls
      have hcalls := calls_compute hcompiled inputs outputs
      obtain ⟨calls, results, hcompute⟩ := compute_eq hcompiled hslotted hindexed inputs outputs
      rw [hadded, hcompute] at hcalls
      rw [hcompute]
      refine ⟨hrefused, hcompleted, ?_⟩
      rw [hcalls, ← run_ok_iff_outcome_ok hslotted hindexed, ← hmarks]
      simp

end NetLowering.Session
