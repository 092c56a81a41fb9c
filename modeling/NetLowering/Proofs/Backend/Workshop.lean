import NetLowering.Backend.Workshop
import NetLowering.Proofs.Backend.Models

/-!
# What an errand does

`Workshop.Does` lists what an errand can do.  One that is refused leaves the
workshop as it was, and so does a look at a result; every other adds one entry to
the log and either changes one thing or adds one.  A compilation is recorded before
the ends of its model are looked up, so that its refusal would show in the log: only
the soundness of the models rules that out.
-/

namespace NetLowering

open Checked

namespace Desk

variable {σ α : Type} {desk : Desk} {method : Recording σ α} {entry : α → Call} {subject : σ}
  {back : Desk → σ → Desk} {put : Desk → α → Desk} {reply : α → Reply}

theorem call_of_ok (hwhole : method.Whole entry subject) {answer : α} {changed : σ}
    (hgranted : method.outcome subject = .ok (answer, changed)) :
    desk.call (some subject) method back put reply =
      (.ok (reply answer),
        put (back { desk with calls := desk.calls ++ [entry answer] } changed) answer) := by
  rw [call, hwhole.run_of_ok hgranted]

theorem call_of_error (hwhole : method.Whole entry subject) {error : BackendError}
    (hrefused : method.outcome subject = .error error) :
    desk.call (some subject) method back put reply =
      (.error (.backend error), back desk subject) := by
  rw [call, hwhole.run_of_error hrefused]

theorem withModel_self {model : Model} (hthere : desk.model = some model) :
    desk.withModel model = desk := by
  rw [withModel, ← hthere]

theorem withCompilation_self {compilation : Compilation}
    (hthere : desk.compilation = some compilation) : desk.withCompilation compilation = desk := by
  rw [withCompilation, ← hthere]

theorem withExecution_self {execution : Execution} (hthere : desk.execution = some execution) :
    desk.withExecution execution = desk := by
  rw [withExecution, ← hthere]

end Desk

namespace Workshop

variable {σ α β : Type} {workshop : Workshop}

theorem set_self {things : List β} {place : Nat} {thing : β}
    (hthere : things[place]? = some thing) : things.set place thing = things := by
  obtain ⟨hplace, rfl⟩ := List.getElem?_eq_some_iff.mp hthere
  exact List.set_getElem_self hplace

theorem putBack_self (things : List β) (place : Nat) :
    putBack things place things[place]? things[place]? = things := by
  cases hthere : things[place]? with
  | none => simp [putBack]
  | some thing => simp [putBack, set_self hthere]

theorem clear_desk (workshop : Workshop) (errand : Errand) :
    workshop.clear errand (workshop.desk errand) = workshop := by
  cases hkind : errand.command.kind <;>
    simp [clear, desk, hkind, putBack_self] <;> simp [putBack]

/-- What an errand can do, what it answers and what it leaves. -/
inductive Does (workshop : Workshop) :
    Errand → Except DeskError Reply → Workshop → Prop where
  | refused (errand : Errand) (error : DeskError) : Does workshop errand (.error error) workshop
  | createModel (subject : Nat) (options : ModelOptions) :
      Does workshop ⟨subject, .createModel options⟩ (.ok .done) { workshop with
        calls := workshop.calls ++ [.createModel options]
        models := workshop.models ++ [.ofOptions options] }
  | request {subject : Nat} {model changed : Model} {request : Request} {answer : request.Answer}
      (there : workshop.models[subject]? = some model)
      (takes : model.Takes request answer changed) :
      Does workshop ⟨subject, .request request⟩ (.ok (.ofAnswer request answer))
        { workshop with
          calls := workshop.calls ++ [.ofRequest request answer]
          models := workshop.models.set subject changed }
  | finish {subject : Nat} {model : Model} (there : workshop.models[subject]? = some model) :
      Does workshop ⟨subject, .finish⟩ (.ok .done) { workshop with
        calls := workshop.calls ++ [.finish]
        models := workshop.models.set subject { model with finished := true } }
  | createCompilation {subject : Nat} {model : Model}
      (there : workshop.models[subject]? = some model) (compilation : Compilation)
      (resolved : model.resolveEnds = .ok compilation) :
      Does workshop ⟨subject, .createCompilation⟩ (.ok .done) { workshop with
        calls := workshop.calls ++ [.createCompilation]
        compilations := workshop.compilations ++ [compilation] }
  | setPreference {subject : Nat} {compilation : Compilation}
      (there : workshop.compilations[subject]? = some compilation) (preference : Preference) :
      Does workshop ⟨subject, .setPreference preference⟩ (.ok .done) { workshop with
        calls := workshop.calls ++ [.setPreference preference]
        compilations := workshop.compilations.set subject { compilation with preference } }
  | finishCompilation {subject : Nat} {compilation : Compilation}
      (there : workshop.compilations[subject]? = some compilation) :
      Does workshop ⟨subject, .finishCompilation⟩ (.ok .done) { workshop with
        calls := workshop.calls ++ [.finishCompilation]
        compilations := workshop.compilations.set subject { compilation with finished := true } }
  | createExecution {subject : Nat} {compilation : Compilation}
      (there : workshop.compilations[subject]? = some compilation) :
      Does workshop ⟨subject, .createExecution⟩ (.ok .done) { workshop with
        calls := workshop.calls ++ [.createExecution]
        executions := workshop.executions ++ [compilation.blankExecution] }
  | setInput {subject : Nat} {execution : Execution}
      (there : workshop.executions[subject]? = some execution) (index : UInt32) (buffer : Buffer) :
      Does workshop ⟨subject, .setInput index buffer⟩ (.ok .done) { workshop with
        calls := workshop.calls ++ [.setInput index buffer]
        executions := workshop.executions.set subject { execution with
          inputs := execution.inputs.set index.toNat (some buffer) } }
  | setOutput {subject : Nat} {execution : Execution}
      (there : workshop.executions[subject]? = some execution) (index : UInt32) (buffer : Buffer) :
      Does workshop ⟨subject, .setOutput index buffer⟩ (.ok .done) { workshop with
        calls := workshop.calls ++ [.setOutput index]
        executions := workshop.executions.set subject { execution with
          outputs := execution.outputs.set index.toNat (some buffer.elemType) } }
  | startCompute {subject : Nat} {execution : Execution}
      (there : workshop.executions[subject]? = some execution) {results : List Buffer}
      (complete : execution.inputs.findIdx? Option.isNone = none)
      (computed : execution.zeros = .ok results) :
      Does workshop ⟨subject, .startCompute⟩ (.ok .done) { workshop with
        calls := workshop.calls ++ [.startCompute]
        executions := workshop.executions.set subject { execution with results } }
  | output {subject : Nat} {execution : Execution}
      (there : workshop.executions[subject]? = some execution) (index : UInt32) :
      Does workshop ⟨subject, .output index⟩ (.ok (.result (execution.output? index))) workshop

/-- The errand is one call of something that has to be there, made in one piece. -/
structure Attempts (workshop : Workshop) (errand : Errand) (subject : Option σ)
    (method : Recording σ α) (entry : α → Call) (back : Desk → σ → Desk) (put : Desk → α → Desk)
    (reply : α → Reply) : Prop where
  performs : (workshop.desk errand).perform errand.command =
    (workshop.desk errand).call subject method back put reply
  whole : ∀ thing, subject = some thing → method.Whole entry thing
  /-- It was taken from where it is put back. -/
  back : ∀ thing, subject = some thing → back (workshop.desk errand) thing = workshop.desk errand

section Attempts

variable {errand : Errand} {subject : Option σ} {method : Recording σ α} {entry : α → Call}
  {back : Desk → σ → Desk} {put : Desk → α → Desk} {reply : α → Reply}

theorem perform_of_absent
    (hattempts : workshop.Attempts errand subject method entry back put reply)
    (habsent : subject = none) : workshop.perform errand = (.error .nothingThere, workshop) := by
  rw [perform, hattempts.performs, habsent]
  exact congrArg (Prod.mk _) (clear_desk workshop errand)

theorem perform_of_error {thing : σ} {error : BackendError}
    (hattempts : workshop.Attempts errand subject method entry back put reply)
    (hthere : subject = some thing) (hrefused : method.outcome thing = .error error) :
    workshop.perform errand = (.error (.backend error), workshop) := by
  rw [perform, hattempts.performs, hthere,
    Desk.call_of_error (hattempts.whole thing hthere) hrefused, hattempts.back thing hthere]
  exact congrArg (Prod.mk _) (clear_desk workshop errand)

theorem perform_of_ok {thing changed : σ} {answer : α}
    (hattempts : workshop.Attempts errand subject method entry back put reply)
    (hthere : subject = some thing) (hgranted : method.outcome thing = .ok (answer, changed)) :
    workshop.perform errand = (.ok (reply answer), workshop.clear errand
      (put (back { workshop.desk errand with calls := workshop.calls ++ [entry answer] } changed)
        answer)) := by
  rw [perform, hattempts.performs, hthere,
    Desk.call_of_ok (hattempts.whole thing hthere) hgranted]
  rfl

/-- What is attempted has only to be followed to where it succeeds. -/
theorem does_of_attempts
    (hattempts : workshop.Attempts errand subject method entry back put reply)
    (hdone : ∀ thing answer changed, subject = some thing →
      method.outcome thing = .ok (answer, changed) →
        workshop.Does errand (.ok (reply answer)) (workshop.clear errand
          (put (back { workshop.desk errand with calls := workshop.calls ++ [entry answer] }
            changed) answer))) :
    workshop.Does errand (workshop.perform errand).1 (workshop.perform errand).2 := by
  cases hsubject : subject with
  | none =>
      rw [perform_of_absent hattempts hsubject]
      exact .refused errand .nothingThere
  | some thing =>
      cases houtcome : method.outcome thing with
      | error error =>
          rw [perform_of_error hattempts hsubject houtcome]
          exact .refused errand (.backend error)
      | ok granted =>
          rw [perform_of_ok hattempts hsubject houtcome]
          exact hdone thing granted.1 granted.2 hsubject houtcome

end Attempts

/-! ## Attempts on each kind of thing -/

section Kinds

variable {number : Nat} {command : Command} {entry : α → Call} {put : Desk → α → Desk}
  {reply : α → Reply}

theorem attempts_model {method : Recording Model α} (hkind : command.kind = .model)
    (hperforms : ∀ desk : Desk, desk.perform command = desk.callModel method put reply)
    (hwhole : ∀ model, workshop.models[number]? = some model → method.Whole entry model) :
    workshop.Attempts ⟨number, command⟩ workshop.models[number]? method entry Desk.withModel put
      reply := by
  have hdesk : (workshop.desk ⟨number, command⟩).model = workshop.models[number]? := if_pos hkind
  refine ⟨?_, hwhole, fun model hthere => Desk.withModel_self (hdesk.trans hthere)⟩
  rw [hperforms, Desk.callModel, hdesk]

theorem attempts_compilation {method : Recording Compilation α}
    (hkind : command.kind = .compilation)
    (hperforms : ∀ desk : Desk, desk.perform command = desk.callCompilation method put reply)
    (hwhole : ∀ compilation, method.Whole entry compilation) :
    workshop.Attempts ⟨number, command⟩ workshop.compilations[number]? method entry
      Desk.withCompilation put reply := by
  have hdesk : (workshop.desk ⟨number, command⟩).compilation = workshop.compilations[number]? :=
    if_pos hkind
  refine ⟨?_, fun compilation _ => hwhole compilation, fun compilation hthere =>
    Desk.withCompilation_self (hdesk.trans hthere)⟩
  rw [hperforms, Desk.callCompilation, hdesk]

theorem attempts_execution {method : Recording Execution α} (hkind : command.kind = .execution)
    (hperforms : ∀ desk : Desk, desk.perform command = desk.callExecution method put reply)
    (hwhole : ∀ execution, method.Whole entry execution) :
    workshop.Attempts ⟨number, command⟩ workshop.executions[number]? method entry
      Desk.withExecution put reply := by
  have hdesk : (workshop.desk ⟨number, command⟩).execution = workshop.executions[number]? :=
    if_pos hkind
  refine ⟨?_, fun execution _ => hwhole execution, fun execution hthere =>
    Desk.withExecution_self (hdesk.trans hthere)⟩
  rw [hperforms, Desk.callExecution, hdesk]

end Kinds

theorem attempts_createModel (number : Nat) (options : ModelOptions) :
    workshop.Attempts ⟨number, .createModel options⟩ (some ()) (Model.create options)
      (fun _ => .createModel options) Desk.passing Desk.withModel fun _ => .done :=
  ⟨rfl, fun _ _ => (Model.create_achieves options).whole, fun _ _ => rfl⟩

theorem attempts_request (number : Nat) (request : Request) :
    workshop.Attempts ⟨number, .request request⟩ workshop.models[number]? (Model.perform request)
      (Call.ofRequest request) Desk.withModel Desk.passing (Reply.ofAnswer request) :=
  attempts_model rfl (fun _ => rfl) fun model _ => model.perform_whole request

theorem attempts_finish (number : Nat) :
    workshop.Attempts ⟨number, .finish⟩ workshop.models[number]? Model.finish
      (fun _ => .finish) Desk.withModel Desk.passing fun _ => .done :=
  attempts_model rfl (fun _ => rfl) fun model _ => model.finish_achieves.whole

/-- A compilation of a sound model is attempted like everything else. -/
theorem attempts_createCompilation (hsound : ∀ model ∈ workshop.models, model.Sound)
    (number : Nat) :
    workshop.Attempts ⟨number, .createCompilation⟩ workshop.models[number]?
      Model.createCompilation (fun _ => .createCompilation) Desk.withModel Desk.withCompilation
      fun _ => .done :=
  attempts_model rfl (fun _ => rfl) fun model hthere =>
    (hsound model (List.mem_of_getElem? hthere)).createCompilation_achieves.whole

theorem attempts_setPreference (number : Nat) (preference : Preference) :
    workshop.Attempts ⟨number, .setPreference preference⟩ workshop.compilations[number]?
      (Compilation.setPreference preference) (fun _ => .setPreference preference)
      Desk.withCompilation Desk.passing fun _ => .done :=
  attempts_compilation rfl (fun _ => rfl) fun compilation =>
    (compilation.setPreference_achieves preference).whole

theorem attempts_finishCompilation (number : Nat) :
    workshop.Attempts ⟨number, .finishCompilation⟩ workshop.compilations[number]?
      Compilation.finish (fun _ => .finishCompilation) Desk.withCompilation Desk.passing
      fun _ => .done :=
  attempts_compilation rfl (fun _ => rfl) fun compilation => compilation.finish_achieves.whole

theorem attempts_createExecution (number : Nat) :
    workshop.Attempts ⟨number, .createExecution⟩ workshop.compilations[number]?
      Compilation.createExecution (fun _ => .createExecution) Desk.withCompilation
      Desk.withExecution fun _ => .done :=
  attempts_compilation rfl (fun _ => rfl) fun compilation =>
    compilation.createExecution_achieves.whole

theorem attempts_setInput (number : Nat) (index : UInt32) (buffer : Buffer) :
    workshop.Attempts ⟨number, .setInput index buffer⟩ workshop.executions[number]?
      (Execution.setInput index buffer) (fun _ => .setInput index buffer) Desk.withExecution
      Desk.passing fun _ => .done :=
  attempts_execution rfl (fun _ => rfl) fun execution =>
    (execution.setInput_achieves index buffer).whole

theorem attempts_setOutput (number : Nat) (index : UInt32) (buffer : Buffer) :
    workshop.Attempts ⟨number, .setOutput index buffer⟩ workshop.executions[number]?
      (Execution.setOutput index buffer) (fun _ => .setOutput index) Desk.withExecution
      Desk.passing fun _ => .done :=
  attempts_execution rfl (fun _ => rfl) fun execution =>
    (execution.setOutput_achieves index buffer).whole

theorem attempts_startCompute (number : Nat) :
    workshop.Attempts ⟨number, .startCompute⟩ workshop.executions[number]?
      Execution.startCompute (fun _ => .startCompute) Desk.withExecution Desk.passing
      fun _ => .done :=
  attempts_execution rfl (fun _ => rfl) fun execution => execution.startCompute_achieves.whole

/-- A look at a result is no attempt at anything: it leaves no entry. -/
theorem perform_output (number : Nat) (index : UInt32) :
    workshop.perform ⟨number, .output index⟩ =
      match workshop.executions[number]? with
      | some execution => (.ok (.result (execution.output? index)), workshop)
      | none => (.error .nothingThere, workshop) := by
  have hdesk : (workshop.desk ⟨number, .output index⟩).execution = workshop.executions[number]? :=
    rfl
  cases hthere : workshop.executions[number]? with
  | none =>
      have hcall : (workshop.desk ⟨number, .output index⟩).perform (.output index) =
          (.error .nothingThere, workshop.desk ⟨number, .output index⟩) := by
        rw [Desk.perform, Desk.callExecution, hdesk, hthere, Desk.call]
      rw [perform, hcall]
      exact congrArg (Prod.mk _) (clear_desk workshop _)
  | some execution =>
      have hcall : (workshop.desk ⟨number, .output index⟩).perform (.output index) =
          (.ok (.result (execution.output? index)), workshop.desk ⟨number, .output index⟩) := by
        rw [Desk.perform, Desk.callExecution, hdesk, hthere, Desk.call]
        exact congrArg (Prod.mk _) (Desk.withExecution_self (hdesk.trans hthere))
      rw [perform, hcall]
      exact congrArg (Prod.mk _) (clear_desk workshop _)

/-- Every errand to a workshop with sound models is one of these. -/
theorem does_perform (hsound : ∀ model ∈ workshop.models, model.Sound) (errand : Errand) :
    workshop.Does errand (workshop.perform errand).1 (workshop.perform errand).2 := by
  obtain ⟨subject, command⟩ := errand
  cases command with
  | createModel options =>
      refine does_of_attempts (attempts_createModel subject options) ?_
      rintro ⟨⟩ model ⟨⟩ - hcreated
      cases hcreated.symm.trans (Model.create_achieves options).outcome_eq
      have hdoes : workshop.Does _ _ _ := .createModel subject options
      simpa [clear, desk, Desk.withModel, Desk.passing, Command.kind, putBack] using hdoes
  | request request =>
      refine does_of_attempts (attempts_request subject request) ?_
      intro model answer changed hthere htaken
      have hdoes := Does.request hthere (Model.takes_of_perform htaken)
      simpa [clear, desk, Desk.withModel, Desk.passing, Command.kind, putBack, hthere] using hdoes
  | finish =>
      refine does_of_attempts (attempts_finish subject) ?_
      intro model _ changed hthere hfinish
      obtain rfl := Model.finish_eq_ok hfinish
      simpa [clear, desk, Desk.withModel, Desk.passing, Command.kind, putBack, hthere]
        using Does.finish hthere
  | createCompilation =>
      refine does_of_attempts (attempts_createCompilation hsound subject) ?_
      intro model compilation changed hthere hcreated
      obtain ⟨rfl, hresolved⟩ :=
        (hsound model (List.mem_of_getElem? hthere)).createCompilation_eq_ok hcreated
      have hdoes := Does.createCompilation hthere compilation hresolved
      simpa [clear, desk, Desk.withModel, Desk.withCompilation, Command.kind, putBack, hthere,
        set_self hthere] using hdoes
  | setPreference preference =>
      refine does_of_attempts (attempts_setPreference subject preference) ?_
      intro compilation _ changed hthere hset
      obtain rfl := Compilation.setPreference_eq_ok hset
      simpa [clear, desk, Desk.withCompilation, Desk.passing, Command.kind, putBack, hthere]
        using Does.setPreference hthere preference
  | finishCompilation =>
      refine does_of_attempts (attempts_finishCompilation subject) ?_
      intro compilation _ changed hthere hfinish
      obtain rfl := Compilation.finish_eq_ok hfinish
      simpa [clear, desk, Desk.withCompilation, Desk.passing, Command.kind, putBack, hthere]
        using Does.finishCompilation hthere
  | createExecution =>
      refine does_of_attempts (attempts_createExecution subject) ?_
      intro compilation execution changed hthere hcreated
      obtain ⟨rfl, rfl⟩ := Compilation.createExecution_eq_ok hcreated
      have hdoes := Does.createExecution hthere
      simpa [clear, desk, Desk.withCompilation, Desk.withExecution, Command.kind, putBack, hthere,
        set_self hthere] using hdoes
  | setInput index buffer =>
      refine does_of_attempts (attempts_setInput subject index buffer) ?_
      intro execution _ changed hthere hset
      obtain ⟨-, rfl⟩ := Execution.setInput_eq_ok hset
      simpa [clear, desk, Desk.withExecution, Desk.passing, Command.kind, putBack, hthere]
        using Does.setInput hthere index buffer
  | setOutput index buffer =>
      refine does_of_attempts (attempts_setOutput subject index buffer) ?_
      intro execution _ changed hthere hset
      obtain ⟨-, rfl⟩ := Execution.setOutput_eq_ok hset
      simpa [clear, desk, Desk.withExecution, Desk.passing, Command.kind, putBack, hthere]
        using Does.setOutput hthere index buffer
  | startCompute =>
      refine does_of_attempts (attempts_startCompute subject) ?_
      intro execution _ changed hthere hstarted
      obtain ⟨results, hcomplete, hcomputed, rfl⟩ := Execution.startCompute_eq_ok hstarted
      simpa [clear, desk, Desk.withExecution, Desk.passing, Command.kind, putBack, hthere]
        using Does.startCompute hthere hcomplete hcomputed
  | output index =>
      rw [perform_output]
      cases hthere : workshop.executions[subject]? with
      | none => exact .refused _ .nothingThere
      | some execution => exact .output hthere index

/-! ## What to expect -/

/-- A finished model is neither changed nor finished again. -/
theorem perform_of_finished {number : Nat} {model : Model}
    (hthere : workshop.models[number]? = some model) (hfinished : model.finished = true)
    {command : Command} (hcommand : command = .finish ∨ ∃ request, command = .request request) :
    workshop.perform ⟨number, command⟩ = (.error (.backend .alreadyFinished), workshop) := by
  rcases hcommand with rfl | ⟨request, rfl⟩
  · exact perform_of_error (attempts_finish number) hthere (Model.finish_of_finished hfinished)
  · exact perform_of_error (attempts_request number request) hthere
      (Model.perform_of_finished hfinished request)

theorem perform_createCompilation (hsound : ∀ model ∈ workshop.models, model.Sound) {number : Nat}
    {model : Model} (hthere : workshop.models[number]? = some model) :
    (workshop.perform ⟨number, .createCompilation⟩).1 =
      if model.finished then .ok .done else .error (.backend .notFinished) := by
  have hattempts := attempts_createCompilation hsound number
  have hmodel := hsound model (List.mem_of_getElem? hthere)
  obtain ⟨compilation, hresolved⟩ := hmodel.exists_resolveEnds
  have houtcome := hmodel.createCompilation_achieves.outcome_eq
  cases hfinished : model.finished with
  | false =>
      rw [hfinished] at houtcome
      rw [perform_of_error hattempts hthere houtcome]
      rfl
  | true =>
      rw [hfinished, hresolved] at houtcome
      rw [perform_of_ok hattempts hthere houtcome]
      rfl

theorem perform_of_finishedCompilation {number : Nat} {compilation : Compilation}
    (hthere : workshop.compilations[number]? = some compilation)
    (hfinished : compilation.finished = true) {command : Command}
    (hcommand : command = .finishCompilation ∨
      ∃ preference, command = .setPreference preference) :
    workshop.perform ⟨number, command⟩ = (.error (.backend .alreadyFinished), workshop) := by
  rcases hcommand with rfl | ⟨preference, rfl⟩
  · exact perform_of_error (attempts_finishCompilation number) hthere
      (Compilation.finish_of_finished hfinished)
  · exact perform_of_error (attempts_setPreference number preference) hthere
      (Compilation.setPreference_of_finished hfinished preference)

theorem perform_createExecution {number : Nat} {compilation : Compilation}
    (hthere : workshop.compilations[number]? = some compilation) :
    (workshop.perform ⟨number, .createExecution⟩).1 =
      if compilation.finished then .ok .done else .error (.backend .notFinished) := by
  have houtcome := compilation.createExecution_achieves.outcome_eq
  cases hfinished : compilation.finished with
  | false =>
      rw [hfinished] at houtcome
      rw [perform_of_error (attempts_createExecution number) hthere houtcome]
      rfl
  | true =>
      rw [hfinished] at houtcome
      rw [perform_of_ok (attempts_createExecution number) hthere houtcome]
      rfl

/-- A result can be looked at as soon as there is one, and looking changes nothing. -/
theorem perform_output_of_there {number : Nat} {execution : Execution}
    (hthere : workshop.executions[number]? = some execution) (index : UInt32) :
    workshop.perform ⟨number, .output index⟩ =
      (.ok (.result (execution.output? index)), workshop) := by
  rw [perform_output, hthere]

theorem Does.eq_of_refused {errand : Errand} {error : DeskError} {after : Workshop}
    (hdoes : workshop.Does errand (.error error) after) : after = workshop := by
  cases hdoes
  rfl

theorem Does.exists_call {errand : Errand} {reply : Reply} {after : Workshop}
    (hdoes : workshop.Does errand (.ok reply) after)
    (hacts : ∀ index, errand.command ≠ .output index) :
    ∃ call, after.calls = workshop.calls ++ [call] := by
  cases hdoes with
  | output _ index => exact absurd rfl (hacts index)
  | _ => exact ⟨_, rfl⟩

end Workshop

end NetLowering
