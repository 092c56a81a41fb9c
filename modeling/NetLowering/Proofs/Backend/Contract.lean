import Mathlib.Data.List.Induction
import NetLowering.Proofs.Backend.History

/-!
# What the backend promises

Whatever errands have been run on a fresh backend, the state of every model and
every compilation agrees with what it has been granted so far.  The account is
kept errand by errand; what the next errand may expect is read off it.
-/

namespace NetLowering.Workshop

variable {workshop after : Workshop}

/-! ## Accounts -/

/-- The operand that was added, with the index that was answered. -/
def Grant.added? : Grant → Option (OperandType × UInt32)
  | (.request (.addOperand type), .added index) => some (type, index)
  | _ => none

/-- The operand that was given a value. -/
def Grant.valued? : Grant → Option UInt32
  | (.request (.setValue index _), _) => some index
  | _ => none

/-- What has been granted to a model accounts for its state. -/
structure ModelAccount (grants : List Grant) (model : Model) : Prop where
  sound : model.Sound
  /-- New operands are numbered in the order in which they were asked for. -/
  numbered : grants.filterMap Grant.added? =
    model.operands.zipIdx.map fun (type, place) => (type, .ofNat place)
  valued : grants.filterMap Grant.valued? = model.valued.reverse
  finished : model.finished = true ↔ .finish ∈ grants.map Prod.fst

/-- What has been granted to a compilation tells whether it is finished. -/
def CompilationAccount (grants : List Grant) (compilation : Compilation) : Prop :=
  compilation.finished = true ↔ .finishCompilation ∈ grants.map Prod.fst

section ModelAccount

variable {grants : List Grant} {model changed : Model}

theorem ModelAccount.ofOptions (options : ModelOptions) : ModelAccount [] (.ofOptions options) :=
  ⟨Model.sound_ofOptions options, rfl, rfl, by simp [Model.ofOptions]⟩

theorem ModelAccount.takes (haccount : ModelAccount grants model) {request : Request}
    {answer : request.Answer} (htakes : model.Takes request answer changed) :
    ModelAccount (grants ++ [(.request request, .ofAnswer request answer)]) changed := by
  have hsound := haccount.sound.takes htakes
  obtain ⟨-, hnumbered, hvalued, hfinished⟩ := haccount
  refine ⟨hsound, ?_, ?_, ?_⟩
  · rw [List.filterMap_append, hnumbered]
    cases htakes <;> simp [Grant.added?, Reply.ofAnswer, List.zipIdx_append]
  · rw [List.filterMap_append, hvalued]
    cases htakes <;> simp [Grant.valued?]
  · have hsame : changed.finished = model.finished := by cases htakes <;> rfl
    rw [hsame, hfinished]
    simp

theorem ModelAccount.finish (haccount : ModelAccount grants model) :
    ModelAccount (grants ++ [(.finish, .done)]) { model with finished := true } := by
  obtain ⟨hsound, hnumbered, hvalued, -⟩ := haccount
  refine ⟨⟨hsound.known, hsound.once⟩, ?_, ?_, by simp⟩
  · simpa [List.filterMap_cons, Grant.added?] using hnumbered
  · simpa [List.filterMap_cons, Grant.valued?] using hvalued

theorem ModelAccount.createCompilation (haccount : ModelAccount grants model) :
    ModelAccount (grants ++ [(.createCompilation, .done)]) model := by
  obtain ⟨hsound, hnumbered, hvalued, hfinished⟩ := haccount
  refine ⟨hsound, ?_, ?_, by simpa using hfinished⟩
  · simpa [List.filterMap_cons, Grant.added?] using hnumbered
  · simpa [List.filterMap_cons, Grant.valued?] using hvalued

end ModelAccount

theorem CompilationAccount.createExecution {grants : List Grant} {compilation : Compilation}
    (haccount : CompilationAccount grants compilation) :
    CompilationAccount (grants ++ [(.createExecution, .done)]) compilation := by
  simpa [CompilationAccount] using haccount

/-- The workshop is accounted for by the entries. -/
structure Accounts (entries : List Entry) (workshop : Workshop) : Prop where
  models : Kept ModelAccount (granted entries .model) workshop.models
  compilations : Kept CompilationAccount (granted entries .compilation) workshop.compilations

theorem Accounts.sound {entries : List Entry} (haccounts : Accounts entries workshop) :
    ∀ model ∈ workshop.models, model.Sound := by
  intro model hmodel
  obtain ⟨number, hthere⟩ := List.mem_iff_getElem?.mp hmodel
  exact (haccounts.models.there hthere).sound

theorem Accounts.does {entries : List Entry} (haccounts : Accounts entries workshop)
    {errand : Errand} {reply : Except DeskError Reply}
    (hdoes : workshop.Does errand reply after) :
    Accounts (entries ++ [(errand, reply)]) after := by
  obtain ⟨hmodels, hcompilations⟩ := haccounts
  cases hdoes with
  | refused error =>
      constructor
      · rwa [granted_refused]
      · rwa [granted_refused]
  | createModel subject options =>
      constructor
      · rw [granted_other _ (by simp [Command.kind])]
        exact hmodels.append (.ofOptions options)
      · rwa [granted_other _ (by simp [Command.kind])]
  | request hthere htakes =>
      constructor
      · exact granted_ok entries ⟨_, .request _⟩ _ ▸ hmodels.set hthere (·.takes htakes)
      · rwa [granted_other _ (by simp [Command.kind])]
  | finish hthere =>
      constructor
      · exact granted_ok entries ⟨_, .finish⟩ _ ▸ hmodels.set hthere (·.finish)
      · rwa [granted_other _ (by simp [Command.kind])]
  | createCompilation hthere compilation hresolved =>
      have hblank : CompilationAccount [] compilation := by
        simp [CompilationAccount, Model.finished_of_resolveEnds hresolved]
      constructor
      · -- The model stays what it is, but one more thing has been granted to it.
        have hkept := hmodels.set hthere (·.createCompilation)
        rw [set_self hthere] at hkept
        exact granted_ok entries ⟨_, .createCompilation⟩ _ ▸ hkept
      · rw [granted_other _ (by simp [Command.kind])]
        exact hcompilations.append hblank
  | @setPreference subject compilation hthere preference =>
      constructor
      · rwa [granted_other _ (by simp [Command.kind])]
      · refine granted_ok entries ⟨_, .setPreference preference⟩ _ ▸ hcompilations.set hthere ?_
        simp [CompilationAccount]
  | finishCompilation hthere =>
      constructor
      · rwa [granted_other _ (by simp [Command.kind])]
      · refine granted_ok entries ⟨_, .finishCompilation⟩ _ ▸ hcompilations.set hthere ?_
        simp [CompilationAccount]
  | createExecution hthere =>
      constructor
      · rwa [granted_other _ (by simp [Command.kind])]
      · have hkept := hcompilations.set hthere (·.createExecution)
        rw [set_self hthere] at hkept
        exact granted_ok entries ⟨_, .createExecution⟩ _ ▸ hkept
  | setInput _ _ _ | setOutput _ _ _ | startCompute _ _ _ | output _ _ =>
      constructor
      · rwa [granted_other _ (by simp [Command.kind])]
      · rwa [granted_other _ (by simp [Command.kind])]

theorem accounts_serve (errands : List Errand) : Accounts (serve errands).1 (serve errands).2 := by
  induction errands using List.reverseRecOn with
  | nil => exact ⟨⟨by simp [serve], fun _ _ => rfl⟩, ⟨by simp [serve], fun _ _ => rfl⟩⟩
  | append_singleton errands errand ih =>
      rw [serve_concat]
      exact ih.does (does_perform ih.sound errand)

/-! ## The promise -/

/-- What can be said of a model that has been granted this much, and of what it is asked next. -/
structure ModelContract (workshop : Workshop) (number : Nat) (grants : List Grant)
    (model : Model) : Prop where
  account : ModelAccount grants model
  closed : .finish ∈ grants.map Prod.fst → ∀ command,
    (command = .finish ∨ ∃ request, command = .request request) →
      (workshop.perform ⟨number, command⟩).1 = .error (.backend .alreadyFinished)
  unfinished : .finish ∉ grants.map Prod.fst →
    (workshop.perform ⟨number, .createCompilation⟩).1 = .error (.backend .notFinished)
  /-- In particular its ends are never unknown. -/
  compilable : .finish ∈ grants.map Prod.fst →
    (workshop.perform ⟨number, .createCompilation⟩).1 = .ok .done

/-- What can be said of what a compilation that has been granted this much is asked next. -/
structure CompilationContract (workshop : Workshop) (number : Nat) (grants : List Grant) :
    Prop where
  closed : .finishCompilation ∈ grants.map Prod.fst → ∀ command,
    (command = .finishCompilation ∨ ∃ preference, command = .setPreference preference) →
      (workshop.perform ⟨number, command⟩).1 = .error (.backend .alreadyFinished)
  unfinished : .finishCompilation ∉ grants.map Prod.fst →
    (workshop.perform ⟨number, .createExecution⟩).1 = .error (.backend .notFinished)
  executable : .finishCompilation ∈ grants.map Prod.fst →
    (workshop.perform ⟨number, .createExecution⟩).1 = .ok .done

structure Contract (entries : List Entry) (workshop : Workshop) : Prop where
  models : ∀ number model, workshop.models[number]? = some model →
    ModelContract workshop number (granted entries .model number) model
  compilations : ∀ number compilation, workshop.compilations[number]? = some compilation →
    CompilationContract workshop number (granted entries .compilation number)
  refused : ∀ errand error, (workshop.perform errand).1 = .error error →
    (workshop.perform errand).2 = workshop
  /-- One line for every command that is carried out, but none for a look at a result. -/
  logged : ∀ errand reply, (∀ index, errand.command ≠ .output index) →
    (workshop.perform errand).1 = .ok reply →
      ∃ call, (workshop.perform errand).2.calls = workshop.calls ++ [call]
  looked : ∀ number index, (workshop.perform ⟨number, .output index⟩).2 = workshop

theorem ModelAccount.contract {number : Nat} {grants : List Grant} {model : Model}
    (haccount : ModelAccount grants model) (hsound : ∀ model ∈ workshop.models, model.Sound)
    (hthere : workshop.models[number]? = some model) :
    ModelContract workshop number grants model := by
  have hcreate := perform_createCompilation hsound hthere
  have hfinished := haccount.finished
  refine ⟨haccount, ?_, ?_, ?_⟩
  · intro hfinish command hcommand
    rw [perform_of_finished hthere (hfinished.mpr hfinish) hcommand]
  · intro hfinish
    rw [hcreate, if_neg (mt hfinished.mp hfinish)]
  · intro hfinish
    rw [hcreate, if_pos (hfinished.mpr hfinish)]

theorem CompilationAccount.contract {number : Nat} {grants : List Grant}
    {compilation : Compilation} (haccount : CompilationAccount grants compilation)
    (hthere : workshop.compilations[number]? = some compilation) :
    CompilationContract workshop number grants := by
  have hcreate := perform_createExecution hthere
  refine ⟨?_, ?_, ?_⟩
  · intro hfinish command hcommand
    rw [perform_of_finishedCompilation hthere (haccount.mpr hfinish) hcommand]
  · intro hfinish
    rw [hcreate, if_neg (mt haccount.mp hfinish)]
  · intro hfinish
    rw [hcreate, if_pos (haccount.mpr hfinish)]

/-- The backend keeps its promises whatever it has been asked before. -/
theorem serve_contract (errands : List Errand) : Contract (serve errands).1 (serve errands).2 := by
  have haccounts := accounts_serve errands
  have hdoes := does_perform haccounts.sound
  constructor
  · intro number model hthere
    exact (haccounts.models.there hthere).contract haccounts.sound hthere
  · intro number compilation hthere
    exact (haccounts.compilations.there hthere).contract hthere
  · intro errand error hreply
    exact (hreply ▸ hdoes errand).eq_of_refused
  · intro errand reply hacts hreply
    exact (hreply ▸ hdoes errand).exists_call hacts
  · intro number index
    rw [perform_output]
    split <;> rfl

end NetLowering.Workshop
