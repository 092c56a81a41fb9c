import NetLowering.Proofs.Backend.Computing
import NetLowering.Proofs.Backend.Contract

/-!
# What an execution remembers

An execution is asked in any order to take buffers, to compute and to show its results, and
it refuses what does not fit.  All that it does can be told from what it has been granted.
It computes once every slot has been given a buffer, and it shows what the last computation
found in the slots of the outputs, whatever has been put there since and whatever else is
done on the backend.
-/

namespace NetLowering

/-! ## What was put last -/

namespace Command

/-- The buffer that is put into this input. -/
def input? (slot : Nat) : Command → Option Buffer
  | setInput index buffer => if index.toNat = slot then some buffer else none
  | _ => none

/-- The element type of the buffer that is put into this output. -/
def outputType? (slot : Nat) : Command → Option ElemType
  | setOutput index buffer => if index.toNat = slot then some buffer.elemType else none
  | _ => none

theorem isSome_input?_iff {slot : Nat} {command : Command} :
    (command.input? slot).isSome ↔
      ∃ index buffer, index.toNat = slot ∧ command = .setInput index buffer := by
  cases command with
  | setInput index buffer => by_cases hslot : index.toNat = slot <;> simp [input?, hslot]
  | _ => simp [input?]

theorem isSome_outputType?_iff {slot : Nat} {command : Command} :
    (command.outputType? slot).isSome ↔
      ∃ index buffer, index.toNat = slot ∧ command = .setOutput index buffer := by
  cases command with
  | setOutput index buffer => by_cases hslot : index.toNat = slot <;> simp [outputType?, hslot]
  | _ => simp [outputType?]

variable {γ : Type} {pick : Command → Option γ} {commands : List Command} {command : Command}

/-- What the last command of those that are picked has put somewhere. -/
def last? (pick : Command → Option γ) (commands : List Command) : Option γ :=
  commands.reverse.findSome? pick

theorem last?_concat :
    last? pick (commands ++ [command]) = (pick command).or (last? pick commands) := by
  rw [last?, List.reverse_concat, List.findSome?_cons, last?]
  cases pick command <;> rfl

/-- Something has been put there just when one of the commands has put it there. -/
theorem isSome_last?_iff {slot : Nat} {put : UInt32 → Buffer → Command}
    (hpick : ∀ command, (pick command).isSome ↔
      ∃ index buffer, index.toNat = slot ∧ command = put index buffer) :
    (last? pick commands).isSome ↔
      ∃ index buffer, index.toNat = slot ∧ put index buffer ∈ commands := by
  simp only [last?, List.isSome_findSome?, List.any_eq_true, List.mem_reverse, hpick]
  constructor
  · rintro ⟨_, hmem, index, buffer, hslot, rfl⟩
    exact ⟨index, buffer, hslot, hmem⟩
  · rintro ⟨index, buffer, hslot, hmem⟩
    exact ⟨put index buffer, hmem, index, buffer, hslot, rfl⟩

end Command

/-! ## Slots -/

section Slots

variable {γ : Type} {count place : Nat}

/-- A slot for each of so many places. -/
def slots (count : Nat) (content : Nat → Option γ) : List (Option γ) :=
  (List.range count).map content

@[simp] theorem length_slots {content : Nat → Option γ} : (slots count content).length = count := by
  simp [slots]

theorem set_slots {before after : Nat → Option γ} {value : Option γ} (hset : after place = value)
    (hother : ∀ other, other ≠ place → after other = before other) :
    (slots count before).set place value = slots count after := by
  refine List.ext_getElem (by simp) fun other _ _ => ?_
  rw [List.getElem_set]
  split
  · rename_i hplace
    simp [slots, ← hplace, hset]
  · rename_i hplace
    simp [slots, hother other (Ne.symm hplace)]

theorem slots_complete_iff {content : Nat → Option γ} :
    (slots count content).findIdx? Option.isNone = none ↔
      ∀ place < count, (content place).isSome := by
  simp [slots, Option.isSome_iff_ne_none]

end Slots

namespace Workshop

/-! ## Results -/

/-- The results are those of the last start that was granted, and of the outputs as they were set
at that moment. -/
structure Shows (types : List OperandType) (commands : List Command) (results : List Buffer) :
    Prop where
  idle : .startCompute ∉ commands → results = []
  computed : ∀ before later, commands = before ++ .startCompute :: later →
    .startCompute ∉ later → ∀ (slot : Nat) (type : OperandType), types[slot]? = some type →
      ∃ elem, Command.last? (Command.outputType? slot) before = some elem ∧
        results[slot]? = some (.zeros elem type.elements)

namespace Shows

variable {types : List OperandType} {commands : List Command} {results : List Buffer}
  {command : Command}

theorem concat (hshows : Shows types commands results) (hother : command ≠ .startCompute) :
    Shows types (commands ++ [command]) results := by
  refine ⟨fun hnone => hshows.idle fun hstarted => hnone (List.mem_append_left _ hstarted), ?_⟩
  intro before later hcommands hlast
  rcases Checked.concat_eq_moment_iff.mp hcommands with ⟨-, hstart, -⟩ | ⟨rest, rfl, hrest⟩
  · exact absurd hstart hother
  · exact hshows.computed before rest hrest fun hstarted =>
      hlast (List.mem_append_left _ hstarted)

theorem start (hresults : ∀ (slot : Nat) (type : OperandType), types[slot]? = some type →
      ∃ elem, Command.last? (Command.outputType? slot) commands = some elem ∧
        results[slot]? = some (.zeros elem type.elements)) :
    Shows types (commands ++ [.startCompute]) results := by
  refine ⟨fun hnone => absurd (by simp) hnone, ?_⟩
  intro before later hcommands hlast
  rcases Checked.concat_eq_moment_iff.mp hcommands with ⟨rfl, -, -⟩ | ⟨rest, rfl, -⟩
  · exact hresults
  · simp at hlast

end Shows

/-! ## Accounts -/

/-- What the slots hold and what the results are, after all that was granted. -/
structure Remembers (commands : List Command) (execution : Execution) : Prop where
  inputs : execution.inputs =
    slots execution.inputTypes.length fun slot => Command.last? (Command.input? slot) commands
  outputs : execution.outputs =
    slots execution.outputTypes.length fun slot =>
      Command.last? (Command.outputType? slot) commands
  shows : Shows execution.outputTypes commands execution.results

namespace Remembers

variable {commands : List Command} {execution : Execution}

theorem slotted (hremembers : Remembers commands execution) : execution.Slotted :=
  ⟨by rw [hremembers.inputs, length_slots], by rw [hremembers.outputs, length_slots]⟩

theorem setInput (hremembers : Remembers commands execution) (index : UInt32) (buffer : Buffer) :
    Remembers (commands ++ [.setInput index buffer])
      { execution with inputs := execution.inputs.set index.toNat (some buffer) } := by
  obtain ⟨hinputs, houtputs, hshows⟩ := hremembers
  refine ⟨?_, ?_, hshows.concat (by simp)⟩
  · change execution.inputs.set index.toNat (some buffer) = _
    rw [hinputs]
    refine set_slots ?_ fun other hother => ?_
    · simp [Command.last?_concat, Command.input?]
    · simp [Command.last?_concat, Command.input?, Ne.symm hother]
  · simpa [Command.last?_concat, Command.outputType?] using houtputs

theorem setOutput (hremembers : Remembers commands execution) (index : UInt32)
    (buffer : Buffer) :
    Remembers (commands ++ [.setOutput index buffer])
      { execution with outputs := execution.outputs.set index.toNat (some buffer.elemType) } := by
  obtain ⟨hinputs, houtputs, hshows⟩ := hremembers
  refine ⟨?_, ?_, hshows.concat (by simp)⟩
  · simpa [Command.last?_concat, Command.input?] using hinputs
  · change execution.outputs.set index.toNat (some buffer.elemType) = _
    rw [houtputs]
    refine set_slots ?_ fun other hother => ?_
    · simp [Command.last?_concat, Command.outputType?]
    · simp [Command.last?_concat, Command.outputType?, Ne.symm hother]

theorem missing?_eq_none_iff (hremembers : Remembers commands execution) :
    execution.missing? = none ↔
    (∀ slot < execution.inputTypes.length,
      ∃ index buffer, index.toNat = slot ∧ .setInput index buffer ∈ commands) ∧
    (∀ slot < execution.outputTypes.length,
      ∃ index buffer, index.toNat = slot ∧ .setOutput index buffer ∈ commands) := by
  rw [Execution.missing?_eq_none_iff, hremembers.inputs, hremembers.outputs, slots_complete_iff,
    slots_complete_iff]
  simp only [Command.isSome_last?_iff fun _ => Command.isSome_input?_iff,
    Command.isSome_last?_iff fun _ => Command.isSome_outputType?_iff]

theorem startCompute (hremembers : Remembers commands execution) {results : List Buffer}
    (hcomputed : execution.zeros = .ok results) :
    Remembers (commands ++ [.startCompute]) { execution with results } := by
  have hset : execution.outputs.findIdx? Option.isNone = none := by
    cases hunset : execution.outputs.findIdx? Option.isNone with
    | none => rfl
    | some index =>
        cases hcomputed.symm.trans (Execution.zeros_of_unset hremembers.slotted hunset)
  obtain ⟨shown, hzeros, hshown⟩ := Execution.zeros_of_set hremembers.slotted hset
  cases hcomputed.symm.trans hzeros
  obtain ⟨hinputs, houtputs, -⟩ := hremembers
  refine ⟨?_, ?_, .start fun slot type htype => ?_⟩
  · simpa [Command.last?_concat, Command.input?] using hinputs
  · simpa [Command.last?_concat, Command.outputType?] using houtputs
  · rw [houtputs, slots_complete_iff] at hset
    have hslot := (List.getElem?_eq_some_iff.mp htype).1
    obtain ⟨elem, helem⟩ := Option.isSome_iff_exists.mp (hset slot hslot)
    refine ⟨elem, helem, hshown slot elem type ?_ htype⟩
    rw [houtputs, slots, List.getElem?_map, List.getElem?_range hslot, Option.map_some, helem]

theorem output (hremembers : Remembers commands execution) (index : UInt32) :
    Remembers (commands ++ [.output index]) execution := by
  obtain ⟨hinputs, houtputs, hshows⟩ := hremembers
  refine ⟨?_, ?_, hshows.concat (by simp)⟩
  · simpa [Command.last?_concat, Command.input?] using hinputs
  · simpa [Command.last?_concat, Command.outputType?] using houtputs

theorem blank (compilation : Compilation) : Remembers [] compilation.blankExecution := by
  refine ⟨?_, ?_, fun _ => rfl, by simp⟩
  · simp [Compilation.blankExecution, slots, Command.last?]
  · simp [Compilation.blankExecution, slots, Command.last?]

end Remembers

/-- What has been granted to an execution accounts for its state. -/
def ExecutionAccount (grants : List Grant) (execution : Execution) : Prop :=
  Remembers (grants.map Prod.fst) execution

variable {workshop after : Workshop} {errand : Errand} {reply : Except DeskError Reply}

theorem executions_does {entries : List Entry}
    (hkept : Kept ExecutionAccount (granted entries .execution) workshop.executions)
    (hdoes : workshop.Does errand reply after) :
    Kept ExecutionAccount (granted (entries ++ [(errand, reply)]) .execution)
      after.executions := by
  cases hdoes with
  | refused error => rwa [granted_refused]
  | createModel _ _ | request _ _ | finish _ | createCompilation _ _ _ | setPreference _ _
  | finishCompilation _ => rwa [granted_other _ (by simp [Command.kind])]
  | @createExecution _ compilation _ =>
      rw [granted_other _ (by simp [Command.kind])]
      exact hkept.append (.blank compilation)
  | setInput hthere index buffer =>
      refine granted_ok entries ⟨_, .setInput index buffer⟩ _ ▸ hkept.set hthere ?_
      simpa [ExecutionAccount] using fun haccount => haccount.setInput index buffer
  | setOutput hthere index buffer =>
      refine granted_ok entries ⟨_, .setOutput index buffer⟩ _ ▸ hkept.set hthere ?_
      simpa [ExecutionAccount] using fun haccount => haccount.setOutput index buffer
  | startCompute hthere _ hcomputed =>
      refine granted_ok entries ⟨_, .startCompute⟩ _ ▸ hkept.set hthere ?_
      simpa [ExecutionAccount] using fun haccount => haccount.startCompute hcomputed
  | @output subject execution hthere index =>
      -- A look is granted as well, but it leaves the execution where it was.
      have hlook {grants : List Grant} (haccount : ExecutionAccount grants execution) :
          ExecutionAccount (grants ++ [(.output index, .result (execution.output? index))])
            execution := by
        simpa [ExecutionAccount] using Remembers.output haccount index
      have hset := hkept.set hthere hlook
      rw [set_self hthere] at hset
      exact granted_ok entries ⟨_, .output index⟩ _ ▸ hset

theorem executions_serve (errands : List Errand) :
    Kept ExecutionAccount (granted (serve errands).1 .execution) (serve errands).2.executions := by
  induction errands using List.reverseRecOn with
  | nil => exact ⟨by simp [serve], fun _ _ => rfl⟩
  | append_singleton errands errand ih =>
      rw [serve_concat]
      -- That the models are sound is what the account of the same history says.
      exact executions_does ih (does_perform (accounts_serve errands).sound errand)

/-! ## What stays -/

private theorem exists_set {β : Type} {Holds : β → Prop} {things : List β} {place number : Nat}
    {old new thing : β} (hplace : things[place]? = some old)
    (hthere : things[number]? = some thing) (hnew : place = number → Holds new)
    (hold : Holds thing) : ∃ found, (things.set place new)[number]? = some found ∧ Holds found := by
  by_cases hnumber : place = number
  · subst hnumber
    have hlength := (List.getElem?_eq_some_iff.mp hplace).1
    exact ⟨new, List.getElem?_set_self hlength, hnew rfl⟩
  · exact ⟨thing, by rw [List.getElem?_set_ne hnumber, hthere], hold⟩

/-- The one is of the same types as the other, and if all is quiet it shows the same results. -/
structure Continues (quiet : Prop) (execution other : Execution) : Prop where
  inputTypes : other.inputTypes = execution.inputTypes
  outputTypes : other.outputTypes = execution.outputTypes
  results : quiet → other.results = execution.results

/-- Nothing ever changes the types of an execution, and only a computation of its own makes new
results in it. -/
theorem Does.continues {number : Nat} {execution : Execution}
    (hthere : workshop.executions[number]? = some execution)
    (hdoes : workshop.Does errand reply after) :
    ∃ other, after.executions[number]? = some other ∧
      Continues (errand = ⟨number, .startCompute⟩ → ∃ error, reply = .error error)
        execution other := by
  cases hdoes with
  | refused _ _ | createModel _ _ | request _ _ | finish _ | createCompilation _ _ _
  | setPreference _ _ | finishCompilation _ | output _ _ =>
      exact ⟨_, hthere, rfl, rfl, fun _ => rfl⟩
  | createExecution _ =>
      refine ⟨execution, ?_, rfl, rfl, fun _ => rfl⟩
      rw [List.getElem?_append_left (List.getElem?_eq_some_iff.mp hthere).1, hthere]
  | setInput hsubject _ _ =>
      refine exists_set hsubject hthere (fun hnumber => ?_) ⟨rfl, rfl, fun _ => rfl⟩
      cases hthere.symm.trans (hnumber ▸ hsubject)
      exact ⟨rfl, rfl, fun _ => rfl⟩
  | setOutput hsubject _ _ =>
      refine exists_set hsubject hthere (fun hnumber => ?_) ⟨rfl, rfl, fun _ => rfl⟩
      cases hthere.symm.trans (hnumber ▸ hsubject)
      exact ⟨rfl, rfl, fun _ => rfl⟩
  | startCompute hsubject _ _ =>
      refine exists_set hsubject hthere (fun hnumber => ?_) ⟨rfl, rfl, fun _ => rfl⟩
      cases hthere.symm.trans (hnumber ▸ hsubject)
      refine ⟨rfl, rfl, fun hquiet => ?_⟩
      obtain ⟨error, herror⟩ := hquiet (by rw [hnumber])
      cases herror

/-! ## Executions -/

theorem perform_startCompute_iff {number : Nat} {execution : Execution}
    (hthere : workshop.executions[number]? = some execution) (hslotted : execution.Slotted) :
    (workshop.perform ⟨number, .startCompute⟩).1 = .ok .done ↔ execution.missing? = none := by
  cases hmissing : execution.missing? with
  | some error =>
      have hrefused := Execution.startCompute_of_missing hslotted hmissing
      rw [perform_of_error (attempts_startCompute number) hthere hrefused]
      simp
  | none =>
      obtain ⟨results, hgranted, -⟩ := Execution.startCompute_of_complete hslotted hmissing
      rw [perform_of_ok (attempts_startCompute number) hthere hgranted]
      simp

/-- The execution goes by what it has been granted, and by nothing else. -/
structure GoesByGrants (workshop : Workshop) (number : Nat) (execution : Execution)
    (commands : List Command) : Prop where
  starts : (workshop.perform ⟨number, .startCompute⟩).1 = .ok .done ↔
    (∀ slot < execution.inputTypes.length,
      ∃ index buffer, index.toNat = slot ∧ .setInput index buffer ∈ commands) ∧
    (∀ slot < execution.outputTypes.length,
      ∃ index buffer, index.toNat = slot ∧ .setOutput index buffer ∈ commands)
  idle : .startCompute ∉ commands → ∀ index,
    (workshop.perform ⟨number, .output index⟩).1 = .ok (.result none)
  computed : ∀ before later, commands = before ++ .startCompute :: later →
    .startCompute ∉ later → ∀ (index : UInt32) (type : OperandType),
      execution.outputTypes[index.toNat]? = some type →
        ∃ elem, Command.last? (Command.outputType? index.toNat) before = some elem ∧
          (workshop.perform ⟨number, .output index⟩).1 =
            .ok (.result (some (.zeros elem type.elements)))
  /-- Whatever is done on the backend, it stays of the same types, -/
  lasting : ∀ errand, ∃ other, (workshop.perform errand).2.executions[number]? = some other ∧
    other.inputTypes = execution.inputTypes ∧ other.outputTypes = execution.outputTypes
  /-- and shows the same, unless it computes. -/
  steady : ∀ errand,
    (errand = ⟨number, .startCompute⟩ → ∃ error, (workshop.perform errand).1 = .error error) →
    ∀ index, ((workshop.perform errand).2.perform ⟨number, .output index⟩).1 =
      (workshop.perform ⟨number, .output index⟩).1

/-- Whatever has been done on a fresh backend, every execution goes by what it has been granted. -/
theorem serve_goesByGrants (errands : List Errand) (number : Nat) (execution : Execution)
    (hthere : (serve errands).2.executions[number]? = some execution) :
    GoesByGrants (serve errands).2 number execution
      ((granted (serve errands).1 .execution number).map Prod.fst) := by
  have hremembers : Remembers _ execution := (executions_serve errands).there hthere
  have hdoes := does_perform (accounts_serve errands).sound
  refine ⟨?_, fun hnone index => ?_, ?_, fun errand => ?_, fun errand hquiet index => ?_⟩
  · rw [perform_startCompute_iff hthere hremembers.slotted, hremembers.missing?_eq_none_iff]
  · rw [perform_output_of_there hthere, Execution.output?, hremembers.shows.idle hnone]
    rfl
  · intro before later hcommands hlast index type htype
    obtain ⟨elem, helem, hshown⟩ :=
      hremembers.shows.computed before later hcommands hlast index.toNat type htype
    exact ⟨elem, helem, by rw [perform_output_of_there hthere, Execution.output?, hshown]⟩
  · obtain ⟨other, hfound, hinputTypes, houtputTypes, -⟩ := (hdoes errand).continues hthere
    exact ⟨other, hfound, hinputTypes, houtputTypes⟩
  · obtain ⟨other, hfound, -, -, hresults⟩ := (hdoes errand).continues hthere
    rw [perform_output_of_there hthere, perform_output_of_there hfound, Execution.output?,
      Execution.output?, hresults hquiet]

def twoBytes : OperandType := .quantized .tensorQuant8Asymm [2] .one 0

/-- Two bytes go in and two come out.  The output is set anew after the computation, and an input
that does not fit is refused. -/
def bytesSetAnew : List Errand :=
  [.createModel {}, .request (.addOperand twoBytes), .request (.identify [0] [0]), .finish,
    .createCompilation, .finishCompilation, .createExecution, .startCompute,
    .setInput 0 (.int8 #[1, 2]), .setOutput 0 (.uint8 #[3, 4]), .startCompute,
    .setOutput 0 (.int8 #[5, 6]), .setInput 0 (.uint8 #[7]), .output 0].map (⟨0, ·⟩)

theorem serve_goesByGrants_bytesSetAnew :
    ∃ execution, (serve bytesSetAnew).2.executions[0]? = some execution ∧
      execution.outputTypes = [twoBytes] ∧
      (granted (serve bytesSetAnew).1 .execution 0).map Prod.fst =
        [.setInput 0 (.int8 #[1, 2]), .setOutput 0 (.uint8 #[3, 4]), .startCompute,
          .setOutput 0 (.int8 #[5, 6]), .output 0] ∧
      ((serve bytesSetAnew).2.perform ⟨0, .output 0⟩).1 =
        .ok (.result (some (.zeros .uint8 2))) := by
  have hserved : (serve bytesSetAnew).2.executions.map Execution.outputTypes = [[twoBytes]] ∧
      (granted (serve bytesSetAnew).1 .execution 0).map Prod.fst =
        [.setInput 0 (.int8 #[1, 2]), .setOutput 0 (.uint8 #[3, 4]), .startCompute,
          .setOutput 0 (.int8 #[5, 6]), .output 0] := by
    decide +kernel
  obtain ⟨htypes, hgranted⟩ := hserved
  obtain ⟨execution, hexecutions, houtputs⟩ := List.map_eq_singleton_iff.mp htypes
  have hthere : (serve bytesSetAnew).2.executions[0]? = some execution := by rw [hexecutions]; rfl
  have hgoes := serve_goesByGrants bytesSetAnew 0 execution hthere
  obtain ⟨elem, helem, hshown⟩ := hgoes.computed
    [.setInput 0 (.int8 #[1, 2]), .setOutput 0 (.uint8 #[3, 4])]
    [.setOutput 0 (.int8 #[5, 6]), .output 0] hgranted (by decide) 0 twoBytes
    (by rw [houtputs]; rfl)
  cases helem
  exact ⟨execution, hthere, houtputs, hgranted, hshown⟩

end Workshop

end NetLowering
