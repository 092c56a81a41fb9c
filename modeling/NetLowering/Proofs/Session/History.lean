import Mathlib.Data.List.Induction
import NetLowering.Proofs.Session.Binding
import NetLowering.Proofs.Session.Creation

/-!
# What earlier computations leave behind

The execution of a session keeps what it is given: a call that leaves out a
slot computes with what an earlier call since the last creation put there.
This is all that earlier calls can do.  `Recalls` is the invariant: a slot is
filled just when one of these calls has filled it.
-/

namespace NetLowering

/-! ## Slots -/

def Filled {γ : Type} (slots : List (Option γ)) (index : Nat) : Prop :=
  ∃ content, slots[index]? = some (some content)

section Slots

variable {β γ : Type} {slots : List (Option γ)} {content : β → Option γ} {items : List β}

theorem filled_overlay_iff (hcontent : ∀ item, (content item).isSome) {index : Nat} :
    Filled (items.map content ++ slots.drop items.length) index ↔
      index < items.length ∨ Filled slots index := by
  by_cases hindex : index < items.length
  · obtain ⟨held, hheld⟩ := Option.isSome_iff_exists.mp (hcontent items[index])
    simp [Filled, List.getElem?_append_left, hindex, hheld]
  · have hlater : items.length + (index - items.length) = index := by omega
    simp [Filled, List.getElem?_append_right, hindex, Nat.le_of_not_lt, hlater]

theorem not_filled_iff {index : Nat} (hindex : index < slots.length) :
    ¬Filled slots index ↔ slots[index].isNone = true := by
  rw [Filled, List.getElem?_eq_getElem hindex]
  cases slots[index] <;> simp

theorem complete_iff :
    slots.findIdx? Option.isNone = none ↔ ∀ index < slots.length, Filled slots index := by
  rw [List.findIdx?_eq_none_iff, List.forall_mem_iff_getElem]
  refine forall₂_congr fun index hindex => ?_
  rw [← Bool.not_eq_true, ← not_filled_iff hindex, not_not]

theorem first_unfilled_iff {index : Nat} :
    slots.findIdx? Option.isNone = some index ↔
      index < slots.length ∧ ¬Filled slots index ∧ ∀ earlier < index, Filled slots earlier := by
  rw [List.findIdx?_eq_some_iff_getElem]
  constructor
  · rintro ⟨hindex, hnone, hearlier⟩
    refine ⟨hindex, (not_filled_iff hindex).mpr hnone, ?_⟩
    intro earlier hlt
    by_contra hunfilled
    exact hearlier earlier hlt ((not_filled_iff (by omega)).mp hunfilled)
  · rintro ⟨hindex, hunfilled, hearlier⟩
    refine ⟨hindex, (not_filled_iff hindex).mp hunfilled, ?_⟩
    intro earlier hlt hnone
    exact (not_filled_iff (by omega)).mpr hnone (hearlier earlier hlt)

private theorem length_overlay (hlength : items.length ≤ slots.length) :
    (items.map content ++ slots.drop items.length).length = slots.length := by
  rw [List.length_append, List.length_map, List.length_drop]
  omega

theorem overlay_complete_iff (hcontent : ∀ item, (content item).isSome)
    (hlength : items.length ≤ slots.length) :
    (items.map content ++ slots.drop items.length).findIdx? Option.isNone = none ↔
      ∀ index, items.length ≤ index → index < slots.length → Filled slots index := by
  rw [complete_iff, length_overlay hlength]
  refine forall_congr' fun index => ?_
  rw [filled_overlay_iff hcontent]
  constructor
  · intro hfilled hle hindex
    exact (hfilled hindex).resolve_left (by omega)
  · intro hfilled hindex
    by_cases hlt : index < items.length
    · exact .inl hlt
    · exact .inr (hfilled (by omega) hindex)

/-- The first slot that is left out is the first without content, if it has none. -/
theorem overlay_first_iff (hcontent : ∀ item, (content item).isSome)
    (hlength : items.length < slots.length) :
    (items.map content ++ slots.drop items.length).findIdx? Option.isNone = some items.length ↔
      ¬Filled slots items.length := by
  rw [first_unfilled_iff, length_overlay (Nat.le_of_lt hlength), filled_overlay_iff hcontent]
  constructor
  · rintro ⟨-, hunfilled, -⟩ hfilled
    exact hunfilled (.inr hfilled)
  · intro hunfilled
    refine ⟨hlength, by simpa using hunfilled, fun index hindex => ?_⟩
    exact (filled_overlay_iff hcontent).mpr (.inl hindex)

end Slots

/-! ## What is recalled -/

structure Computation where
  inputs : List Buffer
  outputs : List Buffer

namespace Computation

/-- Whether the computation gets as far as this input. -/
def BindsInput (computation : Computation) (execution : Execution) (index : Nat) : Prop :=
  index < computation.inputs.length ∧
    Fit execution.inputTypes 0 (computation.inputs.take (index + 1))

/-- Whether the computation gets as far as this output, which is after all inputs. -/
def BindsOutput (computation : Computation) (execution : Execution) (index : Nat) : Prop :=
  Fit execution.inputTypes 0 computation.inputs ∧ index < computation.outputs.length ∧
    Fit execution.outputTypes 0 (computation.outputs.take (index + 1))

end Computation

/-- The slots that hold something are those that the earlier computations have bound. -/
structure Recalls (earlier : List Computation) (execution : Execution) : Prop where
  slotted : execution.Slotted
  inputs : ∀ index, Filled execution.inputs index ↔
    ∃ computation ∈ earlier, computation.BindsInput execution index
  outputs : ∀ index, Filled execution.outputs index ↔
    ∃ computation ∈ earlier, computation.BindsOutput execution index

variable {earlier : List Computation} {execution : Execution}

section Binding

variable (computation : Computation)

private theorem inputTypes_binding (execution : Execution) :
    (execution.binding computation.inputs computation.outputs).inputTypes =
      execution.inputTypes := by
  rw [Execution.binding]
  split <;> rfl

private theorem outputTypes_binding (execution : Execution) :
    (execution.binding computation.inputs computation.outputs).outputTypes =
      execution.outputTypes := by
  rw [Execution.binding]
  split <;> rfl

theorem filled_inputs_binding_iff {index : Nat} :
    Filled (execution.binding computation.inputs computation.outputs).inputs index ↔
      Filled execution.inputs index ∨ computation.BindsInput execution index := by
  have hinputs : (execution.binding computation.inputs computation.outputs).inputs =
      (execution.withInputs (takeFitting execution.inputTypes 0 computation.inputs).1).inputs := by
    rw [Execution.binding]
    split <;> rfl
  rw [hinputs, Execution.withInputs, filled_overlay_iff fun _ => rfl,
    lt_length_takeFitting_iff, or_comm]
  rfl

theorem filled_outputs_binding_iff {index : Nat} :
    Filled (execution.binding computation.inputs computation.outputs).outputs index ↔
      Filled execution.outputs index ∨ computation.BindsOutput execution index := by
  rw [Execution.binding, Computation.BindsOutput, ← takeFitting_eq_ok_iff]
  cases hfit : (takeFitting execution.inputTypes 0 computation.inputs).2 with
  | error error => simp [Execution.withInputs]
  | ok _ =>
      simp only [Execution.withOutputs, Execution.outputTypes_withInputs]
      rw [filled_overlay_iff fun _ => rfl, lt_length_takeFitting_iff, or_comm]
      simp [Execution.withInputs]

end Binding

theorem Recalls.of_blank (hblank : execution.Blank) : Recalls [] execution := by
  obtain ⟨hinputs, houtputs⟩ := hblank
  refine ⟨⟨?_, ?_⟩, fun index => ?_, fun index => ?_⟩
  · rw [hinputs, List.length_map]
  · rw [houtputs, List.length_map]
  · simp [hinputs, Filled, List.getElem?_replicate]
  · simp [houtputs, Filled, List.getElem?_replicate]

theorem Recalls.binding (hrecalls : Recalls earlier execution) (computation : Computation)
    (results : List Buffer) :
    Recalls (earlier ++ [computation])
      { execution.binding computation.inputs computation.outputs with results } := by
  obtain ⟨hslotted, hinputs, houtputs⟩ := hrecalls
  have hbound := execution.slotted_binding hslotted computation.inputs computation.outputs
  refine ⟨⟨hbound.inputs, hbound.outputs⟩, fun index => ?_, fun index => ?_⟩
  · rw [filled_inputs_binding_iff, hinputs]
    simp [Computation.BindsInput, inputTypes_binding, or_and_right, exists_or]
  · rw [filled_outputs_binding_iff, houtputs]
    simp [Computation.BindsOutput, inputTypes_binding, outputTypes_binding, or_and_right, exists_or]

/-! ## Histories -/

namespace Session

inductive Step where
  | create
  | compute (computation : Computation)

def perform (session : Session) (state : State) : Step → State
  | .create => (session.create state).2
  | .compute computation => (compute state computation.inputs computation.outputs).2

/-- The state that a sequence of steps leads to, whether they succeed or fail. -/
def after (session : Session) (history : List Step) : State := history.foldl session.perform {}

/-- The computations since the model was last created. -/
def sinceCreation (history : List Step) : List Computation :=
  history.foldl (fun earlier step =>
    match step with
    | .create => []
    | .compute computation => earlier ++ [computation]) []

theorem after_concat (session : Session) (history : List Step) (step : Step) :
    session.after (history ++ [step]) = session.perform (session.after history) step := by
  rw [after, List.foldl_append]
  rfl

theorem sinceCreation_create (history : List Step) : sinceCreation (history ++ [.create]) = [] := by
  rw [sinceCreation, List.foldl_append]
  rfl

theorem sinceCreation_compute (history : List Step) (computation : Computation) :
    sinceCreation (history ++ [.compute computation]) =
      sinceCreation history ++ [computation] := by
  rw [sinceCreation, List.foldl_append]
  rfl

/-- What is held is what was created, with what has been bound since then. -/
structure Holds (created : Except SessionError (Graph × Execution)) (earlier : List Computation)
    (state : State) (execution : Execution) : Prop where
  model : ∃ graph fresh, created = .ok (graph, fresh) ∧ state.graph? = some graph ∧
    execution.inputTypes = fresh.inputTypes ∧ execution.outputTypes = fresh.outputTypes
  indexed : execution.Indexed
  recalls : Recalls earlier execution

variable {session : Session}

/-- A graph that a net is lowered to has one input and one output. -/
theorem Created.indexed {graph : Graph} {execution : Execution}
    (hcreated : session.Created (.ok (graph, execution))) : execution.Indexed := by
  cases hcreated with
  | compiled hlower hruns hblank =>
      obtain ⟨_, _, _, _, _, _, -, -, -, -, -, -, rfl, -⟩ := FlatNet.lower_eq_ok_iff.mp hlower
      have hinputs := congrArg List.length hruns.inputs
      have houtputs := congrArg List.length hruns.outputs
      simp only [List.length_map, List.length_singleton] at hinputs houtputs
      exact ⟨by omega, by omega⟩

theorem Created.blank {graph : Graph} {execution : Execution}
    (hcreated : session.Created (.ok (graph, execution))) : execution.Blank := by
  cases hcreated with
  | compiled _ _ hblank => exact hblank

theorem Created.holds {created : Except SessionError (Graph × Execution)}
    (hcreated : session.Created created) {calls : List Call} {execution : Execution}
    (hcompiled : (State.ofCreation calls created).compiled? = some execution) :
    Holds created [] (.ofCreation calls created) execution := by
  rcases created with error | ⟨graph, fresh⟩
  · cases hcompiled
  · cases hcompiled
    exact ⟨⟨graph, fresh, rfl, rfl, rfl, rfl⟩, hcreated.indexed, .of_blank hcreated.blank⟩

/-- A computation binds more, and changes neither the graph nor any type. -/
theorem Holds.compute {created : Except SessionError (Graph × Execution)}
    {earlier : List Computation} {state : State} {before execution : Execution}
    (hholds : Holds created earlier state before) (hbefore : state.compiled? = some before)
    (computation : Computation)
    (hcompiled : (session.perform state (.compute computation)).compiled? = some execution) :
    Holds created (earlier ++ [computation]) (session.perform state (.compute computation))
      execution := by
  obtain ⟨⟨graph, fresh, hfresh, hgraph, hinputs, houtputs⟩, hindexed, hrecalls⟩ := hholds
  obtain ⟨calls, results, hcompute⟩ := compute_eq hbefore hrecalls.slotted hindexed
    computation.inputs computation.outputs
  rw [perform, hcompute] at hcompiled ⊢
  cases hcompiled
  have hsameInputs := inputTypes_binding computation before
  have hsameOutputs := outputTypes_binding computation before
  refine ⟨⟨graph, fresh, hfresh, hgraph, ?_, ?_⟩, ⟨?_, ?_⟩, hrecalls.binding computation results⟩
  · exact hsameInputs.trans hinputs
  · exact hsameOutputs.trans houtputs
  · exact hsameInputs ▸ hindexed.inputs
  · exact hsameOutputs ▸ hindexed.outputs

theorem exists_holds (session : Session) :
    ∃ created, session.Created created ∧
      (∀ state, ∃ calls,
        session.create state = (created.map fun _ => (), .ofCreation calls created)) ∧
      ∀ history execution, (session.after history).compiled? = some execution →
        Holds created (sinceCreation history) (session.after history) execution := by
  obtain ⟨created, hcreated, hcreate⟩ := session.create_eq
  have hends (state : State) : ∃ calls,
      session.create state = (created.map fun _ => (), .ofCreation calls created) := by
    obtain ⟨calls, hstate, -⟩ := hcreate state
    exact ⟨calls, hstate⟩
  refine ⟨created, hcreated, hends, fun history => ?_⟩
  -- From the right: the last step acts on the state that all the others lead to.
  induction history using List.reverseRecOn with
  | nil => intro execution hcompiled; cases hcompiled
  | append_singleton history step ih =>
      intro execution hcompiled
      rw [after_concat] at hcompiled ⊢
      cases step with
      | create =>
          obtain ⟨calls, hstate⟩ := hends (session.after history)
          rw [perform, hstate] at hcompiled ⊢
          rw [sinceCreation_create]
          exact hcreated.holds hcompiled
      | compute computation =>
          rw [sinceCreation_compute]
          cases hbefore : (session.after history).compiled? with
          | none =>
              simp only [perform, Session.compute, hbefore] at hcompiled
              cases hcompiled
          | some before => exact (ih before hbefore).compute hbefore computation hcompiled

end Session

end NetLowering
