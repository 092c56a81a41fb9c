import NetLowering.Backend.Model
import NetLowering.Proofs.Backend.Recording
import NetLowering.Proofs.Checked

/-!
# What is asked of a model

Every request is made in one piece, and `Model.Takes` lists what it can do to a model that takes
it.  Whatever a model has taken, its values and its ends are operands that it has, so a
compilation of it can always be made once it is finished.
-/

namespace NetLowering

open Checked Recording

namespace Model

variable {model changed : Model}

/-! ## Requests -/

section Achieves

variable (model)

theorem create_achieves (options : ModelOptions) :
    (create options).Achieves (fun _ => .createModel options) ()
      (.ok (.ofOptions options, ())) :=
  fun _ => rfl

theorem addOperand_achieves (type : OperandType) :
    (addOperand type).Achieves (.addOperand type) model (do
      model.checkUnfinished
      return (.ofNat model.operands.length,
        { model with operands := model.operands ++ [type] })) := by
  intro calls
  rw [addOperand, run_subject_bind, run_check_bind]
  rcases model.checkUnfinished with error | _ <;> rfl

theorem setValue_achieves (index : UInt32) (value : Buffer) :
    (setValue index value).Achieves (fun _ => .setValue index value) model (do
      model.checkUnfinished
      let type ← model.operand index
      if !type.code.accepts value.elemType then
        throw (.invalidOperand index (.valueType value.elemType type.code))
      if value.size ≠ type.elements then
        throw (.invalidOperand index (.valueCount value.size type.dims))
      if index ∈ model.valued then throw (.invalidOperand index .valueTwice)
      return ((), { model with valued := index :: model.valued })) := by
  intro calls
  rw [setValue, run_subject_bind, run_check_bind]
  rcases model.checkUnfinished with error | _
  · rfl
  simp only [run_check_bind]
  rcases model.operand index with error | type
  · rfl
  simp only [run_ite, run_throw_bind, run_change_bind, run_record, ok_bind]
  split
  · rfl
  split
  · rfl
  split
  · -- The operand is entered once more among those that have a value, which changes nothing.
    rename_i htwice
    rw [List.insert_of_mem htwice]
    rfl
  · rename_i hfirst
    rw [List.insert_of_not_mem hfirst]
    rfl

theorem setChannelQuant_achieves (index : UInt32) (quant : ChannelQuant) :
    (setChannelQuant index quant).Achieves (fun _ => .setChannelQuant index quant) model (do
      model.checkUnfinished
      let type ← model.operand index
      if type.code ≠ .tensorQuant8SymmPerChannel then
        throw (.invalidOperand index (.notPerChannel type.code))
      if type.dims[quant.channelDim.toNat]?.map UInt32.toNat ≠ some quant.scales.length then
        throw (.invalidOperand index (.scaleCount quant.scales.length quant.channelDim type.dims))
      return ((), model)) := by
  intro calls
  rw [setChannelQuant, run_subject_bind, run_check_bind]
  rcases model.checkUnfinished with error | _
  · rfl
  simp only [run_check_bind]
  rcases model.operand index with error | type
  · rfl
  simp only [run_ite, run_throw_bind, run_record, ok_bind]
  split
  · rfl
  split <;> rfl

theorem addOperation_achieves (code : OperationCode) (inputs outputs : List UInt32) :
    (addOperation code inputs outputs).Achieves (fun _ => .addOperation code inputs outputs)
      model (do
        model.checkUnfinished
        if !model.supported.isEmpty && !model.supported.contains code then
          throw (.unsupportedOperation code)
        model.checkKnown (inputs ++ outputs)
        return ((), model)) := by
  intro calls
  rw [addOperation, run_subject_bind, run_check_bind]
  rcases model.checkUnfinished with error | _
  · rfl
  simp only [run_ite, run_throw_bind, run_check_bind, run_record, ok_bind]
  split
  · rfl
  · cases model.checkKnown (inputs ++ outputs) <;> rfl

theorem identify_achieves (inputs outputs : List UInt32) :
    (identify inputs outputs).Achieves (fun _ => .identify inputs outputs) model (do
      model.checkUnfinished
      model.checkKnown (inputs ++ outputs)
      return ((), { model with inputs, outputs })) := by
  intro calls
  rw [identify, run_subject_bind, run_check_bind]
  rcases model.checkUnfinished with error | _
  · rfl
  simp only [run_check_bind, run_change_bind, run_record, ok_bind]
  cases model.checkKnown (inputs ++ outputs) <;> rfl

theorem finish_achieves :
    finish.Achieves (fun _ => .finish) model (do
      model.checkUnfinished
      return ((), { model with finished := true })) := by
  intro calls
  rw [finish, run_subject_bind, run_check_bind]
  cases model.checkUnfinished <;> rfl

theorem perform_whole (request : Request) :
    (perform request).Whole (Call.ofRequest request) model := by
  cases request with
  | addOperand type => exact (addOperand_achieves model type).whole
  | setValue index value => exact (setValue_achieves model index value).whole
  | setChannelQuant index quant => exact (setChannelQuant_achieves model index quant).whole
  | addOperation code inputs outputs =>
      exact (addOperation_achieves model code inputs outputs).whole
  | identify inputs outputs => exact (identify_achieves model inputs outputs).whole

end Achieves

/-- What a request that is taken answers and leaves behind. -/
inductive Takes (model : Model) : (request : Request) → request.Answer → Model → Prop where
  | addOperand (type : OperandType) :
      Takes model (.addOperand type) (UInt32.ofNat model.operands.length)
        { model with operands := model.operands ++ [type] }
  | setValue {index : UInt32} (value : Buffer) (known : index.toNat < model.operands.length)
      (fresh : index ∉ model.valued) :
      Takes model (.setValue index value) () { model with valued := index :: model.valued }
  | setChannelQuant (index : UInt32) (quant : ChannelQuant) :
      Takes model (.setChannelQuant index quant) () model
  | addOperation (code : OperationCode) (inputs outputs : List UInt32) :
      Takes model (.addOperation code inputs outputs) () model
  | identify {inputs outputs : List UInt32}
      (known : ∀ index ∈ inputs ++ outputs, index.toNat < model.operands.length) :
      Takes model (.identify inputs outputs) () { model with inputs, outputs }

theorem operand_eq_ok_iff {index : UInt32} {type : OperandType} :
    model.operand index = .ok type ↔ model.operands[index.toNat]? = some type := by
  rw [operand]
  cases model.operands[index.toNat]? <;> simp

theorem checkKnown_eq_ok_iff {indices : List UInt32} :
    model.checkKnown indices = .ok () ↔
      ∀ index ∈ indices, index.toNat < model.operands.length := by
  rw [checkKnown]
  cases hfind : indices.find? fun index => model.operands.length ≤ index.toNat with
  | none => simpa using hfind
  | some index =>
      have hunknown : model.operands.length ≤ index.toNat := by
        simpa using List.find?_some hfind
      simp only [reduceCtorEq, false_iff, not_forall]
      exact ⟨index, List.mem_of_find?_eq_some hfind, Nat.not_lt.mpr hunknown⟩

theorem addOperand_eq_ok {type : OperandType} {index : UInt32}
    (htaken : (addOperand type).outcome model = .ok (index, changed)) :
    index = .ofNat model.operands.length ∧
      changed = { model with operands := model.operands ++ [type] } := by
  rw [(addOperand_achieves model type).outcome_eq] at htaken
  simp only [bind_eq_ok_iff, pure_eq_ok_iff, Prod.mk.injEq] at htaken
  obtain ⟨_, -, hdone⟩ := htaken
  exact hdone

theorem setValue_eq_ok {index : UInt32} {value : Buffer} {answer : Unit}
    (htaken : (setValue index value).outcome model = .ok (answer, changed)) :
    index.toNat < model.operands.length ∧ index ∉ model.valued ∧
      changed = { model with valued := index :: model.valued } := by
  rw [(setValue_achieves model index value).outcome_eq] at htaken
  simp only [bind_eq_ok_iff, operand_eq_ok_iff, check_eq_ok_iff, pure_eq_ok_iff,
    Prod.mk.injEq] at htaken
  obtain ⟨_, -, type, htype, -, -, hfresh, -, rfl⟩ := htaken
  exact ⟨(List.getElem?_eq_some_iff.mp htype).1, hfresh, rfl⟩

theorem setChannelQuant_eq_ok {index : UInt32} {quant : ChannelQuant} {answer : Unit}
    (htaken : (setChannelQuant index quant).outcome model = .ok (answer, changed)) :
    changed = model := by
  rw [(setChannelQuant_achieves model index quant).outcome_eq] at htaken
  simp only [bind_eq_ok_iff, check_eq_ok_iff, pure_eq_ok_iff, Prod.mk.injEq] at htaken
  obtain ⟨_, -, type, -, -, -, -, rfl⟩ := htaken
  rfl

theorem addOperation_eq_ok {code : OperationCode} {inputs outputs : List UInt32} {answer : Unit}
    (htaken : (addOperation code inputs outputs).outcome model = .ok (answer, changed)) :
    changed = model := by
  rw [(addOperation_achieves model code inputs outputs).outcome_eq] at htaken
  simp only [bind_eq_ok_iff, check_eq_ok_iff, pure_eq_ok_iff, Prod.mk.injEq] at htaken
  obtain ⟨_, -, -, _, -, -, rfl⟩ := htaken
  rfl

theorem identify_eq_ok {inputs outputs : List UInt32} {answer : Unit}
    (htaken : (identify inputs outputs).outcome model = .ok (answer, changed)) :
    (∀ index ∈ inputs ++ outputs, index.toNat < model.operands.length) ∧
      changed = { model with inputs, outputs } := by
  rw [(identify_achieves model inputs outputs).outcome_eq] at htaken
  simp only [bind_eq_ok_iff, pure_eq_ok_iff, Prod.mk.injEq] at htaken
  obtain ⟨_, -, _, hknown, -, rfl⟩ := htaken
  exact ⟨checkKnown_eq_ok_iff.mp hknown, rfl⟩

theorem takes_of_perform {request : Request} {answer : request.Answer}
    (htaken : (perform request).outcome model = .ok (answer, changed)) :
    model.Takes request answer changed := by
  cases request with
  | addOperand type =>
      obtain ⟨rfl, rfl⟩ := addOperand_eq_ok htaken
      exact .addOperand type
  | setValue index value =>
      obtain ⟨hknown, hfresh, rfl⟩ := setValue_eq_ok htaken
      exact .setValue value hknown hfresh
  | setChannelQuant index quant =>
      obtain rfl := setChannelQuant_eq_ok htaken
      exact .setChannelQuant index quant
  | addOperation code inputs outputs =>
      obtain rfl := addOperation_eq_ok htaken
      exact .addOperation code inputs outputs
  | identify inputs outputs =>
      obtain ⟨hknown, rfl⟩ := identify_eq_ok htaken
      exact .identify hknown

theorem checkUnfinished_of_finished (hfinished : model.finished = true) :
    model.checkUnfinished = .error .alreadyFinished := by
  rw [checkUnfinished, if_pos hfinished]

/-- A finished model takes nothing more. -/
theorem perform_of_finished (hfinished : model.finished = true) (request : Request) :
    (perform request).outcome model = .error .alreadyFinished := by
  have hrefused := checkUnfinished_of_finished hfinished
  cases request with
  | addOperand type =>
      refine (addOperand_achieves model type).outcome_eq.trans ?_
      rw [hrefused]
      rfl
  | setValue index value =>
      refine (setValue_achieves model index value).outcome_eq.trans ?_
      rw [hrefused]
      rfl
  | setChannelQuant index quant =>
      refine (setChannelQuant_achieves model index quant).outcome_eq.trans ?_
      rw [hrefused]
      rfl
  | addOperation code inputs outputs =>
      refine (addOperation_achieves model code inputs outputs).outcome_eq.trans ?_
      rw [hrefused]
      rfl
  | identify inputs outputs =>
      refine (identify_achieves model inputs outputs).outcome_eq.trans ?_
      rw [hrefused]
      rfl

theorem finish_eq_ok {answer : Unit} (hfinish : finish.outcome model = .ok (answer, changed)) :
    changed = { model with finished := true } := by
  rw [(finish_achieves model).outcome_eq, bind_eq_ok_iff] at hfinish
  obtain ⟨_, -, hdone⟩ := hfinish
  cases hdone
  rfl

theorem finish_of_finished (hfinished : model.finished = true) :
    finish.outcome model = .error .alreadyFinished := by
  rw [(finish_achieves model).outcome_eq, checkUnfinished_of_finished hfinished]
  rfl

/-! ## Compilations -/

theorem finished_of_resolveEnds {compilation : Compilation}
    (hresolved : model.resolveEnds = .ok compilation) : compilation.finished = false := by
  simp only [resolveEnds, bind_eq_ok_iff, pure_eq_ok_iff] at hresolved
  obtain ⟨_, -, _, -, rfl⟩ := hresolved
  rfl

/-- A compilation that is refused over the ends of its model has been recorded all the same. -/
theorem run_createCompilation (model : Model) (calls : List Call) :
    createCompilation.run (model, calls) =
      if model.finished then (model.resolveEnds, model, calls ++ [.createCompilation])
      else (.error .notFinished, model, calls) := by
  rw [createCompilation, run_subject_bind]
  cases hfinished : model.finished with
  | false => rfl
  | true =>
      simp only [Bool.not_true, Bool.false_eq_true, if_false, if_true, run_record_bind]
      rfl

theorem outcome_createCompilation {compilation : Compilation} (hfinished : model.finished = true)
    (hresolved : model.resolveEnds = .ok compilation) :
    createCompilation.outcome model = .ok (compilation, model) := by
  rw [outcome, run_createCompilation, if_pos hfinished, hresolved]

/-! ## Soundness -/

/-- Only operands of the model have values, each at most one, and only operands are its ends. -/
structure Sound (model : Model) : Prop where
  known : ∀ index ∈ model.valued ++ model.inputs ++ model.outputs,
    index.toNat < model.operands.length
  once : model.valued.Nodup

theorem sound_ofOptions (options : ModelOptions) : (ofOptions options).Sound :=
  ⟨by simp [ofOptions], by simp [ofOptions]⟩

theorem Sound.takes {request : Request} {answer : request.Answer} (hsound : model.Sound)
    (htakes : model.Takes request answer changed) : changed.Sound := by
  obtain ⟨hknown, honce⟩ := hsound
  simp only [List.append_assoc, List.forall_mem_append] at hknown
  obtain ⟨hvalued, hinputs, houtputs⟩ := hknown
  cases htakes with
  | addOperand type =>
      refine ⟨?_, honce⟩
      intro index hindex
      simp only [List.append_assoc, List.mem_append] at hindex
      have hold : index.toNat < model.operands.length := by
        rcases hindex with hindex | hindex | hindex
        · exact hvalued index hindex
        · exact hinputs index hindex
        · exact houtputs index hindex
      rw [List.length_append]
      omega
  | @setValue index value hindex hfresh =>
      refine ⟨?_, List.nodup_cons.mpr ⟨hfresh, honce⟩⟩
      simp only [List.cons_append, List.append_assoc, List.forall_mem_cons, List.forall_mem_append]
      exact ⟨hindex, hvalued, hinputs, houtputs⟩
  | setChannelQuant _ _ | addOperation _ _ _ =>
      refine ⟨?_, honce⟩
      simp only [List.append_assoc, List.forall_mem_append]
      exact ⟨hvalued, hinputs, houtputs⟩
  | identify hends =>
      refine ⟨?_, honce⟩
      simp only [List.append_assoc, List.forall_mem_append] at hends ⊢
      exact ⟨hvalued, hends⟩

theorem exists_operands {indices : List UInt32}
    (hknown : ∀ index ∈ indices, index.toNat < model.operands.length) :
    ∃ types, indices.mapM model.operand = .ok types := by
  rw [exists_mapM_ok_iff]
  intro index hindex
  have htype := List.getElem?_eq_getElem (hknown index hindex)
  exact ⟨_, operand_eq_ok_iff.mpr htype⟩

theorem Sound.exists_resolveEnds (hsound : model.Sound) :
    ∃ compilation, model.resolveEnds = .ok compilation := by
  have hknown := hsound.known
  simp only [List.append_assoc, List.forall_mem_append] at hknown
  obtain ⟨inputs, hinputs⟩ := exists_operands hknown.2.1
  obtain ⟨outputs, houtputs⟩ := exists_operands hknown.2.2
  exact ⟨{ inputs, outputs }, by rw [resolveEnds, hinputs, houtputs]; rfl⟩

/-- Among the ends of a sound model nothing is missing, so a compilation of it is made in one
piece. -/
theorem Sound.createCompilation_achieves (hsound : model.Sound) :
    createCompilation.Achieves (fun _ => .createCompilation) model (do
      if !model.finished then throw .notFinished
      return (← model.resolveEnds, model)) := by
  intro calls
  obtain ⟨compilation, hresolved⟩ := hsound.exists_resolveEnds
  rw [run_createCompilation, hresolved]
  cases model.finished <;> rfl

theorem Sound.createCompilation_eq_ok (hsound : model.Sound) {compilation : Compilation}
    (hcreated : createCompilation.outcome model = .ok (compilation, changed)) :
    changed = model ∧ model.resolveEnds = .ok compilation := by
  rw [hsound.createCompilation_achieves.outcome_eq] at hcreated
  simp only [bind_eq_ok_iff, check_eq_ok_iff, pure_eq_ok_iff, Prod.mk.injEq] at hcreated
  obtain ⟨-, _, hresolved, rfl, rfl⟩ := hcreated
  exact ⟨rfl, hresolved⟩

end Model

namespace Compilation

section Achieves

variable (compilation : Compilation)

theorem setPreference_achieves (preference : Preference) :
    (setPreference preference).Achieves (fun _ => .setPreference preference) compilation (do
      compilation.checkUnfinished
      return ((), { compilation with preference })) := by
  intro calls
  rw [setPreference, run_subject_bind, run_check_bind]
  cases compilation.checkUnfinished <;> rfl

theorem finish_achieves :
    finish.Achieves (fun _ => .finishCompilation) compilation (do
      compilation.checkUnfinished
      return ((), { compilation with finished := true })) := by
  intro calls
  rw [finish, run_subject_bind, run_check_bind]
  cases compilation.checkUnfinished <;> rfl

/-- An execution of the compilation for which nothing has been set. -/
def blankExecution : Execution where
  inputTypes := compilation.inputs
  outputTypes := compilation.outputs
  inputs := compilation.inputs.map fun _ => none
  outputs := compilation.outputs.map fun _ => none

theorem createExecution_achieves :
    createExecution.Achieves (fun _ => .createExecution) compilation (do
      if !compilation.finished then throw .notFinished
      return (compilation.blankExecution, compilation)) := by
  intro calls
  rw [createExecution, run_subject_bind]
  cases compilation.finished <;> rfl

end Achieves

variable {compilation changed : Compilation}

theorem setPreference_eq_ok {preference : Preference} {answer : Unit}
    (hset : (setPreference preference).outcome compilation = .ok (answer, changed)) :
    changed = { compilation with preference } := by
  rw [(compilation.setPreference_achieves preference).outcome_eq, bind_eq_ok_iff] at hset
  obtain ⟨_, -, hdone⟩ := hset
  cases hdone
  rfl

theorem finish_eq_ok {answer : Unit}
    (hfinish : finish.outcome compilation = .ok (answer, changed)) :
    changed = { compilation with finished := true } := by
  rw [compilation.finish_achieves.outcome_eq, bind_eq_ok_iff] at hfinish
  obtain ⟨_, -, hdone⟩ := hfinish
  cases hdone
  rfl

theorem createExecution_eq_ok {execution : Execution}
    (hcreated : createExecution.outcome compilation = .ok (execution, changed)) :
    execution = compilation.blankExecution ∧ changed = compilation := by
  rw [compilation.createExecution_achieves.outcome_eq] at hcreated
  simp only [check_eq_ok_iff, pure_eq_ok_iff, Prod.mk.injEq] at hcreated
  exact hcreated.2

/-- A finished compilation keeps its preference and is not finished again. -/
theorem setPreference_of_finished (hfinished : compilation.finished = true)
    (preference : Preference) :
    (setPreference preference).outcome compilation = .error .alreadyFinished := by
  rw [(compilation.setPreference_achieves preference).outcome_eq, checkUnfinished,
    if_pos hfinished]
  rfl

theorem finish_of_finished (hfinished : compilation.finished = true) :
    finish.outcome compilation = .error .alreadyFinished := by
  rw [compilation.finish_achieves.outcome_eq, checkUnfinished, if_pos hfinished]
  rfl

end Compilation

namespace Execution

section Achieves

variable (execution : Execution)

theorem setInput_achieves (index : UInt32) (buffer : Buffer) :
    (setInput index buffer).Achieves (fun _ => .setInput index buffer) execution (do
      checkBuffer execution.inputTypes index buffer
      return ((), { execution with
        inputs := execution.inputs.set index.toNat (some buffer) })) := by
  intro calls
  rw [setInput, run_subject_bind, run_check_bind]
  cases checkBuffer execution.inputTypes index buffer <;> rfl

theorem setOutput_achieves (index : UInt32) (buffer : Buffer) :
    (setOutput index buffer).Achieves (fun _ => .setOutput index) execution (do
      checkBuffer execution.outputTypes index buffer
      return ((), { execution with
        outputs := execution.outputs.set index.toNat (some buffer.elemType) })) := by
  intro calls
  rw [setOutput, run_subject_bind, run_check_bind]
  cases checkBuffer execution.outputTypes index buffer <;> rfl

theorem startCompute_achieves :
    startCompute.Achieves (fun _ => .startCompute) execution
      (match execution.inputs.findIdx? Option.isNone with
        | some index => .error (.inputNotSet index)
        | none => execution.zeros >>= fun results => .ok ((), { execution with results })) := by
  intro calls
  rw [startCompute, run_subject_bind]
  cases execution.inputs.findIdx? Option.isNone with
  | some index => rfl
  | none =>
      simp only [run_check_bind]
      cases execution.zeros <;> rfl

end Achieves

variable {execution changed : Execution}

theorem setInput_eq_ok {index : UInt32} {buffer : Buffer} {answer : Unit}
    (hset : (setInput index buffer).outcome execution = .ok (answer, changed)) :
    checkBuffer execution.inputTypes index buffer = .ok () ∧
      changed = { execution with inputs := execution.inputs.set index.toNat (some buffer) } := by
  rw [(execution.setInput_achieves index buffer).outcome_eq, bind_eq_ok_iff] at hset
  obtain ⟨_, hfits, hdone⟩ := hset
  cases hdone
  exact ⟨hfits, rfl⟩

theorem setOutput_eq_ok {index : UInt32} {buffer : Buffer} {answer : Unit}
    (hset : (setOutput index buffer).outcome execution = .ok (answer, changed)) :
    checkBuffer execution.outputTypes index buffer = .ok () ∧
      changed = { execution with
        outputs := execution.outputs.set index.toNat (some buffer.elemType) } := by
  rw [(execution.setOutput_achieves index buffer).outcome_eq, bind_eq_ok_iff] at hset
  obtain ⟨_, hfits, hdone⟩ := hset
  cases hdone
  exact ⟨hfits, rfl⟩

theorem startCompute_eq_ok {answer : Unit}
    (hstarted : startCompute.outcome execution = .ok (answer, changed)) :
    ∃ results, execution.inputs.findIdx? Option.isNone = none ∧ execution.zeros = .ok results ∧
      changed = { execution with results } := by
  rw [execution.startCompute_achieves.outcome_eq] at hstarted
  cases hmissing : execution.inputs.findIdx? Option.isNone with
  | some index =>
      rw [hmissing] at hstarted
      cases hstarted
  | none =>
      rw [hmissing] at hstarted
      obtain ⟨results, hcomputed, hdone⟩ := bind_eq_ok_iff.mp hstarted
      cases hdone
      exact ⟨results, rfl, hcomputed, rfl⟩

end Execution

end NetLowering
