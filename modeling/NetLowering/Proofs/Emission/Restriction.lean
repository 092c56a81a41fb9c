import NetLowering.Proofs.Emission.Acceptance

/-!
# Restricted models

A model that supports some operations only refuses the others, and is in all
else the model that supports every operation.  So a graph that mentions no
unknown operand is taken whole, or refused over an operand or over an operation
that is not supported.
-/

namespace NetLowering

namespace Model

/-- The model with these operations supported. -/
def supporting (model : Model) (supported : List OperationCode) : Model :=
  { model with supported }

variable {model : Model} {supported : List OperationCode}

/-! ## Single requests -/

theorem checkUnfinished_supporting :
    (model.supporting supported).checkUnfinished = model.checkUnfinished := rfl

theorem operand_supporting (index : UInt32) :
    (model.supporting supported).operand index = model.operand index := rfl

theorem checkKnown_supporting (indices : List UInt32) :
    (model.supporting supported).checkKnown indices = model.checkKnown indices := rfl

/-- What was answered and left, with the operations supported. -/
private def supportingLeft {α : Type} (supported : List OperationCode)
    (performed : α × Model) : α × Model :=
  (performed.1, performed.2.supporting supported)

section Requests

variable (model supported)

theorem addOperand_supporting (type : OperandType) :
    (addOperand type).outcome (model.supporting supported) =
      ((addOperand type).outcome model).map (supportingLeft supported) := by
  rw [(addOperand_achieves _ type).outcome_eq, (addOperand_achieves _ type).outcome_eq,
    checkUnfinished_supporting]
  cases model.checkUnfinished <;> rfl

theorem setValue_supporting (index : UInt32) (value : Buffer) :
    (setValue index value).outcome (model.supporting supported) =
      ((setValue index value).outcome model).map (supportingLeft supported) := by
  rw [(setValue_achieves _ index value).outcome_eq, (setValue_achieves _ index value).outcome_eq,
    checkUnfinished_supporting, operand_supporting]
  rcases model.checkUnfinished with error | _
  · rfl
  rcases model.operand index with error | type
  · rfl
  simp only [Checked.ok_bind, supporting]
  split
  · rfl
  split
  · rfl
  by_cases htwice : index ∈ model.valued
  · simp only [htwice, if_true]
    rfl
  · simp only [htwice, if_false]
    rfl

theorem setChannelQuant_supporting (index : UInt32) (quant : ChannelQuant) :
    (setChannelQuant index quant).outcome (model.supporting supported) =
      ((setChannelQuant index quant).outcome model).map (supportingLeft supported) := by
  rw [(setChannelQuant_achieves _ index quant).outcome_eq,
    (setChannelQuant_achieves _ index quant).outcome_eq, checkUnfinished_supporting,
    operand_supporting]
  rcases model.checkUnfinished with error | _
  · rfl
  rcases model.operand index with error | type
  · rfl
  simp only [Checked.ok_bind]
  split
  · rfl
  split <;> rfl

theorem addOperation_supporting (code : OperationCode) (inputs outputs : List UInt32) :
    (addOperation code inputs outputs).outcome (model.supporting supported) =
        .error (.unsupportedOperation code) ∨
      (addOperation code inputs outputs).outcome (model.supporting supported) =
        ((addOperation code inputs outputs).outcome (model.supporting [])).map
          (supportingLeft supported) := by
  rw [(addOperation_achieves _ code inputs outputs).outcome_eq,
    (addOperation_achieves _ code inputs outputs).outcome_eq, checkUnfinished_supporting,
    checkUnfinished_supporting, checkKnown_supporting, checkKnown_supporting]
  rcases model.checkUnfinished with error | _
  · exact .inr rfl
  simp only [Checked.ok_bind]
  split
  · exact .inl rfl
  · right
    cases model.checkKnown (inputs ++ outputs) <;> rfl

theorem identify_supporting (inputs outputs : List UInt32) :
    (identify inputs outputs).outcome (model.supporting supported) =
      ((identify inputs outputs).outcome model).map (supportingLeft supported) := by
  rw [(identify_achieves _ inputs outputs).outcome_eq,
    (identify_achieves _ inputs outputs).outcome_eq, checkUnfinished_supporting,
    checkKnown_supporting]
  rcases model.checkUnfinished with error | _
  · rfl
  cases model.checkKnown (inputs ++ outputs) <;> rfl

/-- What a model that supports everything does with a request is all that a restricted one can
do with it, but for refusing an operation. -/
theorem perform_supporting (request : Request) :
    (∃ code, (perform request).outcome (model.supporting supported) =
      .error (.unsupportedOperation code)) ∨
      (perform request).outcome (model.supporting supported) =
        ((perform request).outcome (model.supporting [])).map (supportingLeft supported) := by
  cases request with
  | addOperand type => exact .inr (addOperand_supporting (model.supporting []) supported type)
  | setValue index value =>
      exact .inr (setValue_supporting (model.supporting []) supported index value)
  | setChannelQuant index quant =>
      exact .inr (setChannelQuant_supporting (model.supporting []) supported index quant)
  | addOperation code inputs outputs =>
      rcases addOperation_supporting model supported code inputs outputs with hunsupported | hsame
      · exact .inl ⟨code, hunsupported⟩
      · exact .inr hsame
  | identify inputs outputs =>
      exact .inr (identify_supporting (model.supporting []) supported inputs outputs)

end Requests

theorem supported_perform {changed : Model} {request : Request} {answer : request.Answer}
    (hperform : (perform request).outcome model = .ok (answer, changed)) :
    changed.supported = model.supported := by
  cases takes_of_perform hperform <;> rfl

/-! ## Runs of requests -/

/-- A restriction adds one way to be refused and changes nothing else. -/
theorem fill_supporting (supported : List OperationCode) (requests : List Request) (place : Nat)
    (model : Model) :
    (∃ code, (model.supporting supported).fill place requests =
      .error (.backend (.unsupportedOperation code))) ∨
      (model.supporting supported).fill place requests =
        ((model.supporting []).fill place requests).map (·.supporting supported) := by
  induction requests generalizing place model with
  | nil => exact .inr rfl
  | cons request rest ih =>
      rw [fill, fill]
      rcases perform_supporting model supported request with
        ⟨code, hunsupported⟩ | hsame
      · exact .inl ⟨code, by rw [hunsupported]⟩
      rw [hsame]
      rcases hperform : (perform request).outcome (model.supporting []) with
        error | ⟨answer, changed⟩
      · exact .inr rfl
      have hchanged : changed.supporting [] = changed := by
        have hsupported : changed.supported = [] := supported_perform hperform
        rw [supporting, ← hsupported]
      simp only [Except.map, supportingLeft]
      cases hfault : Exchange.fault? place ⟨request, .ok answer⟩ with
      | some error => exact .inr rfl
      | none =>
          have hrest := ih (place + 1) changed
          rwa [hchanged] at hrest

end Model

/-! ## Graphs -/

/-- The errors that a model refuses a graph without unknown operands with. -/
inductive BackendError.OverContent : BackendError → Prop
  | operand (index : UInt32) (fault : OperandFault) : OverContent (.invalidOperand index fault)
  | operation (code : OperationCode) : OverContent (.unsupportedOperation code)

namespace Graph

variable {graph : Graph}

/-- Emitted into whatever model, a graph without unknown operands is taken as it is, or refused
over an operand or an operation. -/
theorem fill_requests (options : ModelOptions) (hvalid : graph.unknown? = none)
    (hplaces : graph.operands.length ≤ 2 ^ 32) :
    (Model.ofOptions options).fill 0 graph.requests = .ok (graph.filled options) ∨
      ∃ error, (Model.ofOptions options).fill 0 graph.requests = .error (.backend error) ∧
        error.OverContent := by
  have hsettles : (Model.ofOptions { options with supported := [] }).Settles 0 graph.requests
      graph.Fits (graph.filled { options with supported := [] }) :=
    requests_settle hvalid hplaces (.inl rfl)
  rcases Model.fill_supporting options.supported graph.requests 0
      (Model.ofOptions options) with ⟨code, hunsupported⟩ | hsame
  · exact .inr ⟨_, hunsupported, .operation code⟩
  change (Model.ofOptions options).fill 0 graph.requests = _ at hsame
  rw [hsame]
  by_cases hfits : graph.Fits
  · left
    exact (congrArg _ (hsettles.accepts hfits)).trans rfl
  · right
    obtain ⟨index, fault, -, hrefused⟩ := hsettles.refuses hfits
    exact ⟨_, (congrArg _ hrefused).trans rfl, .operand index fault⟩

end Graph

end NetLowering
