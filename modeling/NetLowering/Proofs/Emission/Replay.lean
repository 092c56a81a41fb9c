import NetLowering.Emission
import NetLowering.Proofs.Table

/-!
# Emission replays one list of requests

Whatever the model does, an emission issues the requests of its graph in order
and stops at the first exchange that is at fault: a refusal, or a new operand
that gets another number than its place.  `emit_eq_issue` reduces the emission
to a loop over a list of requests; what is said of the loop is proved by
induction on that list.
-/

namespace NetLowering

variable {σ : Type}

/-! ## Exchanges -/

structure Exchange where
  request : Request
  answer : Except BackendError request.Answer

/-- The error that an exchange at this place of an emission ends it with, if it does. -/
def Exchange.fault? (place : Nat) : Exchange → Option SessionError
  | ⟨_, .error error⟩ => some (.backend error)
  | ⟨.addOperand _, .ok (actual : UInt32)⟩ =>
      if actual.toNat = place then none else some (.idMismatch place actual)
  | ⟨_, .ok _⟩ => none

/-- None of the exchanges, of which the first is at `place`, is at fault. -/
def Faultless (place : Nat) (exchanges : List Exchange) : Prop :=
  ∀ offset (exchange : Exchange), exchanges[offset]? = some exchange →
    exchange.fault? (place + offset) = none

def Respondent.noting (respond : Respondent σ) : Respondent (σ × List Exchange) :=
  fun request (state, noted) =>
    let (answer, changed) := respond request state
    (answer, changed, noted ++ [⟨request, answer⟩])

/-- Issues requests, of which the first is at `place`, up to the first fault. -/
def issue (respond : Respondent σ) : Nat → List Request → ExceptT SessionError (StateM σ) Unit
  | _, [] => pure ()
  | place, first :: rest => fun state =>
      let (answer, changed) := respond first state
      match Exchange.fault? place ⟨first, answer⟩ with
      | some error => (.error error, changed)
      | none => issue respond (place + 1) rest changed

/-! ## An emission is a loop over requests -/

/-- The requests for a graph whose values and quantizations are listed like this. -/
def Graph.sequence (graph : Graph) (values : List (OperandId × Buffer))
    (quants : List (OperandId × ChannelQuant)) : List Request :=
  graph.operands.map (fun operand => .addOperand operand.type) ++
    (values.map (fun entry => .setValue entry.1.word entry.2) ++
      (quants.map (fun entry => .setChannelQuant entry.1.word entry.2) ++
        (graph.operations.map (fun operation =>
            .addOperation operation.code (indices operation.inputs) (indices operation.outputs)) ++
          [.identify (indices graph.inputs) (indices graph.outputs)])))

/-- The requests of an emission that is not cut short. -/
def Graph.requests (graph : Graph) : List Request :=
  graph.sequence graph.sortedValues graph.sortedQuants

theorem bind_apply {ε α β : Type} (first : ExceptT ε (StateM σ) α)
    (next : α → ExceptT ε (StateM σ) β) (state : σ) :
    (first >>= next) state =
      match first state with
      | (.ok value, changed) => next value changed
      | (.error error, changed) => (.error error, changed) := by
  change (match first state with
    | (value, changed) => ExceptT.bindCont next value changed : Except ε β × σ) = _
  rcases first state with ⟨_ | _, _⟩ <;> rfl

theorem issue_append (respond : Respondent σ) (place : Nat) (first second : List Request) :
    issue respond place (first ++ second) =
      issue respond place first >>= fun _ => issue respond (place + first.length) second := by
  induction first generalizing place with
  | nil => rfl
  | cons request rest ih =>
      funext state
      rw [bind_apply, List.cons_append]
      simp only [issue]
      cases hfault : Exchange.fault? place ⟨request, (respond request state).1⟩ with
      | some error => rfl
      | none =>
          simp only [ih, bind_apply, List.length_cons, Nat.add_assoc, Nat.add_comm 1]

theorem forM_eq_issue {α : Type} (respond : Respondent σ) {items : List α}
    {action : α → ExceptT SessionError (StateM σ) Unit} {request : α → Request} {place : Nat}
    (haction : ∀ offset item, items[offset]? = some item →
      action item = issue respond (place + offset) [request item]) :
    items.forM action = issue respond place (items.map request) := by
  induction items generalizing place with
  | nil => rfl
  | cons item items ih =>
      have hrest : items.forM action = issue respond (place + 1) (items.map request) := by
        apply ih
        intro offset later hlater
        rw [haction (offset + 1) later (by simpa using hlater)]
        congr 1
        omega
      have hfirst : action item = issue respond place [request item] :=
        haction 0 item rfl
      change (action item >>= fun _ => items.forM action) = _
      rw [hfirst, hrest]
      exact (issue_append respond place [request item] (items.map request)).symm

theorem emitOperand_eq_issue (respond : Respondent σ) (operand : Operand) (place : Nat) :
    Graph.emitOperand respond operand place = issue respond place [.addOperand operand.type] := by
  funext state
  refine (bind_apply _ _ state).trans ?_
  simp only [Graph.request, issue]
  rcases respond (.addOperand operand.type) state with ⟨_ | (actual : UInt32), changed⟩
  · rfl
  · by_cases hplace : actual.toNat = place
    · simp [Exchange.fault?, hplace]
    · simp [Exchange.fault?, hplace]
      rfl

theorem request_eq_issue (respond : Respondent σ) (place : Nat) {request : Request}
    (hplain : ∀ answer, Exchange.fault? place ⟨request, .ok answer⟩ = none) :
    (Graph.request respond request >>= fun _ => pure ()) = issue respond place [request] := by
  funext state
  rw [bind_apply]
  simp only [Graph.request, issue]
  rcases respond request state with ⟨_ | answer, changed⟩
  · rfl
  · simp [hplain answer]

private theorem emitOperands_eq_issue (respond : Respondent σ) (operands : List Operand) :
    (operands.zipIdx.forM fun (operand, index) => Graph.emitOperand respond operand index) =
      issue respond 0 (operands.map fun operand => .addOperand operand.type) := by
  have hzipped : (operands.zipIdx.forM fun entry => Graph.emitOperand respond entry.1 entry.2) =
      issue respond 0 (operands.zipIdx.map fun entry => .addOperand entry.1.type) := by
    apply forM_eq_issue
    intro offset entry hentry
    rw [List.getElem?_zipIdx, Option.map_eq_some_iff] at hentry
    obtain ⟨operand, -, rfl⟩ := hentry
    exact emitOperand_eq_issue respond operand _
  have hfirst : operands.zipIdx.map (fun entry => Request.addOperand entry.1.type) =
      operands.map fun operand => .addOperand operand.type := by
    conv_rhs => rw [← List.zipIdx_map_fst 0 operands, List.map_map]
    rfl
  rw [← hfirst]
  exact hzipped

theorem Graph.emit_eq_issue (respond : Respondent σ) (graph : Graph) :
    graph.emit respond = issue respond 0 graph.requests := by
  simp only [requests, sequence, issue_append]
  rw [emit, emitOperands_eq_issue]
  -- After the operands no answer says a place, so a request is at fault only by a refusal.
  congr 1
  funext _
  congr 1
  · apply forM_eq_issue
    intro offset entry _
    exact (bind_pure _).symm.trans (request_eq_issue respond _ fun _ => rfl)
  funext _
  congr 1
  · apply forM_eq_issue
    intro offset entry _
    exact (bind_pure _).symm.trans (request_eq_issue respond _ fun _ => rfl)
  funext _
  congr 1
  · apply forM_eq_issue
    intro offset operation _
    exact (bind_pure _).symm.trans (request_eq_issue respond _ fun _ => rfl)
  funext _
  exact (bind_pure _).symm.trans (request_eq_issue respond _ fun _ => rfl)

/-! ## What is issued -/

/-- How requests from `place` on are replayed: the exchanges and the result of them. -/
inductive Replayed : Nat → List Request → List Exchange → Except SessionError Unit → Prop
  | done {place : Nat} : Replayed place [] [] (.ok ())
  | stopped {place : Nat} {exchange : Exchange} {rest : List Request} {error : SessionError}
      (hfault : exchange.fault? place = some error) :
      Replayed place (exchange.request :: rest) [exchange] (.error error)
  | next {place : Nat} {exchange : Exchange} {rest : List Request} {exchanges : List Exchange}
      {result : Except SessionError Unit} (hfault : exchange.fault? place = none)
      (hrest : Replayed (place + 1) rest exchanges result) :
      Replayed place (exchange.request :: rest) (exchange :: exchanges) result

/-- Noting the exchanges changes neither the result nor the state that is reached. -/
theorem issue_noting (respond : Respondent σ) (requests : List Request) (place : Nat) (state : σ)
    (noted : List Exchange) :
    ∃ exchanges,
      issue respond.noting place requests (state, noted) =
        ((issue respond place requests state).1, (issue respond place requests state).2,
          noted ++ exchanges) ∧
      Replayed place requests exchanges (issue respond place requests state).1 := by
  induction requests generalizing place state noted with
  | nil => exact ⟨[], by rw [List.append_nil]; rfl, .done⟩
  | cons request rest ih =>
      simp only [issue, Respondent.noting]
      cases hfault : Exchange.fault? place ⟨request, (respond request state).1⟩ with
      | some error => exact ⟨_, rfl, .stopped hfault⟩
      | none =>
          obtain ⟨exchanges, hnoting, hreplayed⟩ := ih (place + 1) (respond request state).2
            (noted ++ [⟨request, (respond request state).1⟩])
          rw [List.append_assoc] at hnoting
          exact ⟨_, hnoting, .next hfault hreplayed⟩

namespace Replayed

variable {place : Nat} {requests : List Request} {exchanges : List Exchange}
  {result : Except SessionError Unit}

theorem isPrefix (hreplayed : Replayed place requests exchanges result) :
    exchanges.map (·.request) <+: requests := by
  induction hreplayed with
  | done => simp
  | stopped => simp
  | next _ _ ih => simpa using ih

end Replayed

theorem faultless_cons_iff {place : Nat} {exchange : Exchange} {exchanges : List Exchange} :
    Faultless place (exchange :: exchanges) ↔
      exchange.fault? place = none ∧ Faultless (place + 1) exchanges := by
  constructor
  · intro hall
    refine ⟨hall 0 exchange rfl, ?_⟩
    intro offset later hlater
    have hfault := hall (offset + 1) later (by simpa using hlater)
    rwa [← Nat.add_assoc, Nat.add_right_comm] at hfault
  · rintro ⟨hfirst, hrest⟩ offset later hlater
    cases offset with
    | zero => simp_all
    | succ offset =>
        have hfault := hrest offset later (by simpa using hlater)
        rwa [Nat.add_right_comm] at hfault

namespace Replayed

theorem eq_ok_iff (hreplayed : Replayed place requests exchanges result) :
    result = .ok () ↔ exchanges.map (·.request) = requests ∧ Faultless place exchanges := by
  induction hreplayed with
  | done => simp [Faultless]
  | stopped hfault => simp [faultless_cons_iff, hfault]
  | next hfault _ ih => simp [faultless_cons_iff, hfault, ih]

theorem eq_error_iff {error : SessionError}
    (hreplayed : Replayed place requests exchanges result) :
    result = .error error ↔
      ∃ earlier last, exchanges = earlier ++ [last] ∧ Faultless place earlier ∧
        last.fault? (place + earlier.length) = some error := by
  induction hreplayed with
  | done => simp
  | @stopped place exchange rest stopping hfault =>
      constructor
      · rintro ⟨rfl⟩
        exact ⟨[], exchange, rfl, by simp [Faultless], hfault⟩
      · rintro ⟨earlier, last, hsplit, hearlier, hlast⟩
        cases earlier with
        | nil =>
            cases hsplit
            cases hfault.symm.trans hlast
            rfl
        | cons first others => simp at hsplit
  | @next place exchange rest exchanges result hfault hrest ih =>
      rw [ih]
      constructor
      · rintro ⟨earlier, last, rfl, hearlier, hlast⟩
        refine ⟨exchange :: earlier, last, rfl, faultless_cons_iff.mpr ⟨hfault, hearlier⟩, ?_⟩
        rwa [List.length_cons, Nat.add_comm earlier.length, ← Nat.add_assoc]
      · rintro ⟨earlier, last, hsplit, hearlier, hlast⟩
        cases earlier with
        | nil =>
            cases hsplit
            simp [hfault] at hlast
        | cons first others =>
            cases hsplit
            refine ⟨others, last, rfl, (faultless_cons_iff.mp hearlier).2, ?_⟩
            rwa [List.length_cons, Nat.add_comm others.length, ← Nat.add_assoc] at hlast

end Replayed

end NetLowering
