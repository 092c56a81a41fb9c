import NetLowering.Proofs.Backend.Models
import NetLowering.Proofs.Emission.Replay

/-!
# Filling a recorded model

The log of the recorded model is written and never read.  `Model.fill` is a
replay without it.  A run of requests settles a proposition when the model
takes all of them where it holds and calls an operand invalid where it does
not; runs that settle something are put together request by request and phase
by phase.
-/

namespace NetLowering

namespace Model

/-- Replays requests, of which the first is at `place`, up to the first fault. -/
def fill (model : Model) (place : Nat) : List Request → Except SessionError Model
  | [] => .ok model
  | request :: rest =>
      match (perform request).outcome model with
      | .error error => .error (.backend error)
      | .ok (answer, changed) =>
          match Exchange.fault? place ⟨request, .ok answer⟩ with
          | some error => .error error
          | none => changed.fill (place + 1) rest

theorem fill_append {model : Model} {place : Nat} {first second : List Request} :
    model.fill place (first ++ second) =
      model.fill place first >>= fun filled => filled.fill (place + first.length) second := by
  induction first generalizing model place with
  | nil => rfl
  | cons request rest ih =>
      rw [List.cons_append, fill, fill]
      cases (perform request).outcome model with
      | error error => rfl
      | ok performed =>
          obtain ⟨answer, changed⟩ := performed
          cases hfault : Exchange.fault? place ⟨request, .ok answer⟩ with
          | some error => simp only [hfault]; rfl
          | none => simp only [hfault, ih, List.length_cons, Nat.add_assoc, Nat.add_comm 1]

end Model

/-! ## The log -/

theorem recorded_eq (request : Request) (model : Model) (calls : List Call) :
    recorded request (model, calls) =
      match (Model.perform request).outcome model with
      | .ok (answer, changed) => (.ok answer, changed, calls ++ [.ofRequest request answer])
      | .error error => (.error error, model, calls) := by
  refine (Model.perform_whole model request calls).trans ?_
  rcases (Model.perform request).outcome model with error | ⟨answer, changed⟩ <;> rfl

theorem issue_recorded (requests : List Request) (place : Nat) (model : Model)
    (calls : List Call) :
    ∃ filled longer,
      issue recorded place requests (model, calls) =
        ((model.fill place requests).map fun _ => (), filled, longer) ∧
      ∀ final, model.fill place requests = .ok final → filled = final := by
  induction requests generalizing place model calls with
  | nil => exact ⟨model, calls, rfl, by rintro final ⟨rfl⟩; rfl⟩
  | cons request rest ih =>
      simp only [issue, Model.fill, recorded_eq]
      cases (Model.perform request).outcome model with
      | error error => exact ⟨model, calls, rfl, by simp⟩
      | ok performed =>
          obtain ⟨answer, changed⟩ := performed
          cases hfault : Exchange.fault? place ⟨request, .ok answer⟩ with
          | some error => exact ⟨changed, _, by simp only [hfault]; rfl, by simp [hfault]⟩
          | none =>
              simp only [hfault]
              exact ih (place + 1) changed (calls ++ [.ofRequest request answer])

theorem Graph.emit_recorded (graph : Graph) (model : Model) (calls : List Call) :
    ∃ filled longer,
      (graph.emit recorded).run (model, calls) =
        ((model.fill 0 graph.requests).map fun _ => (), filled, longer) ∧
      ∀ final, model.fill 0 graph.requests = .ok final → filled = final := by
  rw [emit_eq_issue]
  exact issue_recorded graph.requests 0 model calls

/-! ## Settling -/

namespace Model

/-- The requests end in `final` where `Good` holds and over an invalid operand where it does
not, though never over a second value. -/
structure Settles (model : Model) (place : Nat) (requests : List Request) (Good : Prop)
    (final : Model) : Prop where
  accepts : Good → model.fill place requests = .ok final
  refuses : ¬Good → ∃ index fault, fault ≠ .valueTwice ∧
    model.fill place requests = .error (.backend (.invalidOperand index fault))

variable {model middle final : Model} {place : Nat} {first second : List Request}
  {Good Better : Prop}

theorem Settles.append (hfirst : model.Settles place first Good middle)
    (hsecond : middle.Settles (place + first.length) second Better final) :
    model.Settles place (first ++ second) (Good ∧ Better) final := by
  constructor
  · rintro ⟨hgood, hbetter⟩
    rw [fill_append, hfirst.accepts hgood]
    exact hsecond.accepts hbetter
  · intro hbad
    by_cases hgood : Good
    · obtain ⟨index, fault, hfault, hfill⟩ := hsecond.refuses fun hbetter => hbad ⟨hgood, hbetter⟩
      refine ⟨index, fault, hfault, ?_⟩
      rw [fill_append, hfirst.accepts hgood]
      exact hfill
    · obtain ⟨index, fault, hfault, hfill⟩ := hfirst.refuses hgood
      refine ⟨index, fault, hfault, ?_⟩
      rw [fill_append, hfill]
      rfl

theorem Settles.of_iff (hsettles : model.Settles place first Good final)
    (hiff : Better ↔ Good) : model.Settles place first Better final :=
  ⟨fun hbetter => hsettles.accepts (hiff.mp hbetter),
    fun hbad => hsettles.refuses fun hgood => hbad (hiff.mpr hgood)⟩

/-- One phase: a request for each item, with the model known after every part of the items. -/
theorem settles_map {α : Type} {items : List α} {request : α → Request} {Good : α → Prop}
    (after : List α → Model)
    (hitem : ∀ done item rest, items = done ++ item :: rest →
      (after done).Settles (place + done.length) [request item] (Good item)
        (after (done ++ [item]))) :
    (after []).Settles place (items.map request) (∀ item ∈ items, Good item) (after items) := by
  -- The induction is on what is left, with what is done kept at hand.
  suffices hrest : ∀ rest done, items = done ++ rest →
      (after done).Settles (place + done.length) (rest.map request) (∀ item ∈ rest, Good item)
        (after items) by
    simpa using hrest items [] rfl
  intro rest
  induction rest with
  | nil =>
      intro done hitems
      rw [List.append_nil] at hitems
      exact ⟨fun _ => by rw [hitems]; rfl, fun hbad => absurd (by simp) hbad⟩
  | cons item rest ih =>
      intro done hitems
      have htail := ih (done ++ [item]) (by simp [hitems])
      rw [List.length_append, ← Nat.add_assoc] at htail
      refine ((hitem done item rest hitems).append htail).of_iff ?_
      simp

end Model

end NetLowering
