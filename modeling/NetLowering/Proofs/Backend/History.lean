import Mathlib.Logic.Function.Basic
import NetLowering.Proofs.Backend.Workshop

/-!
# The history of a workshop

Errands are run on a fresh backend one after another, and for everything that is
created an account is kept of what it has been granted.  Only a granted errand
changes an account, and only that of its own subject (`Kept.set`).
-/

namespace NetLowering.Workshop

variable {β : Type}

/-! ## The history -/

abbrev Entry := Errand × Except DeskError Reply

/-- A command that was carried out, and the reply to it. -/
abbrev Grant := Command × Reply

/-- Runs errands on a fresh backend, one after another. -/
def serve (errands : List Errand) : List Entry × Workshop :=
  errands.foldl (fun (entries, workshop) errand =>
    (entries ++ [(errand, (workshop.perform errand).1)], (workshop.perform errand).2)) ([], {})

/-- What has been carried out on one thing, in order. -/
def granted (entries : List Entry) (kind : CommandKind) (number : Nat) : List Grant :=
  entries.filterMap fun (errand, reply) =>
    if errand.command.kind = kind ∧ errand.subject = number then
      reply.toOption.map (errand.command, ·)
    else none

theorem serve_concat (errands : List Errand) (errand : Errand) :
    serve (errands ++ [errand]) =
      ((serve errands).1 ++ [(errand, ((serve errands).2.perform errand).1)],
        ((serve errands).2.perform errand).2) := by
  rw [serve, List.foldl_concat]
  rfl

theorem granted_refused (entries : List Entry) (errand : Errand) (error : DeskError)
    (kind : CommandKind) :
    granted (entries ++ [(errand, .error error)]) kind = granted entries kind := by
  funext number
  simp [granted, Except.toOption]

theorem granted_other (entries : List Entry) {errand : Errand} {kind : CommandKind}
    (hother : errand.command.kind ≠ kind) (reply : Except DeskError Reply) :
    granted (entries ++ [(errand, reply)]) kind = granted entries kind := by
  funext number
  simp [granted, hother]

theorem granted_ok (entries : List Entry) (errand : Errand) (reply : Reply) :
    granted (entries ++ [(errand, .ok reply)]) errand.command.kind =
      Function.update (granted entries errand.command.kind) errand.subject
        (granted entries errand.command.kind errand.subject ++ [(errand.command, reply)]) := by
  funext number
  by_cases hnumber : number = errand.subject
  · subst hnumber
    simp [granted, Except.toOption]
  · have hother : errand.subject ≠ number := fun hsame => hnumber hsame.symm
    simp [granted, hother, Function.update_of_ne hnumber]

/-! ## Keeping account -/

/-- Of everything there is account is kept, and nothing was granted to what is not there. -/
structure Kept (Account : List Grant → β → Prop) (grants : Nat → List Grant) (things : List β) :
    Prop where
  there : ∀ {number : Nat} {thing : β}, things[number]? = some thing →
    Account (grants number) thing
  absent : ∀ number, things.length ≤ number → grants number = []

section Kept

variable {Account : List Grant → β → Prop} {grants : Nat → List Grant} {things : List β}

theorem Kept.append (hkept : Kept Account grants things) {thing : β} (hnew : Account [] thing) :
    Kept Account grants (things ++ [thing]) := by
  constructor
  · intro number found hfound
    rcases Nat.lt_trichotomy number things.length with hnumber | rfl | hnumber
    · rw [List.getElem?_append_left hnumber] at hfound
      exact hkept.there hfound
    · rw [List.getElem?_concat_length] at hfound
      obtain rfl := Option.some.inj hfound
      rw [hkept.absent _ (Nat.le_refl _)]
      exact hnew
    · obtain ⟨hlength, -⟩ := List.getElem?_eq_some_iff.mp hfound
      rw [List.length_append, List.length_singleton] at hlength
      omega
  · intro number hnumber
    rw [List.length_append] at hnumber
    exact hkept.absent number (by omega)

theorem Kept.set (hkept : Kept Account grants things) {place : Nat} {old new : β}
    (hthere : things[place]? = some old) {grant : Grant}
    (hstep : Account (grants place) old → Account (grants place ++ [grant]) new) :
    Kept Account (Function.update grants place (grants place ++ [grant]))
      (things.set place new) := by
  obtain ⟨hplace, -⟩ := List.getElem?_eq_some_iff.mp hthere
  constructor
  · intro number found hfound
    by_cases hnumber : number = place
    · subst hnumber
      rw [List.getElem?_set_self hplace] at hfound
      obtain rfl := Option.some.inj hfound
      rw [Function.update_self]
      exact hstep (hkept.there hthere)
    · rw [List.getElem?_set_ne (Ne.symm hnumber)] at hfound
      rw [Function.update_of_ne hnumber]
      exact hkept.there hfound
  · intro number hnumber
    rw [List.length_set] at hnumber
    rw [Function.update_of_ne (by omega)]
    exact hkept.absent number hnumber

end Kept

end NetLowering.Workshop
