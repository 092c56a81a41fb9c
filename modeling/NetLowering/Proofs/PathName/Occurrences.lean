import Mathlib.Data.List.Infix
import Mathlib.Tactic.IntervalCases
import NetLowering.PathName

/-!
# The last occurrence of a word

A word is replaced where it stands last, if it stands anywhere.  Where no occurrence
can reach into a text, the occurrences before it and those in it add up
(`occurrences_append`), so a replacement can neither save nor make one.
-/

namespace NetLowering.PathName

variable {pattern replacement text : List Char}

/-! ## Replacing -/

/-- The pattern stands between these parts of the text, and nowhere later. -/
structure StandsLast (pattern text before after : List Char) : Prop where
  stands : text = before ++ pattern ++ after
  last : ∀ earlier later, text = earlier ++ pattern ++ later → earlier.length ≤ before.length

theorem StandsLast.cons {before after : List Char} (hlast : StandsLast pattern text before after)
    (char : Char) : StandsLast pattern (char :: text) (char :: before) after := by
  refine ⟨congrArg (char :: ·) hlast.stands, ?_⟩
  rintro (_ | ⟨first, earlier⟩) later htext
  · exact Nat.zero_le _
  · exact Nat.succ_le_succ (hlast.last earlier later (List.cons.inj htext).2)

theorem standsLast_head {char : Char} {after : List Char}
    (hstands : char :: text = pattern ++ after) (habsent : ¬pattern <:+: text) :
    StandsLast pattern (char :: text) [] after := by
  refine ⟨hstands, ?_⟩
  rintro (_ | ⟨first, earlier⟩) later htext
  · exact Nat.le_refl _
  · exact absurd ⟨earlier, later, (List.cons.inj htext).2.symm⟩ habsent

theorem replaceLast?_eq_none_iff (hpattern : pattern ≠ []) :
    replaceLast? pattern replacement text = none ↔ ¬pattern <:+: text := by
  induction text with
  | nil => simp [replaceLast?, hpattern]
  | cons char rest ih =>
      rw [replaceLast?, List.infix_cons_iff, not_or, ← ih]
      cases replaceLast? pattern replacement rest <;> simp

theorem standsLast_of_replaceLast? {result : List Char} (hpattern : pattern ≠ [])
    (hreplace : replaceLast? pattern replacement text = some result) :
    ∃ before after, StandsLast pattern text before after ∧
      result = before ++ replacement ++ after := by
  induction text generalizing result with
  | nil => cases hreplace
  | cons char rest ih =>
      rw [replaceLast?] at hreplace
      cases hrest : replaceLast? pattern replacement rest with
      | some replaced =>
          rw [hrest] at hreplace
          cases hreplace
          obtain ⟨before, after, hlast, rfl⟩ := ih hrest
          exact ⟨char :: before, after, hlast.cons char, rfl⟩
      | none =>
          rw [hrest, Option.ite_none_right_eq_some, List.isPrefixOf_iff_prefix] at hreplace
          obtain ⟨hbegins, ⟨⟩⟩ := hreplace
          obtain ⟨after, hafter⟩ := hbegins
          have hlast := standsLast_head hafter.symm ((replaceLast?_eq_none_iff hpattern).mp hrest)
          refine ⟨[], after, hlast, ?_⟩
          rw [← hafter, List.drop_left, List.nil_append]

/-! ## Counting -/

/-- How many places of the text the pattern stands at. -/
def occurrences (pattern text : List Char) : Nat :=
  text.tails.countP fun rest => pattern.isPrefixOf rest

theorem occurrences_nil (hpattern : pattern ≠ []) : occurrences pattern [] = 0 := by
  simp [occurrences, hpattern]

theorem occurrences_cons (pattern : List Char) (char : Char) (text : List Char) :
    occurrences pattern (char :: text) =
      occurrences pattern text + if pattern <+: char :: text then 1 else 0 := by
  rw [occurrences, List.tails_cons, List.countP_cons]
  simp only [List.isPrefixOf_iff_prefix]
  rfl

/-- No occurrence of the pattern reaches from before the text into it. -/
def KeepsOut (pattern text : List Char) : Prop :=
  ∀ before, before ≠ [] → pattern <+: before ++ text → pattern <+: before

theorem occurrences_append (hpattern : pattern ≠ []) (hout : KeepsOut pattern text)
    (before : List Char) :
    occurrences pattern (before ++ text) =
      occurrences pattern before + occurrences pattern text := by
  induction before with
  | nil => rw [List.nil_append, occurrences_nil hpattern, Nat.zero_add]
  | cons char before ih =>
      have hhead : pattern <+: char :: before ++ text ↔ pattern <+: char :: before :=
        ⟨hout _ (by simp), fun hbegins => hbegins.trans (List.prefix_append _ _)⟩
      rw [List.cons_append] at hhead ⊢
      rw [occurrences_cons, occurrences_cons, ih, if_congr hhead rfl rfl]
      omega

/-- It is enough that the text does not begin with an end of the pattern. -/
theorem keepsOut_of_ends
    (hends : ∀ count, 0 < count → count < pattern.length → ¬pattern.drop count <+: text) :
    KeepsOut pattern text := by
  intro before hbefore hbegins
  rcases List.prefix_or_prefix_of_prefix hbegins (List.prefix_append before text) with
    hinside | ⟨rest, rfl⟩
  · exact hinside
  · rw [List.prefix_append_right_inj] at hbegins
    cases rest with
    | nil => simp
    | cons char rest =>
        have hend := hends before.length (List.length_pos_of_ne_nil hbefore) (by simp)
        rw [List.drop_left] at hend
        exact absurd hbegins hend

/-! ## Predict and init -/

theorem occurrences_predict (before after : List Char) :
    occurrences "predict".toList (before ++ "predict".toList ++ after) =
      occurrences "predict".toList (before ++ "init".toList ++ after) + 1 := by
  have hpredict : KeepsOut "predict".toList ("predict".toList ++ after) := by
    refine keepsOut_of_ends fun count hpositive hshort => ?_
    change count < 7 at hshort
    interval_cases count <;> simp
  have hinit : KeepsOut "predict".toList ("init".toList ++ after) := by
    refine keepsOut_of_ends fun count hpositive hshort => ?_
    change count < 7 at hshort
    interval_cases count <;> simp
  rw [List.append_assoc, List.append_assoc, occurrences_append (by simp) hpredict,
    occurrences_append (by simp) hinit]
  simp [occurrences_cons]
  omega

end NetLowering.PathName
