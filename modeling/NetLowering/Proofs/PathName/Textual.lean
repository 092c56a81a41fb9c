import Mathlib.Tactic.SplitIfs
import NetLowering.Proofs.PathName.Directories

/-!
# Paths that are text

No character but the slash has the byte of the slash, so the segments of a path that is
text are text, and with them its directory.
-/

namespace NetLowering.PathName

variable {path content front name : Bytes}

/-- The bytes are those of a text. -/
def IsText (content : Bytes) : Prop := ∃ text, content = Text.bytes text

namespace IsText

theorem flatMap (chars : List Char) : IsText (chars.flatMap String.utf8EncodeChar) :=
  ⟨String.ofList chars, by rw [Text.bytes_eq_flatMap, String.toList_ofList]⟩

theorem append (hfront : IsText front) (hcontent : IsText content) : IsText (front ++ content) := by
  obtain ⟨first, rfl⟩ := hfront
  obtain ⟨second, rfl⟩ := hcontent
  rw [Text.bytes_eq_flatMap, Text.bytes_eq_flatMap, ← List.flatMap_append]
  exact flatMap _

theorem nil : IsText [] := flatMap []

theorem slash : IsText [slash] := flatMap ['/']

theorem dot : IsText [dot] := flatMap ['.']

theorem join {parts : List Bytes} (hparts : ∀ part ∈ parts, IsText part) :
    IsText (PathName.join parts) := by
  induction parts with
  | nil => exact nil
  | cons first rest ih =>
      by_cases hrest : rest = []
      · simpa [hrest, PathName.join] using hparts first List.mem_cons_self
      · rw [join_cons first hrest]
        exact (hparts first List.mem_cons_self).append
          (slash.append (ih fun part hpart => hparts part (List.mem_cons_of_mem _ hpart)))

theorem child (hpath : IsText path) (hname : IsText name) : IsText (PathName.child path name) := by
  rw [PathName.child]
  split
  · exact hpath.append hname
  · exact hpath.append (slash.append hname)

theorem anchor (path : Path) : IsText (PathName.anchor path) := by
  rw [PathName.anchor]
  split
  · exact slash
  · split
    · exact dot
    · exact nil

end IsText

/-! ## Segments of a text -/

theorem eq_slash_of_mem_encode {char : Char} (hmem : slash ∈ String.utf8EncodeChar char) :
    char = '/' := by
  have hbyte (number : Nat) : slash = UInt8.ofNat number ↔ number % 256 = 47 := by
    rw [← UInt8.toNat_inj, UInt8.toNat_ofNat', eq_comm]
    rfl
  have hnumber : char.val.toNat = 47 := by
    simp only [String.utf8EncodeChar] at hmem
    -- All bytes of a character are above 127 if there is more than one.
    split_ifs at hmem
    all_goals
      simp only [List.mem_cons, List.not_mem_nil, or_false, hbyte] at hmem
      omega
  exact Char.toNat_inj.mp hnumber

theorem splitOn_slash (content : Bytes) :
    (slash :: content).splitOn slash = [] :: content.splitOn slash := by
  rw [List.splitOn_cons_eq_if_modifyHead, if_pos BEq.rfl]

theorem splitOn_append (hfront : slash ∉ front) (content : Bytes) :
    (front ++ content).splitOn slash =
      (content.splitOn slash).modifyHead (front ++ ·) := by
  induction front with
  | nil => exact (congrFun List.modifyHead_id _).symm
  | cons unit front ih =>
      rw [List.mem_cons, not_or] at hfront
      rw [List.cons_append, List.splitOn_cons_eq_if_modifyHead, if_neg, ih hfront.2,
        List.modifyHead_modifyHead]
      · rfl
      · simpa using Ne.symm hfront.1

theorem isText_of_mem_splitOn_flatMap {chars : List Char} {part : Bytes}
    (hpart : part ∈ (chars.flatMap String.utf8EncodeChar).splitOn slash) : IsText part := by
  induction chars generalizing part with
  | nil =>
      rw [List.flatMap_nil, List.splitOn_nil, List.mem_singleton] at hpart
      exact hpart ▸ .nil
  | cons char chars ih =>
      rw [List.flatMap_cons] at hpart
      by_cases hchar : char = '/'
      · subst hchar
        change part ∈ (slash :: chars.flatMap String.utf8EncodeChar).splitOn slash at hpart
        rw [splitOn_slash, List.mem_cons] at hpart
        rcases hpart with rfl | hpart
        · exact .nil
        · exact ih hpart
      · -- The bytes of any other character go to the first segment of what follows.
        rw [splitOn_append (fun hmem => hchar (eq_slash_of_mem_encode hmem))] at hpart
        obtain ⟨first, rest, hsplit⟩ := List.exists_cons_of_ne_nil
          (List.splitOn_ne_nil slash (chars.flatMap String.utf8EncodeChar))
        rw [hsplit, List.modifyHead_cons, List.mem_cons] at hpart
        rcases hpart with rfl | hpart
        · have hhead : IsText (String.utf8EncodeChar char) := by
            simpa using IsText.flatMap [char]
          exact hhead.append (ih (hsplit ▸ List.mem_cons_self))
        · exact ih (hsplit ▸ List.mem_cons_of_mem first hpart)

/-- What starts a path takes no segment with it that stands after it. -/
theorem mem_splitOn_of_mem_drop {part : Bytes}
    (hpart : part ∈ (path.drop (anchor path).length).splitOn slash) :
    part = [] ∨ part ∈ path.splitOn slash := by
  rw [anchor] at hpart
  split at hpart
  · rename_i hroot
    obtain ⟨rest, rfl⟩ := List.head?_eq_some_iff.mp hroot
    rw [splitOn_slash]
    exact .inr (List.mem_cons_of_mem _ hpart)
  · split at hpart
    · rename_i hhere
      rcases hhere with rfl | ⟨rest, rfl⟩
      · exact .inl (List.mem_singleton.mp hpart)
      · change part ∈ (slash :: rest).splitOn slash at hpart
        rw [splitOn_slash, List.mem_cons] at hpart
        refine hpart.imp_right fun hlater => ?_
        change part ∈ ([dot] ++ slash :: rest).splitOn slash
        rw [splitOn_append (by decide), splitOn_slash]
        exact List.mem_cons_of_mem _ hlater
    · exact .inr hpart

theorem isText_of_mem_segments {text : String} {part : Bytes}
    (hpart : part ∈ segments (Text.bytes text)) : IsText part := by
  rcases mem_splitOn_of_mem_drop ((trimEnd_prefix_self _).subset hpart) with rfl | hpart
  · exact .nil
  · rw [Text.bytes_eq_flatMap] at hpart
    exact isText_of_mem_splitOn_flatMap hpart

theorem isText_parent (text : String) : IsText (parent (Text.bytes text)) := by
  refine (IsText.anchor _).append (IsText.join fun part hpart => ?_)
  exact isText_of_mem_segments (List.dropLast_subset _ ((trimEnd_prefix_self _).subset hpart))

end NetLowering.PathName
