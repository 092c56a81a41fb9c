import Mathlib.Data.List.DropRight
import NetLowering.PathName

/-!
# Files of one directory

A path is written as what starts it and the segments after that, joined by slashes
(`Written`), and the segments are read off such a path again.  So a file that takes the
place of another one in its directory has its own name and the same directory
(`child_parent`).
-/

namespace NetLowering.PathName

variable {path start first part name : Bytes} {parts rest : List Bytes}

/-! ## Segments -/

theorem join_cons (first : Bytes) (hrest : rest ≠ []) :
    join (first :: rest) = first ++ slash :: join rest := by
  rw [join, List.intercalate_cons_of_ne_nil hrest, List.append_assoc]
  rfl

theorem join_concat (hparts : parts ≠ []) (name : Bytes) :
    join (parts ++ [name]) = join parts ++ slash :: name := by
  induction parts with
  | nil => exact absurd rfl hparts
  | cons first rest ih =>
      rw [List.cons_append, join_cons first (by simp)]
      by_cases hrest : rest = []
      · simp [hrest, join]
      · rw [ih hrest, join_cons first hrest, List.append_assoc, List.cons_append]

theorem notMem_of_mem_splitOn (hpart : part ∈ path.splitOn slash) : slash ∉ part := by
  induction path generalizing part with
  | nil =>
      rw [List.splitOn_nil, List.mem_singleton] at hpart
      simp [hpart]
  | cons unit path ih =>
      rw [List.splitOn_cons_eq_if_modifyHead] at hpart
      split at hpart
      · rcases List.mem_cons.mp hpart with rfl | hlater
        · simp
        · exact ih hlater
      · rename_i hunit
        cases hsplit : path.splitOn slash with
        | nil => exact absurd hsplit (List.splitOn_ne_nil slash path)
        | cons first rest =>
            rw [hsplit] at hpart ih
            rcases List.mem_cons.mp hpart with rfl | hlater
            · have hfirst := ih List.mem_cons_self
              rw [List.mem_cons, not_or]
              exact ⟨fun hslash => hunit (beq_iff_eq.mpr hslash.symm), hfirst⟩
            · exact ih (List.mem_cons_of_mem _ hlater)

theorem trimEnd_prefix_self (parts : List Bytes) : trimEnd parts <+: parts :=
  List.rdropWhile_prefix isBlank parts

theorem trimEnd_trimEnd (parts : List Bytes) : trimEnd (trimEnd parts) = trimEnd parts :=
  List.rdropWhile_idempotent isBlank parts

theorem trimEnd_concat_of_visible (parts : List Bytes) (hvisible : isBlank name = false) :
    trimEnd (parts ++ [name]) = parts ++ [name] :=
  List.rdropWhile_concat_neg isBlank parts name (by simp [hvisible])

theorem visible_of_trimEnd (htrim : trimEnd parts = rest ++ [name]) : isBlank name = false := by
  have hlast := List.rdropWhile_last_not isBlank parts
    (show trimEnd parts ≠ [] by simp [htrim])
  change ¬isBlank ((trimEnd parts).getLast _) = true at hlast
  simpa [htrim] using hlast

/-! ## Written paths -/

/-- What can start a path before its first segment.  The directory at hand is followed by a slash,
and a path that nothing starts has something for its first segment. -/
inductive Starts : Bytes → Bytes → Prop
  | root (first : Bytes) : Starts [slash] first
  | here : Starts [dot] []
  | plain {first : Bytes} (visible : isBlank first = false) : Starts [] first

/-- The path has these segments after its start. -/
structure Written (path start : Bytes) (parts : List Bytes) : Prop where
  path_eq : path = start ++ join parts
  starts : ∃ first rest, parts = first :: rest ∧ Starts start first
  apart : ∀ part ∈ parts, slash ∉ part

theorem anchor_prefix_self (path : Path) : anchor path <+: path := by
  rw [anchor]
  split
  · rename_i hroot
    obtain ⟨rest, rfl⟩ := List.head?_eq_some_iff.mp hroot
    exact List.prefix_append [slash] rest
  · split
    · rename_i hhere
      rcases hhere with rfl | hhere
      · exact List.prefix_rfl
      · exact (List.prefix_append [dot] [slash]).trans hhere
    · exact List.nil_prefix

theorem anchor_of_visible (hvisible : isBlank first = false) (hfirst : slash ∉ first)
    (rest : Bytes) : anchor (first ++ rest) = [] := by
  rcases first with _ | ⟨unit, _ | ⟨second, units⟩⟩
  · cases hvisible
  · have hunit : slash ≠ unit ∧ unit ≠ dot := by
      simpa [isBlank] using And.intro hfirst hvisible
    simp [anchor, hunit, Ne.symm hunit.1, Ne.symm hunit.2, List.cons_prefix_cons]
  · have hunits : unit ≠ slash ∧ second ≠ slash := by
      simp only [List.mem_cons, not_or] at hfirst
      exact ⟨Ne.symm hfirst.1, Ne.symm hfirst.2.1⟩
    simp [anchor, hunits, List.cons_prefix_cons, Ne.symm hunits.2]

namespace Written

theorem anchor_eq (hwritten : Written path start parts) : anchor path = start := by
  obtain ⟨rfl, ⟨first, rest, rfl, hstarts⟩, hapart⟩ := hwritten
  cases hstarts with
  | root => simp [anchor]
  | here =>
      by_cases hrest : rest = []
      · simp [anchor, hrest, join, dot, slash]
      · simp [anchor, join_cons [] hrest, dot, slash]
  | plain hvisible =>
      have hfirst := hapart first List.mem_cons_self
      rw [List.nil_append]
      by_cases hrest : rest = []
      · simpa [hrest, join] using anchor_of_visible hvisible hfirst []
      · rw [join_cons first hrest]
        exact anchor_of_visible hvisible hfirst _

theorem segments_eq (hwritten : Written path start parts) : segments path = trimEnd parts := by
  obtain ⟨first, rest, hparts, -⟩ := hwritten.starts
  rw [segments, hwritten.anchor_eq, hwritten.path_eq, List.drop_left, join,
    List.splitOn_intercalate slash hwritten.apart (by simp [hparts])]

end Written

/-- Nothing starts a path just if it has something for its first segment. -/
theorem visible_of_anchor_eq_nil {unit : UInt8} {units : Bytes}
    (hstart : anchor (unit :: units) = [])
    (hsplit : (unit :: units).splitOn slash = first :: rest) : isBlank first = false := by
  have hpath : join (first :: rest) = unit :: units := by
    rw [← hsplit]
    exact List.intercalate_splitOn slash
  rw [← hpath] at hstart
  by_contra hblank
  have hfirst : first = [] ∨ first = [dot] := by
    simpa [isBlank, Classical.or_iff_not_imp_left] using hblank
  by_cases hrest : rest = []
  · rcases hfirst with rfl | rfl
    · simp [hrest, join] at hpath
    · simp [hrest, join, anchor, dot, slash] at hstart
  · rw [join_cons first hrest] at hstart
    rcases hfirst with rfl | rfl
    · simp [anchor] at hstart
    · simp [anchor, dot, slash] at hstart

theorem starts_of_splitOn (hpath : path ≠ [])
    (hsplit : (path.drop (anchor path).length).splitOn slash = first :: rest) :
    Starts (anchor path) first := by
  by_cases hroot : path.head? = some slash
  · rw [anchor, if_pos hroot]
    exact .root first
  by_cases hhere : path = [dot] ∨ [dot, slash] <+: path
  · rw [anchor, if_neg hroot, if_pos hhere] at hsplit ⊢
    have hfirst : first = [] := by
      rcases hhere with rfl | ⟨units, rfl⟩
      · simpa [eq_comm] using (List.cons.inj hsplit).1
      · simp [List.splitOn_cons_eq_if_modifyHead] at hsplit
        exact hsplit.1
    exact hfirst ▸ .here
  · have hstart : anchor path = [] := by rw [anchor, if_neg hroot, if_neg hhere]
    obtain ⟨unit, units, rfl⟩ := List.exists_cons_of_ne_nil hpath
    rw [hstart] at hsplit ⊢
    exact .plain (visible_of_anchor_eq_nil hstart hsplit)

/-- Every path but the empty one is written so. -/
theorem written_of_ne_nil (hpath : path ≠ []) :
    Written path (anchor path) ((path.drop (anchor path).length).splitOn slash) := by
  obtain ⟨first, rest, hsplit⟩ := List.exists_cons_of_ne_nil
    (List.splitOn_ne_nil slash (path.drop (anchor path).length))
  refine ⟨?_, ⟨first, rest, hsplit, starts_of_splitOn hpath hsplit⟩,
    fun part hpart => notMem_of_mem_splitOn hpart⟩
  rw [join, List.intercalate_splitOn]
  exact (List.prefix_iff_eq_append.mp (anchor_prefix_self path)).symm

/-! ## Files -/

/-- A segment that can name a file. -/
structure NamesFile (name : Bytes) : Prop where
  apart : slash ∉ name
  visible : isBlank name = false
  below : name ≠ [dot, dot]

theorem fileName?_eq_some_iff :
    fileName? path = some name ↔ name ≠ [dot, dot] ∧ ∃ parts, segments path = parts ++ [name] := by
  rw [fileName?, Option.filter_eq_some_iff, List.getLast?_eq_some_iff, and_comm]
  simp

theorem namesFile_of_fileName? (hname : fileName? path = some name) : NamesFile name := by
  obtain ⟨hbelow, parts, hparts⟩ := fileName?_eq_some_iff.mp hname
  refine ⟨?_, visible_of_trimEnd hparts, hbelow⟩
  have hmem : name ∈ segments path := by simp [hparts]
  exact notMem_of_mem_splitOn ((trimEnd_prefix_self _).subset hmem)

theorem ne_nil_of_fileName? (hname : fileName? path = some name) : path ≠ [] := by
  rintro rfl
  cases hname

/-- A path without blank segments at its end does not end with a slash. -/
theorem exists_getLast?_join (start : Bytes) (parts : List Bytes) (hapart : slash ∉ name)
    (hvisible : isBlank name = false) :
    ∃ unit, (start ++ join (parts ++ [name])).getLast? = some unit ∧ unit ≠ slash := by
  have hname : name ≠ [] := by
    rintro rfl
    cases hvisible
  obtain ⟨units, hunits⟩ : ∃ units, join (parts ++ [name]) = units ++ name := by
    by_cases hparts : parts = []
    · exact ⟨[], by simp [hparts, join]⟩
    · exact ⟨join parts ++ [slash], by simp [join_concat hparts]⟩
  refine ⟨name.getLast hname, ?_, fun hlast => hapart (hlast ▸ List.getLast_mem hname)⟩
  rw [hunits, ← List.append_assoc, List.getLast?_append_of_ne_nil _ hname,
    List.getLast?_eq_some_getLast hname]

/-- A child of the directory that a path starts in. -/
theorem written_child_of_start (hstarts : Starts start first) (hname : NamesFile name) :
    ∃ others, Written (child start name) start (others ++ [name]) ∧ trimEnd others = [] := by
  have hapart : ∀ part ∈ [name], slash ∉ part := by simp [hname.apart]
  cases hstarts with
  | root => exact ⟨[], ⟨by simp [child, join], ⟨name, [], rfl, .root name⟩, hapart⟩, rfl⟩
  | here =>
      refine ⟨[[]], ⟨?_, ⟨[], [name], rfl, .here⟩, by simp [hname.apart]⟩, rfl⟩
      simp [child, join, dot, slash]
  | plain => exact ⟨[], ⟨by simp [child, join], ⟨name, [], rfl, .plain hname.visible⟩, hapart⟩, rfl⟩

/-- A child of a directory below the one that the path starts in. -/
theorem written_child_of_concat {last : Bytes} (hwritten : Written path start (parts ++ [last]))
    (hvisible : isBlank last = false) (hname : NamesFile name) :
    Written (child path name) start (parts ++ [last] ++ [name]) := by
  obtain ⟨rfl, ⟨first, rest, hparts, hstarts⟩, hapart⟩ := hwritten
  refine ⟨?_, ⟨first, rest ++ [name], by rw [hparts, List.cons_append], hstarts⟩, ?_⟩
  · obtain ⟨unit, hunit, hslash⟩ :=
      exists_getLast?_join start parts (hapart last (by simp)) hvisible
    have hfile : ¬(start ++ join (parts ++ [last]) = [] ∨
        (start ++ join (parts ++ [last])).getLast? = some slash) := by
      rintro (hempty | hend)
      · simp [hempty] at hunit
      · exact hslash (Option.some.inj (hunit.symm.trans hend))
    rw [child, if_neg hfile, List.append_assoc, join_concat (by simp) name]
  · intro part hpart
    rcases List.mem_append.mp hpart with hbefore | hlast
    · exact hapart part hbefore
    · rw [List.mem_singleton.mp hlast]
      exact hname.apart

/-- A child of a directory has the segments of the directory and its own name. -/
theorem written_child {directory : List Bytes} (hwritten : Written path start parts)
    (hbegins : directory <+: parts) (htrimmed : trimEnd directory = directory)
    (hname : NamesFile name) :
    ∃ others, Written (child (start ++ join directory) name) start (others ++ [name]) ∧
      trimEnd others = directory := by
  obtain ⟨-, ⟨first, rest, rfl, hfirst⟩, hapart⟩ := hwritten
  rcases List.eq_nil_or_concat' directory with rfl | ⟨front, last, rfl⟩
  · rw [join, List.intercalate_nil, List.append_nil]
    exact written_child_of_start hfirst hname
  · have hdirectory : Written (start ++ join (front ++ [last])) start (front ++ [last]) := by
      refine ⟨rfl, ?_, fun part hpart => hapart part (hbegins.subset hpart)⟩
      obtain ⟨head, tail, hhead⟩ := List.exists_cons_of_ne_nil (List.concat_ne_nil last front)
      rw [hhead, List.cons_prefix_cons] at hbegins
      exact ⟨head, tail, hhead, hbegins.1 ▸ hfirst⟩
    exact ⟨front ++ [last], written_child_of_concat hdirectory (visible_of_trimEnd htrimmed) hname,
      htrimmed⟩

/-- A name that takes the place of the file name keeps the directory. -/
theorem child_parent {old : Bytes} (hold : fileName? path = some old) (hname : NamesFile name) :
    fileName? (child (parent path) name) = some name ∧
      parent (child (parent path) name) = parent path := by
  have hwritten := written_of_ne_nil (ne_nil_of_fileName? hold)
  obtain ⟨-, before, hbefore⟩ := fileName?_eq_some_iff.mp hold
  have hbegins : before <+: (path.drop (anchor path).length).splitOn slash :=
    (List.prefix_append before [old]).trans (hbefore ▸ trimEnd_prefix_self _)
  have hparent : parent path = anchor path ++ join (trimEnd before) := by
    rw [parent, hbefore, List.dropLast_concat]
  obtain ⟨others, hchild, htrimmed⟩ := written_child hwritten
    ((trimEnd_prefix_self before).trans hbegins) (trimEnd_trimEnd before) hname
  rw [← hparent] at hchild
  have hsegments : segments (child (parent path) name) = others ++ [name] := by
    rw [hchild.segments_eq, trimEnd_concat_of_visible others hname.visible]
  constructor
  · exact fileName?_eq_some_iff.mpr ⟨hname.below, others, hsegments⟩
  · rw [parent, hchild.anchor_eq, hsegments, List.dropLast_concat, htrimmed, hparent]

end NetLowering.PathName
