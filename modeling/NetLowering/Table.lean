/-!
# Tables

A table binds keys to values and keeps its entries in ascending key order.  It
is therefore determined by what it answers: `ext_find?` says that two tables
with the same answers are equal, so the order in which entries went in never
shows, and `find?_insert` says what an insertion changes.
-/

namespace NetLowering

/-- Entries in strictly ascending key order. -/
structure Table (κ : Type) [Ord κ] (α : Type) where
  entries : List (κ × α)
  ascending : entries.Pairwise fun first second => compare first.1 second.1 = .lt

namespace Table

variable {κ α : Type} [Ord κ]

instance [DecidableEq κ] [DecidableEq α] : DecidableEq (Table κ α) := fun left right =>
  decidable_of_iff (left.entries = right.entries) (by cases left; cases right; simp)

instance [Repr κ] [Repr α] : Repr (Table κ α) := ⟨fun table precedence =>
  reprPrec table.entries precedence⟩

def empty : Table κ α := ⟨[], .nil⟩

instance : EmptyCollection (Table κ α) := ⟨empty⟩

instance : Inhabited (Table κ α) := ⟨empty⟩

def keys (table : Table κ α) : List κ := table.entries.map (·.1)

def size (table : Table κ α) : Nat := table.entries.length

def lookup [DecidableEq κ] (key : κ) : List (κ × α) → Option α
  | [] => none
  | entry :: rest => if key = entry.1 then some entry.2 else lookup key rest

def find? [DecidableEq κ] (table : Table κ α) (key : κ) : Option α :=
  lookup key table.entries

def contains [DecidableEq κ] (table : Table κ α) (key : κ) : Bool :=
  (table.find? key).isSome

/-- Puts an entry where its key belongs; an entry with that key gives way. -/
def place (key : κ) (value : α) : List (κ × α) → List (κ × α)
  | [] => [(key, value)]
  | entry :: rest =>
    match compare key entry.1 with
    | .lt => (key, value) :: entry :: rest
    | .eq => (key, value) :: rest
    | .gt => entry :: place key value rest

/-! ## Insertion -/

theorem mem_place {key : κ} {value : α} {entries : List (κ × α)} {entry : κ × α}
    (member : entry ∈ place key value entries) : entry = (key, value) ∨ entry ∈ entries := by
  induction entries with
  | nil => simpa [place] using member
  | cons first rest ih =>
    rw [place] at member
    split at member <;> grind

variable [Std.TransOrd κ]

theorem ascending_place (key : κ) (value : α) {entries : List (κ × α)}
    (ascending : entries.Pairwise fun first second => compare first.1 second.1 = .lt) :
    (place key value entries).Pairwise fun first second => compare first.1 second.1 = .lt := by
  induction entries with
  | nil => simp [place]
  | cons first rest ih =>
    rw [List.pairwise_cons] at ascending
    rw [place]
    split
    case h_1 before =>
      refine .cons (fun entry member => ?_) (.cons ascending.1 ascending.2)
      rcases List.mem_cons.mp member with rfl | later
      · exact before
      · exact Std.TransCmp.lt_trans before (ascending.1 _ later)
    case h_2 same =>
      exact .cons (fun entry member => Std.TransCmp.lt_of_eq_of_lt same (ascending.1 _ member))
        ascending.2
    case h_3 after =>
      refine .cons (fun entry member => ?_) (ih ascending.2)
      rcases mem_place member with rfl | later
      · exact Std.OrientedCmp.lt_of_gt after
      · exact ascending.1 _ later

def insert (table : Table κ α) (key : κ) (value : α) : Table κ α :=
  ⟨place key value table.entries, ascending_place key value table.ascending⟩

def ofList (bindings : List (κ × α)) : Table κ α :=
  bindings.foldl (fun table binding => table.insert binding.1 binding.2) empty

variable [DecidableEq κ]

omit [Std.TransOrd κ] in
@[simp] theorem find?_empty (key : κ) : (empty : Table κ α).find? key = none := rfl

variable [Std.LawfulEqOrd κ]

omit [Std.TransOrd κ] in
private theorem lookup_place (key other : κ) (value : α) (entries : List (κ × α)) :
    lookup other (place key value entries) =
      if other = key then some value else lookup other entries := by
  induction entries with
  | nil => simp [place, lookup]
  | cons first rest ih =>
    rw [place]
    split
    case h_1 => simp only [lookup]
    case h_2 found =>
      cases Std.LawfulEqCmp.eq_of_compare found
      simp only [lookup]
      split <;> rfl
    case h_3 after =>
      have differ : first.1 ≠ key := by
        rintro rfl
        simp [Std.ReflCmp.compare_self] at after
      simp only [lookup, ih]
      grind

@[simp] theorem find?_insert (table : Table κ α) (key other : κ) (value : α) :
    (table.insert key value).find? other =
      if other = key then some value else table.find? other :=
  lookup_place key other value table.entries

/-! ## A table is what it answers -/

omit [Std.TransOrd κ] in
private theorem lookup_eq_none_of_before {key : κ} {entries : List (κ × α)}
    (before : ∀ entry ∈ entries, compare key entry.1 = .lt) : lookup key entries = none := by
  induction entries with
  | nil => rfl
  | cons first rest ih =>
    have differ : key ≠ first.1 := by
      intro same
      have := before first List.mem_cons_self
      simp [same, Std.ReflCmp.compare_self] at this
    rw [lookup, if_neg differ]
    exact ih fun entry member => before entry (List.mem_cons_of_mem _ member)

private theorem eq_of_lookup_eq {left right : List (κ × α)}
    (leftAscending : left.Pairwise fun first second => compare first.1 second.1 = .lt)
    (rightAscending : right.Pairwise fun first second => compare first.1 second.1 = .lt)
    (same : ∀ key, lookup key left = lookup key right) : left = right := by
  induction left generalizing right with
  | nil =>
    cases right with
    | nil => rfl
    | cons first rest => simpa [lookup] using same first.1
  | cons first rest ih =>
    cases right with
    | nil => simpa [lookup] using same first.1
    | cons other others =>
      have firstKey := same first.1
      have otherKey := same other.1
      rw [List.pairwise_cons] at leftAscending rightAscending
      have absentBefore : ∀ {low high : κ × α} {later : List (κ × α)},
          compare low.1 high.1 = .lt → (∀ entry ∈ later, compare high.1 entry.1 = .lt) →
            lookup low.1 (high :: later) = none := by
        intro low high later order ascending
        refine lookup_eq_none_of_before fun entry member => ?_
        rcases List.mem_cons.mp member with rfl | later
        · exact order
        · exact Std.TransCmp.lt_trans order (ascending entry later)
      have keysAgree : first.1 = other.1 := by
        rcases order : compare first.1 other.1 with _ | _ | _
        · rw [absentBefore order rightAscending.1] at firstKey
          simp [lookup] at firstKey
        · exact Std.LawfulEqCmp.eq_of_compare order
        · rw [absentBefore (Std.OrientedCmp.lt_of_gt order) leftAscending.1] at otherKey
          simp [lookup] at otherKey
      have valuesAgree : first.2 = other.2 := by
        simpa [lookup, keysAgree] using firstKey
      have restAgree : rest = others := by
        refine ih leftAscending.2 rightAscending.2 fun key => ?_
        by_cases head : key = first.1
        · subst head
          rw [lookup_eq_none_of_before leftAscending.1,
            lookup_eq_none_of_before fun entry member => keysAgree ▸ rightAscending.1 entry member]
        · have elsewhere : key ≠ other.1 := keysAgree ▸ head
          simpa [lookup, head, elsewhere] using same key
      exact List.cons_eq_cons.mpr ⟨Prod.ext keysAgree valuesAgree, restAgree⟩

theorem ext_find? {left right : Table κ α} (same : ∀ key, left.find? key = right.find? key) :
    left = right := by
  cases left with
  | mk leftEntries leftAscending =>
    cases right with
    | mk rightEntries rightAscending =>
      cases eq_of_lookup_eq leftAscending rightAscending same
      rfl

end Table

end NetLowering
