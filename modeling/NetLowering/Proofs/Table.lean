import Mathlib.Data.List.Nodup
import NetLowering.Table

/-!
# What a table holds

The entries of a table are its answers: `mem_entries_iff` reads one off the
other.  A new key makes the keys longer by itself and by nothing else, and a
table filled by insertions answers with the last one for a key, whatever the
order of the insertions was.
-/

namespace NetLowering.Table

variable {κ α : Type} [DecidableEq κ]

/-! ## Entries and answers -/

private theorem mem_of_lookup {key : κ} {value : α} {entries : List (κ × α)}
    (hlookup : lookup key entries = some value) : (key, value) ∈ entries := by
  induction entries with
  | nil => simp [lookup] at hlookup
  | cons first rest ih =>
      rw [lookup] at hlookup
      split at hlookup
      · rename_i hkey
        cases hlookup
        simp [hkey]
      · exact List.mem_cons_of_mem _ (ih hlookup)

variable [Ord κ] [Std.LawfulEqOrd κ]

private theorem lookup_of_mem {key : κ} {value : α} {entries : List (κ × α)}
    (hascending : entries.Pairwise fun first second => compare first.1 second.1 = .lt)
    (hmem : (key, value) ∈ entries) : lookup key entries = some value := by
  induction entries with
  | nil => simp at hmem
  | cons first rest ih =>
      rw [List.pairwise_cons] at hascending
      rcases List.mem_cons.mp hmem with hfirst | hrest
      · simp [lookup, ← hfirst]
      · have hdiffer : key ≠ first.1 := by
          intro hkey
          have hlt := hascending.1 _ hrest
          simp [hkey, Std.ReflCmp.compare_self] at hlt
        rw [lookup, if_neg hdiffer]
        exact ih hascending.2 hrest

theorem mem_entries_iff {table : Table κ α} {key : κ} {value : α} :
    (key, value) ∈ table.entries ↔ table.find? key = some value :=
  ⟨lookup_of_mem table.ascending, mem_of_lookup⟩

theorem mem_keys_iff {table : Table κ α} {key : κ} :
    key ∈ table.keys ↔ ∃ value, table.find? key = some value := by
  simp [keys, ← mem_entries_iff]

omit [Std.LawfulEqOrd κ] in
theorem not_contains_iff {table : Table κ α} {key : κ} :
    ¬table.contains key = true ↔ table.find? key = none := by
  rw [contains, Option.not_isSome_iff_eq_none]

theorem notMem_keys_iff {table : Table κ α} {key : κ} :
    key ∉ table.keys ↔ table.find? key = none := by
  rw [mem_keys_iff, Option.eq_none_iff_forall_ne_some]
  simp

omit [DecidableEq κ] in
theorem nodup_keys (table : Table κ α) : table.keys.Nodup := by
  rw [keys, List.Nodup, List.pairwise_map]
  refine table.ascending.imp ?_
  intro first second hlt hkey
  simp [hkey, Std.ReflCmp.compare_self] at hlt

/-! ## Insertions -/

variable [Std.TransOrd κ]

theorem perm_keys_insert {table : Table κ α} {key : κ} (value : α)
    (habsent : table.find? key = none) :
    (table.insert key value).keys.Perm (key :: table.keys) := by
  have hnodup : (key :: table.keys).Nodup :=
    List.nodup_cons.mpr ⟨notMem_keys_iff.mpr habsent, nodup_keys table⟩
  rw [List.perm_ext_iff_of_nodup (nodup_keys _) hnodup]
  intro other
  rw [List.mem_cons, mem_keys_iff, mem_keys_iff, find?_insert]
  by_cases hkey : other = key <;> simp [hkey]

/-- A new key takes no answer away. -/
theorem find?_insert_of_some {table : Table κ α} {key other : κ} {value found : α}
    (habsent : table.find? key = none) (hfound : table.find? other = some found) :
    (table.insert key value).find? other = some found := by
  rw [find?_insert, if_neg]
  · exact hfound
  · rintro rfl
    rw [habsent] at hfound
    cases hfound

theorem insert_comm {first second : κ} (hdiffer : first ≠ second) (table : Table κ α)
    (left right : α) :
    (table.insert first left).insert second right =
      (table.insert second right).insert first left := by
  refine ext_find? fun key => ?_
  simp only [find?_insert]
  grind

private theorem find?_insertions (bindings : List (κ × α)) (table : Table κ α) (key : κ) :
    (bindings.foldl (fun table binding => table.insert binding.1 binding.2) table).find? key =
      (bindings.reverse.lookup key).or (table.find? key) := by
  induction bindings generalizing table with
  | nil => simp
  | cons binding bindings ih =>
      obtain ⟨bound, value⟩ := binding
      rw [List.foldl_cons, ih, find?_insert, List.reverse_cons, List.lookup_append]
      by_cases hkey : key = bound
      · subst hkey
        rw [if_pos rfl, Option.or_assoc]
        simp only [List.lookup_cons_self, Option.some_or]
      · rw [if_neg hkey, Option.or_assoc]
        simp [List.lookup_cons, beq_false_of_ne hkey]

/-- Of several bindings of a key the last one counts. -/
theorem find?_ofList (bindings : List (κ × α)) (key : κ) :
    (ofList bindings).find? key = bindings.reverse.lookup key := by
  rw [ofList, find?_insertions]
  simp

/-- Bindings with keys of their own are all there. -/
theorem find?_ofList_of_nodup {bindings : List (κ × α)} (hnodup : (bindings.map (·.1)).Nodup)
    {key : κ} {value : α} :
    (ofList bindings).find? key = some value ↔ (key, value) ∈ bindings := by
  rw [find?_ofList, List.lookup_eq_some_iff]
  constructor
  · rintro ⟨before, after, hbindings, -⟩
    rw [← List.mem_reverse, hbindings]
    simp
  · intro hmem
    obtain ⟨before, after, hbindings⟩ := List.append_of_mem (List.mem_reverse.mpr hmem)
    refine ⟨before, after, hbindings, ?_⟩
    have hreversed := (bindings.reverse_perm.map (·.1)).nodup_iff.mpr hnodup
    rw [hbindings, List.map_append, List.nodup_append] at hreversed
    intro other hother
    have hdiffer := hreversed.2.2 other.1 (List.mem_map_of_mem hother) key (by simp)
    simpa using Ne.symm hdiffer

theorem perm_keys_ofList {bindings : List (κ × α)} (hnodup : (bindings.map (·.1)).Nodup) :
    (ofList bindings).keys.Perm (bindings.map (·.1)) := by
  rw [List.perm_ext_iff_of_nodup (nodup_keys _) hnodup]
  intro key
  simp [mem_keys_iff, find?_ofList_of_nodup hnodup]

/-! ## Renamed keys -/

def mapKeys {ν : Type} [Ord ν] [Std.TransOrd ν] (rename : κ → ν) (table : Table κ α) :
    Table ν α :=
  ofList (table.entries.map fun entry => (rename entry.1, entry.2))

variable {ν : Type} [DecidableEq ν] [Ord ν] [Std.LawfulEqOrd ν] [Std.TransOrd ν]
  {rename : κ → ν}

omit [Std.TransOrd κ] in
theorem find?_mapKeys_eq_some_iff (hinjective : Function.Injective rename) {table : Table κ α}
    {key : ν} {value : α} :
    (table.mapKeys rename).find? key = some value ↔
      ∃ source, rename source = key ∧ table.find? source = some value := by
  have hkeys : (table.entries.map fun entry => (rename entry.1, entry.2)).map (·.1) =
      table.keys.map rename := by
    simp [keys, Function.comp_def]
  have hnodup := (nodup_keys table).map hinjective
  rw [← hkeys] at hnodup
  rw [mapKeys, find?_ofList_of_nodup hnodup, List.mem_map]
  constructor
  · rintro ⟨⟨source, found⟩, hentry, ⟨⟩⟩
    exact ⟨source, rfl, mem_entries_iff.mp hentry⟩
  · rintro ⟨source, rfl, hfound⟩
    exact ⟨(source, value), mem_entries_iff.mpr hfound, rfl⟩

omit [Std.TransOrd κ] in
theorem find?_mapKeys (hinjective : Function.Injective rename) (table : Table κ α) (key : κ) :
    (table.mapKeys rename).find? (rename key) = table.find? key := by
  ext value
  rw [find?_mapKeys_eq_some_iff hinjective]
  constructor
  · rintro ⟨source, hsource, hfound⟩
    exact hinjective hsource ▸ hfound
  · exact fun hfound => ⟨key, rfl, hfound⟩

theorem mapKeys_id (table : Table κ α) : table.mapKeys id = table := by
  refine ext_find? fun key => ?_
  exact find?_mapKeys Function.injective_id table key

theorem mapKeys_insert (hinjective : Function.Injective rename) (table : Table κ α) (key : κ)
    (value : α) :
    (table.insert key value).mapKeys rename = (table.mapKeys rename).insert (rename key) value := by
  refine ext_find? fun other => ?_
  ext found
  rw [find?_mapKeys_eq_some_iff hinjective, find?_insert]
  by_cases hother : other = rename key
  · subst hother
    simp [hinjective.eq_iff]
  · rw [if_neg hother, find?_mapKeys_eq_some_iff hinjective]
    refine exists_congr fun source => and_congr_right fun hsource => ?_
    rw [find?_insert, if_neg]
    rintro rfl
    exact hother hsource.symm

end NetLowering.Table
