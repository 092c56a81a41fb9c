import Mathlib.Algebra.Group.Nat.Defs
import Mathlib.Data.List.Sort
import NetLowering.Proofs.Emission.Replay

/-!
# The canonical sequence of an emission

The requests of an emission are said here without the order that a table keeps
its entries in: every binding once, by ascending places.  Where the places
differ this determines the list, so neither the order of the insertions nor the
order in which the bindings are gone through shows in what is issued.
-/

namespace NetLowering

/-! ## Listings -/

namespace Table

variable {α : Type}

/-- No two identifiers of the table have the same place. -/
def PlacesDiffer (table : Table OperandId α) : Prop :=
  ∀ first ∈ table.keys, ∀ second ∈ table.keys, first.index = second.index → first = second

/-- Everything that a table binds, each binding once, by ascending places. -/
structure Listing (table : Table OperandId α) (entries : List (OperandId × α)) : Prop where
  complete : ∀ id value, (id, value) ∈ entries ↔ table.find? id = some value
  ascending : entries.Pairwise fun first second => first.1.index < second.1.index

variable {table : Table OperandId α} {entries arranged : List (OperandId × α)}

theorem Listing.nodup (hlisting : table.Listing entries) : entries.Nodup := by
  refine hlisting.ascending.imp ?_
  rintro first second hlt rfl
  omega

theorem Listing.eq {others : List (OperandId × α)} (hlisting : table.Listing entries)
    (hothers : table.Listing others) : entries = others := by
  have hperm : entries.Perm others := by
    rw [List.perm_ext_iff_of_nodup hlisting.nodup hothers.nodup]
    rintro ⟨id, value⟩
    rw [hlisting.complete, hothers.complete]
  refine hperm.eq_of_pairwise ?_ hlisting.ascending hothers.ascending
  intro first second _ _ hlt hgt
  omega

/-- Whether the place of the first binding is not larger. -/
private def NotAfter (first second : OperandId × α) : Prop := first.1.index ≤ second.1.index

private instance : DecidableRel (NotAfter (α := α)) := fun first second =>
  inferInstanceAs (Decidable (first.1.index ≤ second.1.index))

private instance : Std.Total (NotAfter (α := α)) := ⟨fun _ _ => Nat.le_total _ _⟩

private instance : IsTrans _ (NotAfter (α := α)) := ⟨fun _ _ _ => Nat.le_trans⟩

private theorem byPlace_eq_insertionSort (bindings : List (OperandId × α)) :
    Graph.byPlace bindings = bindings.insertionSort NotAfter := by
  have hinsert (binding : OperandId × α) (sorted : List (OperandId × α)) :
      Graph.insertByPlace binding sorted = sorted.orderedInsert NotAfter binding := by
    induction sorted with
    | nil => rfl
    | cons first rest ih =>
        rw [Graph.insertByPlace, List.orderedInsert_cons, ih]
        rfl
  induction bindings with
  | nil => rfl
  | cons binding rest ih =>
      rw [Graph.byPlace, List.foldr_cons, hinsert, List.insertionSort_cons, ← ih]
      rfl

private theorem ascending_byPlace (bindings : List (OperandId × α)) :
    (Graph.byPlace bindings).Pairwise fun first second => first.1.index ≤ second.1.index := by
  rw [byPlace_eq_insertionSort]
  exact List.pairwise_insertionSort NotAfter bindings

theorem perm_byPlace (bindings : List (OperandId × α)) :
    (Graph.byPlace bindings).Perm bindings := by
  rw [byPlace_eq_insertionSort]
  exact List.perm_insertionSort NotAfter bindings

/-- However the bindings of a table are arranged, sorting them lists the table. -/
theorem listing_byPlace (hplaces : table.PlacesDiffer) (harranged : arranged.Perm table.entries) :
    table.Listing (Graph.byPlace arranged) := by
  have hperm : (Graph.byPlace arranged).Perm table.entries :=
    (perm_byPlace arranged).trans harranged
  have hkeys : ((Graph.byPlace arranged).map (·.1)).Nodup := by
    rw [(hperm.map _).nodup_iff]
    exact nodup_keys table
  refine ⟨fun id value => hperm.mem_iff.trans mem_entries_iff, ?_⟩
  -- The order by place alone leaves ties, but one place means one identifier here.
  refine ((ascending_byPlace arranged).and (List.pairwise_map.mp hkeys)).imp_of_mem ?_
  rintro first second hfirst hsecond ⟨hle, hdiffer⟩
  have hindex : first.1.index ≠ second.1.index := by
    intro hindex
    exact hdiffer (hplaces _ (List.mem_map_of_mem (hperm.mem_iff.mp hfirst)) _
      (List.mem_map_of_mem (hperm.mem_iff.mp hsecond)) hindex)
  omega

end Table

/-! ## Canonical sequences -/

namespace Graph

variable {σ : Type}

def Canonical (graph : Graph) (requests : List Request) : Prop :=
  ∃ values quants, graph.values.Listing values ∧ graph.channelQuants.Listing quants ∧
    requests = graph.sequence values quants

variable {graph : Graph}

theorem canonical_iff (hvalues : graph.values.PlacesDiffer)
    (hquants : graph.channelQuants.PlacesDiffer) {requests : List Request} :
    graph.Canonical requests ↔ requests = graph.requests := by
  constructor
  · rintro ⟨values, quants, hlisted, hquantsListed, rfl⟩
    rw [hlisted.eq (Table.listing_byPlace hvalues (.refl _)),
      hquantsListed.eq (Table.listing_byPlace hquants (.refl _))]
    rfl
  · rintro rfl
    exact ⟨_, _, Table.listing_byPlace hvalues (.refl _), Table.listing_byPlace hquants (.refl _),
      rfl⟩

/-- Whatever the model answers, what is issued is a prefix of the one canonical
sequence, and it ends after the first exchange at fault with the error of it. -/
theorem emit_canonical (respond : Respondent σ) (state : σ)
    (hvalues : graph.values.PlacesDiffer) (hquants : graph.channelQuants.PlacesDiffer) :
    ∃ requests result final exchanges,
      (∀ other, graph.Canonical other ↔ other = requests) ∧
      (graph.emit respond).run state = (result, final) ∧
      (graph.emit respond.noting).run (state, []) = (result, final, exchanges) ∧
      exchanges.map (·.request) <+: requests ∧
      (result = .ok () ↔ exchanges.map (·.request) = requests ∧ Faultless 0 exchanges) ∧
      (∀ error, result = .error error ↔
        ∃ earlier last, exchanges = earlier ++ [last] ∧ Faultless 0 earlier ∧
          last.fault? earlier.length = some error) ∧
      (∀ values quants, values.Perm graph.values.entries →
        quants.Perm graph.channelQuants.entries →
          graph.sequence (byPlace values) (byPlace quants) = requests) ∧
      (∀ values quants, (∀ id, values.reverse.lookup id = graph.values.find? id) →
        (∀ id, quants.reverse.lookup id = graph.channelQuants.find? id) →
          { graph with values := .ofList values, channelQuants := .ofList quants }.emit respond =
            graph.emit respond) ∧
      ∀ id : OperandId, id.word.toNat = id.index % 2 ^ 32 := by
  obtain ⟨exchanges, hnoting, hreplayed⟩ := issue_noting respond graph.requests 0 state []
  refine ⟨graph.requests, _, _, exchanges, fun other => canonical_iff hvalues hquants,
    congrFun (emit_eq_issue respond graph) state, ?_, hreplayed.isPrefix, hreplayed.eq_ok_iff,
    ?_, ?_, ?_, fun id => UInt32.toNat_ofNat'⟩
  · rw [emit_eq_issue]
    exact hnoting
  · intro error
    rw [hreplayed.eq_error_iff]
    simp only [Nat.zero_add]
  · intro values quants hvaluesPerm hquantsPerm
    exact (canonical_iff hvalues hquants).mp ⟨_, _, Table.listing_byPlace hvalues hvaluesPerm,
      Table.listing_byPlace hquants hquantsPerm, rfl⟩
  · intro values quants hvaluesBound hquantsBound
    have hvaluesEq : Table.ofList values = graph.values :=
      Table.ext_find? fun id => (Table.find?_ofList values id).trans (hvaluesBound id)
    have hquantsEq : Table.ofList quants = graph.channelQuants :=
      Table.ext_find? fun id => (Table.find?_ofList quants id).trans (hquantsBound id)
    rw [hvaluesEq, hquantsEq]

/-- Two scalars that were bound in descending order. -/
def twoScalars : Graph :=
  { empty with
    operands := [⟨none, .scalar .float32⟩, ⟨none, .scalar .int32⟩]
    values := .ofList [(.own 1, .int32 #[7]), (.own 0, .float32 #[.zero])]
    outputs := [.own 1] }

/-- A model that counts its operands and refuses nothing. -/
def counting : Respondent Nat
  | .addOperand _, count => (.ok (UInt32.ofNat count), count + 1)
  | .setValue _ _, count => (.ok (), count)
  | .setChannelQuant _ _, count => (.ok (), count)
  | .addOperation _ _ _, count => (.ok (), count)
  | .identify _ _, count => (.ok (), count)

theorem emit_canonical_twoScalars :
    twoScalars.values.PlacesDiffer ∧ twoScalars.channelQuants.PlacesDiffer ∧
      ∃ exchanges,
        (twoScalars.emit counting.noting).run (0, []) = (.ok (), 2, exchanges) ∧
        twoScalars.Canonical (exchanges.map (·.request)) := by
  have hvalues : twoScalars.values.PlacesDiffer := by
    rw [Table.PlacesDiffer]
    decide
  have hquants : twoScalars.channelQuants.PlacesDiffer := by
    rw [Table.PlacesDiffer]
    decide
  obtain ⟨requests, result, final, exchanges, hcanonical, hrun, hnoting, -, hok, -⟩ :=
    emit_canonical counting 0 hvalues hquants
  have hfinal : @Eq (Except SessionError Unit × Nat) (twoScalars.emit counting 0) (.ok (), 2) := by
    decide +kernel
  cases hrun.symm.trans hfinal
  exact ⟨hvalues, hquants, exchanges, hnoting, (hcanonical _).mpr (hok.mp rfl).1⟩

end Graph

end NetLowering
