import Mathlib.Data.List.Nodup
import NetLowering.Proofs.Lowering.Operators

/-!
# Which operations a graph requires

A graph keeps a set of required codes beside its operations.  While a net is lowered
only new operations bring a code into it, each its own, so at every moment it holds the
codes that occur and no others (`FlatNet.listsCodes_of_lower`).  Sorting it leaves a
strictly ascending list, which the operations therefore determine.
-/

namespace NetLowering

theorem OperationCode.number_injective {left right : OperationCode}
    (hsame : left.number = right.number) : left = right := by
  cases left <;> cases right <;> first | rfl | cases hsame

namespace Graph

/-- The required codes are those of the operations, each of them once. -/
structure ListsCodes (graph : Graph) : Prop where
  mem_iff : ∀ code,
    code ∈ graph.required ↔ ∃ operation ∈ graph.operations, operation.code = code
  distinct : graph.required.Nodup

variable {graph other next : Graph}

/-! ## Growth -/

namespace ListsCodes

theorem of_same (hlists : graph.ListsCodes) (hoperations : other.operations = graph.operations)
    (hrequired : other.required = graph.required) : other.ListsCodes := by
  constructor
  · rw [hoperations, hrequired]
    exact hlists.mem_iff
  · rw [hrequired]
    exact hlists.distinct

theorem withOperation (hlists : graph.ListsCodes) (operation : Operation) :
    (graph.withOperation operation).ListsCodes := by
  constructor
  · intro code
    rw [Graph.withOperation, List.mem_insert_iff, hlists.mem_iff]
    constructor
    · rintro (rfl | ⟨earlier, hearlier, rfl⟩)
      · exact ⟨operation, by simp, rfl⟩
      · exact ⟨earlier, by simp [hearlier], rfl⟩
    · rintro ⟨found, hfound, rfl⟩
      rcases List.mem_append.mp hfound with hearlier | hlast
      · exact .inr ⟨found, hearlier, rfl⟩
      · exact .inl (by rw [List.mem_singleton.mp hlast])
  · exact hlists.distinct.insert

theorem addLayer (hlists : graph.ListsCodes) {layer : Layer}
    (hadded : graph.addLayer layer = .ok next) : next.ListsCodes := by
  obtain ⟨withParams, name, type, hparams, -, -, -, rfl⟩ := addLayer_eq_ok_iff.mp hadded
  obtain rfl := eq_foldl_of_addParams hparams
  have hwithParams : (layer.params.foldl withParam graph).ListsCodes :=
    hlists.of_same (operations_foldl_withParam _ _) (required_foldl_withParam _ _)
  exact (hwithParams.withOperation _).of_same rfl rfl

theorem grows (hlists : graph.ListsCodes) {options : LoweringOptions} {operator : FlatOp}
    (hgrows : operator.Grows options graph next) : next.ListsCodes := by
  rcases hgrows.layer_or_name with ⟨_, layer, _, hadded⟩ | ⟨_, name, id, _, hnamed⟩
  · exact hlists.addLayer hadded
  · obtain ⟨-, rfl⟩ := nameAs_eq_ok_iff.mp hnamed
    exact hlists.of_same rfl rfl

/-! ## The sorted codes -/

theorem mem_requiredOps_iff (hlists : graph.ListsCodes) {code : OperationCode} :
    code ∈ graph.requiredOps ↔ ∃ operation ∈ graph.operations, operation.code = code := by
  rw [requiredOps, List.mem_mergeSort, hlists.mem_iff]

theorem ascending (hlists : graph.ListsCodes) :
    graph.requiredOps.Pairwise fun left right => left.number < right.number := by
  have hsorted : graph.requiredOps.Pairwise fun left right =>
      decide (left.number ≤ right.number) = true := by
    apply List.pairwise_mergeSort
    · intro first second third hfirst hsecond
      simp only [decide_eq_true_eq] at hfirst hsecond ⊢
      omega
    · intro left right
      simp only [Bool.or_eq_true, decide_eq_true_eq]
      omega
  have hdistinct : graph.requiredOps.Nodup :=
    (List.mergeSort_perm _ _).nodup_iff.mpr hlists.distinct
  refine (hsorted.and hdistinct).imp ?_
  rintro left right ⟨hle, hne⟩
  have hnumbers : left.number ≠ right.number := mt OperationCode.number_injective hne
  have := of_decide_eq_true hle
  omega

theorem requiredOps_eq_nil_iff (hlists : graph.ListsCodes) :
    graph.requiredOps = [] ↔ graph.operations = [] := by
  simp only [List.eq_nil_iff_forall_not_mem, hlists.mem_requiredOps_iff]
  constructor
  · exact fun hnone operation hoperation => hnone operation.code ⟨operation, hoperation, rfl⟩
  · rintro hnone code ⟨operation, hoperation, -⟩
    exact hnone operation hoperation

/-- Graphs with the same codes in their operations require the same. -/
theorem requiredOps_eq (hlists : graph.ListsCodes) (hothers : other.ListsCodes)
    (hcodes : graph.operations.map (·.code) = other.operations.map (·.code)) :
    graph.requiredOps = other.requiredOps := by
  have hmem (code : OperationCode) :
      (∃ operation ∈ graph.operations, operation.code = code) ↔
        ∃ operation ∈ other.operations, operation.code = code := by
    rw [← List.mem_map, hcodes, List.mem_map]
  have hperm : graph.requiredOps.Perm other.requiredOps := by
    rw [List.perm_ext_iff_of_nodup (hlists.ascending.imp fun hlt hsame => by simp [hsame] at hlt)
      (hothers.ascending.imp fun hlt hsame => by simp [hsame] at hlt)]
    intro code
    rw [hlists.mem_requiredOps_iff, hothers.mem_requiredOps_iff, hmem]
  exact hperm.eq_of_pairwise (fun _ _ _ _ hlt hgt => absurd hgt (Nat.not_lt_of_lt hlt))
    hlists.ascending hothers.ascending

end ListsCodes

end Graph

namespace FlatNet

/-- The graph of a net requires the codes of its operations and no others. -/
theorem listsCodes_of_lower {options : LoweringOptions} {net : FlatNet} {graph : Graph}
    (hlower : net.lower options = .ok graph) : graph.ListsCodes := by
  obtain ⟨grown, _, _, hlists, -, rfl⟩ := lower_preserves Graph.ListsCodes hlower
    (fun _ _ => ⟨by simp [startGraph, Graph.empty], by simp [startGraph, Graph.empty]⟩)
    (fun _ _ _ _ hbefore hgrows => hbefore.grows hgrows)
  exact hlists.of_same rfl rfl

end FlatNet

end NetLowering
