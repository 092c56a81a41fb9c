import Mathlib.Data.List.Nodup
import NetLowering.Proofs.Lowering.Operators

/-!
# Lowered graphs are in single-assignment form

Every operand of a lowered graph has exactly one source: it is the input, or a
bound value, or the output of one operation.  Operations read only what has a
source before them, and their outputs are numbered upwards.  The invariant
behind this is `Layered`: the sources, listed one by one, are a rearrangement
of the identifiers of the graph.
-/

namespace NetLowering

namespace Graph

open scoped List

/-! ## The form -/

/-- What gives an operand its content. -/
inductive Source (graph : Graph) (id : OperandId) where
  | input (listed : id ∈ graph.inputs)
  | value (bound : id ∈ graph.values.keys)
  | result (place : Fin graph.operations.length)
      (written : id ∈ graph.operations[place].outputs)

/-- A source that is there when the operation at `place` runs. -/
def Source.Before {graph : Graph} {id : OperandId} (place : Fin graph.operations.length) :
    graph.Source id → Prop
  | input _ | value _ => True
  | result earlier _ => earlier < place

structure SingleAssignment (graph : Graph) : Prop where
  /-- The identifiers are the places from 0 on, without a gap. -/
  dense : ∀ id, graph.contains id = true ↔ ∃ index < graph.operands.length, id = .own index
  oneInput : graph.inputs = [.own 0]
  oneOutput : ∀ operation ∈ graph.operations, ∃ output, operation.outputs = [output]
  oneSource : ∀ id, graph.contains id = true ↔ ∃! _source : graph.Source id, True
  forward : ∀ place : Fin graph.operations.length, ∀ id ∈ graph.operations[place].inputs,
    (∃ source : graph.Source id, source.Before place) ∧
      ∀ output ∈ graph.operations[place].outputs, id.index < output.index
  ascending : ∀ first second : Fin graph.operations.length, first < second →
    ∀ left ∈ graph.operations[first].outputs, ∀ right ∈ graph.operations[second].outputs,
      left.index < right.index

/-! ## The invariant -/

def ids (graph : Graph) : List OperandId := (List.range graph.operands.length).map .own

/-- The outputs of all operations, in order. -/
def results (graph : Graph) : List OperandId := graph.operations.flatMap (·.outputs)

/-- What holds of a graph while it grows. -/
structure Layered (graph : Graph) : Prop where
  sources : (.own 0 :: (graph.values.keys ++ graph.results)).Perm graph.ids
  named : ∀ name id, graph.tensorIds.find? name = some id → id ∈ graph.ids
  operations : ∀ operation ∈ graph.operations, ∃ output, operation.outputs = [output] ∧
    ∀ id ∈ operation.inputs, id ∈ graph.ids ∧ id.index < output.index
  ascending : graph.results.Pairwise fun left right => left.index < right.index

variable {graph : Graph}

theorem mem_ids_iff {id : OperandId} :
    id ∈ graph.ids ↔ ∃ index < graph.operands.length, id = .own index := by
  simp [ids, eq_comm]

theorem contains_iff_mem_ids {id : OperandId} :
    graph.contains id = true ↔ id ∈ graph.ids := by
  rw [mem_ids_iff, contains_iff]
  constructor
  · rintro ⟨hown, hindex⟩
    cases id
    exact ⟨_, hindex, congrArg _ hown⟩
  · rintro ⟨index, hindex, rfl⟩
    exact ⟨rfl, hindex⟩

theorem nodup_ids (graph : Graph) : graph.ids.Nodup := by
  refine List.nodup_range.map ?_
  intro first second hsame
  exact congrArg OperandId.index hsame

theorem ids_of_operands_append {next : Graph} {operand : Operand}
    (hoperands : next.operands = graph.operands ++ [operand]) :
    next.ids = graph.ids ++ [graph.nextId] := by
  simp [ids, hoperands, List.range_succ]

theorem index_lt_of_mem_ids {id : OperandId} (hid : id ∈ graph.ids) :
    id.index < graph.nextId.index := by
  obtain ⟨index, hindex, rfl⟩ := mem_ids_iff.mp hid
  exact hindex

/-! ## Every step preserves it -/

theorem Layered.withParam {param : Param} (hlayered : graph.Layered)
    (hadmits : graph.Admits param) : (graph.withParam param).Layered := by
  have hids : (graph.withParam param).ids = graph.ids ++ [graph.nextId] :=
    ids_of_operands_append rfl
  have hold : ∀ id ∈ graph.ids, id ∈ (graph.withParam param).ids := by
    intro id hid
    simp [hids, hid]
  refine ⟨?_, ?_, ?_, hlayered.ascending⟩
  · have hkeys := Table.perm_keys_insert param.value hadmits.newValue
    calc .own 0 :: ((graph.withParam param).values.keys ++ graph.results)
      _ ~ .own 0 :: (graph.nextId :: graph.values.keys ++ graph.results) :=
          (hkeys.append_right _).cons _
      _ ~ graph.nextId :: .own 0 :: (graph.values.keys ++ graph.results) := .swap _ _ _
      _ ~ graph.nextId :: graph.ids := hlayered.sources.cons _
      _ ~ graph.ids ++ [graph.nextId] := (List.perm_append_singleton _ _).symm
      _ = (graph.withParam param).ids := hids.symm
  · intro name id hfound
    cases hname : param.name with
    | none =>
        apply hold
        exact hlayered.named name id (by simpa [Graph.withParam, hname] using hfound)
    | some newName =>
        simp only [Graph.withParam, hname, Option.elim, Table.find?_insert] at hfound
        split at hfound
        · cases hfound
          simp [hids]
        · exact hold id (hlayered.named name id hfound)
  · intro operation hmem
    obtain ⟨output, houtput, hinputs⟩ := hlayered.operations operation hmem
    exact ⟨output, houtput, fun id hid => ⟨hold id (hinputs id hid).1, (hinputs id hid).2⟩⟩

theorem Layered.addParams {params : List Param} {next : Graph} (hlayered : graph.Layered)
    (hadded : params.foldlM addParam graph = .ok next) : next.Layered := by
  refine Checked.foldlM_preserves ?_ hlayered hadded
  intro before param after _ hbefore hparam
  obtain ⟨hadmits, rfl⟩ := addParam_eq_ok_iff.mp hparam
  exact hbefore.withParam hadmits

theorem Layered.withResult {name : String} {type : OperandType} {operation : Operation}
    (hlayered : graph.Layered) (hinputs : ∀ id ∈ operation.inputs, id ∈ graph.ids)
    (houtputs : operation.outputs = [graph.nextId]) :
    (graph.withResult name type operation).Layered := by
  have hids : (graph.withResult name type operation).ids = graph.ids ++ [graph.nextId] :=
    ids_of_operands_append rfl
  have hresults :
      (graph.withResult name type operation).results = graph.results ++ [graph.nextId] := by
    simp [results, Graph.withResult, houtputs]
  have hold : ∀ id ∈ graph.ids, id ∈ (graph.withResult name type operation).ids := by
    intro id hid
    simp [hids, hid]
  refine ⟨?_, ?_, ?_, ?_⟩
  · rw [hresults, hids, ← List.append_assoc]
    exact hlayered.sources.append_right [graph.nextId]
  · intro found id hfound
    simp only [Graph.withResult, Table.find?_insert] at hfound
    split at hfound
    · cases hfound
      simp [hids]
    · exact hold id (hlayered.named found id hfound)
  · intro other hmem
    rcases List.mem_append.mp hmem with hearlier | hlast
    · obtain ⟨output, houtput, hreads⟩ := hlayered.operations other hearlier
      exact ⟨output, houtput, fun id hid => ⟨hold id (hreads id hid).1, (hreads id hid).2⟩⟩
    · obtain rfl := List.mem_singleton.mp hlast
      refine ⟨graph.nextId, houtputs, fun id hid => ?_⟩
      exact ⟨hold id (hinputs id hid), index_lt_of_mem_ids (hinputs id hid)⟩
  · rw [hresults, List.pairwise_append]
    refine ⟨hlayered.ascending, List.pairwise_singleton _ _, ?_⟩
    intro earlier hearlier last hlast
    obtain rfl := List.mem_singleton.mp hlast
    have hmem : earlier ∈ graph.ids := hlayered.sources.mem_iff.mp (by simp [hearlier])
    exact index_lt_of_mem_ids hmem

theorem Layered.addLayer {layer : Layer} {next : Graph} (hlayered : graph.Layered)
    (hinput : layer.input ∈ graph.ids) (hadded : graph.addLayer layer = .ok next) :
    next.Layered := by
  obtain ⟨withParams, name, type, hparams, -, -, -, rfl⟩ := addLayer_eq_ok_iff.mp hadded
  have hlength : withParams.operands.length = graph.operands.length + layer.params.length := by
    simp [eq_foldl_of_addParams hparams, operands_foldl_withParam]
  refine (hlayered.addParams hparams).withResult ?_ rfl
  intro id hid
  rw [mem_ids_iff, hlength]
  rcases List.mem_cons.mp hid with rfl | hparam
  · obtain ⟨index, hindex, hown⟩ := mem_ids_iff.mp hinput
    exact ⟨index, by omega, hown⟩
  · obtain ⟨index, -, hindex, hown⟩ := mem_nextIds_iff.mp hparam
    exact ⟨index, hindex, hown⟩

theorem Layered.nameAs {name : String} {id : OperandId} {next : Graph}
    (hlayered : graph.Layered) (hid : id ∈ graph.ids)
    (hnamed : graph.nameAs name id = .ok next) : next.Layered := by
  obtain ⟨-, rfl⟩ := nameAs_eq_ok_iff.mp hnamed
  refine ⟨hlayered.sources, ?_, hlayered.operations, hlayered.ascending⟩
  intro found other hfound
  simp only [Table.find?_insert] at hfound
  split at hfound
  · cases hfound
    exact hid
  · exact hlayered.named found other hfound

theorem Layered.grows {options : LoweringOptions} {operator : FlatOp} {next : Graph}
    (hlayered : graph.Layered) (hgrows : operator.Grows options graph next) : next.Layered := by
  rcases hgrows.layer_or_name with ⟨name, layer, hinput, hadded⟩ | ⟨name, _, id, hid, hnamed⟩
  · exact hlayered.addLayer (hlayered.named name _ hinput) hadded
  · exact hlayered.nameAs (hlayered.named name id hid) hnamed

/-! ## What it says of a finished graph -/

theorem Layered.ascending_places (hlayered : graph.Layered)
    {first second : Fin graph.operations.length} (hlt : first < second)
    {left right : OperandId} (hleft : left ∈ graph.operations[first].outputs)
    (hright : right ∈ graph.operations[second].outputs) : left.index < right.index := by
  have hpairs := (List.pairwise_flatMap.mp hlayered.ascending).2
  rw [List.pairwise_iff_getElem] at hpairs
  exact hpairs first second first.isLt second.isLt hlt left hleft right hright

theorem Layered.place_unique (hlayered : graph.Layered)
    {first second : Fin graph.operations.length} {id : OperandId}
    (hfirst : id ∈ graph.operations[first].outputs)
    (hsecond : id ∈ graph.operations[second].outputs) : first = second := by
  rcases Nat.lt_trichotomy first second with hlt | heq | hgt
  · exact absurd (hlayered.ascending_places hlt hfirst hsecond) (Nat.lt_irrefl _)
  · exact Fin.ext heq
  · exact absurd (hlayered.ascending_places hgt hsecond hfirst) (Nat.lt_irrefl _)

theorem mem_results_of_mem {place : Fin graph.operations.length} {id : OperandId}
    (hid : id ∈ graph.operations[place].outputs) : id ∈ graph.results :=
  List.mem_flatMap.mpr ⟨_, List.getElem_mem _, hid⟩

theorem Layered.nonempty_source_iff (hlayered : graph.Layered)
    (hinputs : graph.inputs = [.own 0]) {id : OperandId} :
    Nonempty (graph.Source id) ↔ id ∈ graph.ids := by
  rw [← hlayered.sources.mem_iff, List.mem_cons, List.mem_append]
  constructor
  · rintro ⟨source⟩
    cases source with
    | input hlisted => exact .inl (by simpa [hinputs] using hlisted)
    | value hbound => exact .inr (.inl hbound)
    | result place hwritten => exact .inr (.inr (mem_results_of_mem hwritten))
  · rintro (rfl | hbound | hresult)
    · exact ⟨.input (by simp [hinputs])⟩
    · exact ⟨.value hbound⟩
    · obtain ⟨operation, hmem, hid⟩ := List.mem_flatMap.mp hresult
      obtain ⟨place, hplace, rfl⟩ := List.getElem_of_mem hmem
      exact ⟨.result ⟨place, hplace⟩ hid⟩

/-- The three kinds of sources do not meet, and no two operations write the
same operand. -/
theorem Layered.source_unique (hlayered : graph.Layered)
    (hinputs : graph.inputs = [.own 0]) {id : OperandId}
    (first second : graph.Source id) : first = second := by
  have hnodup := hlayered.sources.nodup_iff.mpr (nodup_ids graph)
  rw [List.nodup_cons, List.nodup_append] at hnodup
  obtain ⟨hzero, -, -, hdisjoint⟩ := hnodup
  have hinput : id ∈ graph.inputs → id ∉ graph.values.keys ++ graph.results := by
    intro hlisted
    obtain rfl : id = .own 0 := by simpa [hinputs] using hlisted
    exact hzero
  have hvalue : id ∈ graph.values.keys → id ∉ graph.results :=
    fun hbound hresult => hdisjoint id hbound id hresult rfl
  cases first with
  | input hlisted =>
      cases second with
      | input _ => rfl
      | value hbound => exact absurd (List.mem_append_left _ hbound) (hinput hlisted)
      | result _ hwritten =>
          exact absurd (List.mem_append_right _ (mem_results_of_mem hwritten)) (hinput hlisted)
  | value hbound =>
      cases second with
      | input hlisted => exact absurd (List.mem_append_left _ hbound) (hinput hlisted)
      | value _ => rfl
      | result _ hwritten => exact absurd (mem_results_of_mem hwritten) (hvalue hbound)
  | result place hwritten =>
      cases second with
      | input hlisted =>
          exact absurd (List.mem_append_right _ (mem_results_of_mem hwritten)) (hinput hlisted)
      | value hbound => exact absurd (mem_results_of_mem hwritten) (hvalue hbound)
      | result other hother =>
          obtain rfl := hlayered.place_unique hwritten hother
          rfl

theorem Layered.index_lt_of_read (hlayered : graph.Layered)
    {place : Fin graph.operations.length} {id output : OperandId}
    (hread : id ∈ graph.operations[place].inputs)
    (hwritten : output ∈ graph.operations[place].outputs) : id.index < output.index := by
  obtain ⟨only, houtputs, hreads⟩ :=
    hlayered.operations graph.operations[place] (List.getElem_mem _)
  rw [houtputs, List.mem_singleton] at hwritten
  exact hwritten ▸ (hreads id hread).2

/-- What an operation reads has its source before the operation. -/
theorem Layered.source_before (hlayered : graph.Layered) (hinputs : graph.inputs = [.own 0])
    {place : Fin graph.operations.length} {id : OperandId}
    (hread : id ∈ graph.operations[place].inputs) :
    ∃ source : graph.Source id, source.Before place := by
  obtain ⟨output, houtputs, hreads⟩ :=
    hlayered.operations graph.operations[place] (List.getElem_mem _)
  have hwritten : output ∈ graph.operations[place].outputs :=
    houtputs ▸ List.mem_singleton.mpr rfl
  obtain ⟨source⟩ := (hlayered.nonempty_source_iff hinputs).mpr (hreads id hread).1
  refine ⟨source, ?_⟩
  cases source with
  | input _ => trivial
  | value _ => trivial
  | result earlier hresult =>
      -- The output of this or of a later operation has a larger index than what is read here.
      have hlt := hlayered.index_lt_of_read hread hwritten
      rcases Nat.lt_trichotomy earlier place with hbefore | hsame | hafter
      · exact hbefore
      · obtain rfl := Fin.ext hsame
        have := hlayered.index_lt_of_read hread hresult
        omega
      · have := hlayered.ascending_places hafter hwritten hresult
        omega

theorem Layered.singleAssignment (hlayered : graph.Layered)
    (hinputs : graph.inputs = [.own 0]) : graph.SingleAssignment where
  dense _ := contains_iff_mem_ids.trans mem_ids_iff
  oneInput := hinputs
  oneOutput operation hmem := by
    obtain ⟨output, houtputs, -⟩ := hlayered.operations operation hmem
    exact ⟨output, houtputs⟩
  oneSource id := by
    rw [contains_iff_mem_ids, ← hlayered.nonempty_source_iff hinputs]
    constructor
    · rintro ⟨source⟩
      exact ⟨source, trivial, fun other _ => hlayered.source_unique hinputs other source⟩
    · rintro ⟨source, -, -⟩
      exact ⟨source⟩
  forward _ _ hread :=
    ⟨hlayered.source_before hinputs hread, fun _ => hlayered.index_lt_of_read hread⟩
  ascending _ _ hlt _ hleft _ hright := hlayered.ascending_places hlt hleft hright

end Graph

/-! ## Lowering -/

theorem FlatNet.layered_startGraph (name : String) (type : OperandType) :
    (startGraph name type).Layered := by
  refine ⟨?_, ?_, by simp [startGraph, Graph.empty],
    by simp [startGraph, Graph.empty, Graph.results]⟩
  · exact .refl _
  · intro other id hfound
    simp only [startGraph, Table.find?_insert, Table.find?_empty] at hfound
    split at hfound
    · cases hfound
      simp [Graph.ids, startGraph]
    · cases hfound

/-- A net that can be lowered has a graph in single-assignment form. -/
theorem FlatNet.lower_singleAssignment {options : LoweringOptions} {net : FlatNet}
    {graph : Graph} (hlower : net.lower options = .ok graph) : graph.SingleAssignment := by
  obtain ⟨grown, name, output, hlayered, -, rfl⟩ :=
    lower_preserves Graph.Layered hlower layered_startGraph
      fun _ _ _ _ hbefore hgrows => hbefore.grows hgrows
  exact Graph.Layered.singleAssignment
    ⟨hlayered.sources, hlayered.named, hlayered.operations, hlayered.ascending⟩ rfl

/-- A convolution, a pooling and a softmax, one after the other. -/
def FlatNet.threeLayers : FlatNet where
  operators := [
    { type := "Int8Conv"
      inputs := [.named "image",
        { name := "filter"
          shape := some (.numbers (.int32 #[2, 1, 1, 1]))
          values := some (.numbers (.float32 #[.one, .zero])) },
        { name := "bias"
          shape := some (.numbers (.int32 #[2]))
          values := some (.numbers (.float32 #[.zero, .one])) }]
      outputs := ["features"]
      arguments := .ofList [("kernel", .numbers (.int32 #[1]))] },
    { type := "Int8AveragePool"
      inputs := [.named "features"]
      outputs := ["pooled"]
      arguments := .ofList [("global_pooling", .numbers (.int32 #[1]))] },
    { type := "Softmax", inputs := [.named "pooled"], outputs := ["likelihoods"] }]

theorem FlatNet.lower_singleAssignment_threeLayers :
    ∃ graph,
      FlatNet.threeLayers.lower { inputSize := [3, 2, 1], softmax := .emit } = .ok graph ∧
        graph.operations.map (·.outputs) = [[.own 10], [.own 20], [.own 22]] ∧
        graph.SingleAssignment := by
  have houtputs : (fun graph : Graph => graph.operations.map (·.outputs)) <$>
      FlatNet.threeLayers.lower { inputSize := [3, 2, 1], softmax := .emit } =
        .ok [[.own 10], [.own 20], [.own 22]] := by
    rfl
  obtain ⟨graph, hlower, hplaces⟩ := Checked.map_eq_ok_iff.mp houtputs
  exact ⟨graph, hlower, hplaces, FlatNet.lower_singleAssignment hlower⟩

end NetLowering
