import NetLowering.Proofs.Lowering.Translation
import NetLowering.Proofs.Lowering.Typing

/-!
# A graph is coherent while it grows

At every moment of its growth a graph mentions nothing but its own operands, and what
is bound has the size of its operand.  So nothing is left to go wrong once the
operators of a net have run: the last of them has named its output, and the graph can
be finished there (`FlatNet.lower_of_run`).
-/

namespace NetLowering

open Checked

namespace Graph

variable {graph next : Graph}

structure Coherent (graph : Graph) : Prop where
  layered : graph.Layered
  measured : graph.Measured

namespace Coherent

theorem grows {options : LoweringOptions} {operator : FlatOp} (hcoherent : graph.Coherent)
    (hgrows : operator.Grows options graph next) : next.Coherent :=
  ⟨hcoherent.layered.grows hgrows, (hgrows.fits_iff hcoherent.measured).1⟩

/-- A name leads to an operand. -/
theorem contains_of_named (hcoherent : graph.Coherent) {name : String} {id : OperandId}
    (hnamed : graph.tensorIds.find? name = some id) : graph.contains id = true :=
  contains_iff_mem_ids.mpr (hcoherent.layered.named name id hnamed)

/-- What a coherent graph mentions is there, if its ends are. -/
theorem unknown?_withEnds (hcoherent : graph.Coherent) {inputs outputs : List OperandId}
    (hends : ∀ id ∈ inputs ++ outputs, graph.contains id = true) :
    Graph.unknown? { graph with inputs, outputs } = none := by
  have hlayered := hcoherent.layered
  have hsources : ∀ id ∈ graph.values.keys ++ graph.results, graph.contains id = true := by
    intro id hid
    rw [contains_iff_mem_ids, ← hlayered.sources.mem_iff]
    exact List.mem_cons_of_mem _ hid
  have hquants : ∀ id ∈ graph.channelQuants.keys, graph.contains id = true := by
    intro id hid
    obtain ⟨quant, hquant⟩ := Table.mem_keys_iff.mp hid
    obtain ⟨operand, hoperand, -⟩ := hcoherent.measured.quants id quant hquant
    simp [contains, hoperand]
  have hoperations : ∀ operation ∈ graph.operations,
      ∀ id ∈ operation.inputs ++ operation.outputs, graph.contains id = true := by
    intro operation hoperation id hid
    obtain ⟨output, houtputs, hinputs⟩ := hlayered.operations operation hoperation
    rcases List.mem_append.mp hid with hinput | houtput
    · exact contains_iff_mem_ids.mpr (hinputs id hinput).1
    · refine hsources id (List.mem_append_right _ ?_)
      exact List.mem_flatMap.mpr ⟨operation, hoperation, houtput⟩
  rw [unknown?_eq_none_iff]
  simp only [mentioned, List.forall_mem_append, List.forall_mem_flatMap]
    at hends hsources hoperations ⊢
  exact ⟨⟨⟨⟨hoperations, hsources.1⟩, hquants⟩, hends.1⟩, hends.2⟩

end Coherent

end Graph

/-! ## Runs -/

namespace FlatNet

variable {options : LoweringOptions} {net : FlatNet} {operators : List FlatOp}
  {first : FlatOp} {start grown : Graph}

theorem coherent_startGraph (name : String) (type : OperandType) :
    (startGraph name type).Coherent :=
  ⟨layered_startGraph name type, (measured_startGraph name type).1⟩

theorem coherent_of_inputGraph (hstart : inputGraph options first = .ok start) :
    start.Coherent := by
  obtain ⟨source, type, -, -, rfl⟩ := inputGraph_eq_ok_iff.mp hstart
  exact coherent_startGraph source.name type

theorem coherent_of_run (hstart : start.Coherent)
    (hrun : operators.foldlM (FlatOp.lower options) start = .ok grown) : grown.Coherent := by
  refine foldlM_preserves ?_ hstart hrun
  intro before operator after _ hbefore hlower
  exact hbefore.grows (FlatOp.grows_of_lower hlower)

/-- An operator that has run has named its output. -/
theorem exists_output_of_run {last : FlatOp}
    (hrun : operators.foldlM (FlatOp.lower options) start = .ok grown) (hlast : last ∈ operators) :
    ∃ name id, last.outputs.head? = some name ∧ grown.tensorIds.find? name = some id := by
  obtain ⟨_, _, before, after, -, -, hlower, hrest⟩ := exists_moment hrun hlast
  have hextends := extends_of_run hrest
  cases FlatOp.contributes_of_lower hlower with
  | layer _ layer hlays hadded =>
      obtain ⟨_, name, type, -, houtput, -⟩ := Graph.addLayer_eq_ok_iff.mp hadded
      exact ⟨name, _, hlays.output name type houtput,
        hextends.named _ _ (Graph.find?_output_of_addLayer hadded houtput)⟩
  | name _ _ name input _ hwritten _ hnamed =>
      obtain ⟨-, rfl⟩ := Graph.nameAs_eq_ok_iff.mp hnamed
      exact ⟨name, input, hwritten, hextends.named _ _ (by simp)⟩

theorem contains_input (hstart : inputGraph options first = .ok start)
    (hrun : operators.foldlM (FlatOp.lower options) start = .ok grown) :
    grown.contains (.own 0) = true := by
  obtain ⟨source, type, -, -, rfl⟩ := inputGraph_eq_ok_iff.mp hstart
  exact (coherent_of_run (coherent_startGraph _ _) hrun).contains_of_named
    ((extends_of_run hrun).named source.name _ (by simp [startGraph]))

/-- A net whose operators run can be lowered: its output is there, and so is all that its graph
mentions. -/
theorem lower_of_run (hfirst : net.operators.head? = some first)
    (hstart : inputGraph options first = .ok start)
    (hrun : net.operators.foldlM (FlatOp.lower options) start = .ok grown) :
    ∃ name output, net.outputName? = some name ∧ grown.tensorIds.find? name = some output ∧
      net.lower options = .ok { grown with inputs := [.own 0], outputs := [output] } := by
  have hcoherent := coherent_of_run (coherent_of_inputGraph hstart) hrun
  have hnonempty := List.ne_nil_of_mem (List.mem_of_mem_head? hfirst)
  obtain ⟨last, hlast⟩ : ∃ last, net.operators.getLast? = some last :=
    ⟨_, List.getLast?_eq_some_getLast hnonempty⟩
  obtain ⟨name, output, hname, houtput⟩ := exists_output_of_run hrun (List.mem_of_getLast? hlast)
  refine ⟨name, output, by simp [outputName?, hlast, hname], houtput, ?_⟩
  refine lower_eq_ok_iff.mpr ⟨first, last, start, grown, name, output, hfirst, hlast, hstart, hrun,
    FlatOp.outputName_eq_ok_iff.mpr hname, houtput, rfl, hcoherent.unknown?_withEnds ?_⟩
  simp [contains_input hstart hrun, hcoherent.contains_of_named houtput]

end FlatNet

end NetLowering
