import NetLowering.Proofs.Lowering.Operators

/-!
# Two graphs that grow alike

Two graphs are related, and layers that are alike are added to both.  What has to be
shown of the relation is that it outlasts one parameter and one result
(`Graph.Simulation`); the second layer is then accepted if the first one is, and the
graphs stay related (`Graph.Simulation.addLayer`).
-/

namespace NetLowering

open Checked

/-- Layers that differ at most in their parameters and in the type of their output. -/
structure Layer.Alike (Params : Param → Param → Prop) (Types : OperandType → OperandType → Prop)
    (layer partner : Layer) : Prop where
  code : partner.code = layer.code
  input : partner.input = layer.input
  params : List.Forall₂ Params layer.params partner.params
  output : Follows (fun left right => right.1 = left.1 ∧ Types left.2 right.2)
    layer.output partner.output

namespace Graph

/-- The relation outlasts related parameters, and related results of the same name. -/
structure Simulation (Related : Graph → Graph → Prop) (Params : Param → Param → Prop)
    (Types : OperandType → OperandType → Prop) : Prop where
  size : ∀ {graph other}, Related graph other → other.operands.length = graph.operands.length
  param : ∀ {graph other param partner}, Related graph other → Params param partner →
    graph.Admits param →
    other.Admits partner ∧ Related (graph.withParam param) (other.withParam partner)
  result : ∀ {graph other name type partner operation}, Related graph other →
    Types type partner → graph.tensorIds.find? name = none →
    other.tensorIds.find? name = none ∧
      Related (graph.withResult name type operation) (other.withResult name partner operation)

namespace Simulation

variable {Related : Graph → Graph → Prop} {Params : Param → Param → Prop}
  {Types : OperandType → OperandType → Prop} {graph other : Graph}

theorem addParams (hsimulation : Simulation Related Params Types) {params partners : List Param}
    (hparams : List.Forall₂ Params params partners) (hrelated : Related graph other) :
    Follows Related (params.foldlM addParam graph) (partners.foldlM addParam other) := by
  refine Follows.foldlM ?_ hparams hrelated
  intro left right param partner hmiddle hparam next hadded
  obtain ⟨hadmits, rfl⟩ := addParam_eq_ok_iff.mp hadded
  obtain ⟨hpartner, hnext⟩ := hsimulation.param hmiddle hparam hadmits
  exact ⟨_, addParam_eq_ok_iff.mpr ⟨hpartner, rfl⟩, hnext⟩

theorem addLayer (hsimulation : Simulation Related Params Types) {layer partner : Layer}
    (halike : layer.Alike Params Types partner) (hrelated : Related graph other) :
    Follows Related (graph.addLayer layer) (other.addLayer partner) := by
  intro next hadded
  obtain ⟨withParams, name, type, hparams, houtput, hfresh, hknown, rfl⟩ :=
    addLayer_eq_ok_iff.mp hadded
  obtain ⟨withPartners, hpartners, hmiddle⟩ :=
    hsimulation.addParams halike.params hrelated withParams hparams
  obtain ⟨⟨_, partnerType⟩, houtputs, rfl, htypes⟩ := halike.output (name, type) houtput
  obtain ⟨hfreshToo, hnext⟩ := hsimulation.result hmiddle htypes hfresh
  -- Both graphs have the same identifiers, so both layers come down to the same operation.
  have hsize := hsimulation.size hmiddle
  have hids : other.nextIds partner.params.length = graph.nextIds layer.params.length := by
    rw [nextIds, nextIds, hsimulation.size hrelated, halike.params.length_eq]
  have hlast : withPartners.nextId = withParams.nextId := by rw [nextId, nextId, hsize]
  refine ⟨_, addLayer_eq_ok_iff.mpr ⟨withPartners, _, partnerType, hpartners, houtputs, hfreshToo,
    ?_, rfl⟩, ?_⟩
  · rw [halike.input, hids, hlast, hsize]
    exact hknown
  · rw [halike.code, halike.input, hids, hlast]
    exact hnext

end Simulation

end Graph

end NetLowering
