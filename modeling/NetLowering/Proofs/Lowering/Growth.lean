import NetLowering.Proofs.Lowering.Operators

/-!
# What a graph keeps while it grows

Lowering adds to a graph and takes nothing away: operands and operations stay in
place, and what has been named or bound stays so.  Every operator of a net thus
has its moment, between a graph that it reads and a graph that it leaves, and the
finished graph still holds all that was there then.
-/

namespace NetLowering

open Checked

namespace Graph

/-- The later graph keeps what the earlier one has. -/
structure Extends (before after : Graph) : Prop where
  operands : before.operands <+: after.operands
  operations : before.operations <+: after.operations
  named : ∀ name id, before.tensorIds.find? name = some id → after.tensorIds.find? name = some id
  bound : ∀ id value, before.values.find? id = some value → after.values.find? id = some value

variable {before graph after next : Graph}

namespace Extends

theorem refl (graph : Graph) : graph.Extends graph :=
  ⟨List.prefix_rfl, List.prefix_rfl, fun _ _ => id, fun _ _ => id⟩

theorem trans (hfirst : before.Extends graph) (hsecond : graph.Extends after) :
    before.Extends after where
  operands := hfirst.operands.trans hsecond.operands
  operations := hfirst.operations.trans hsecond.operations
  named name id hfound := hsecond.named name id (hfirst.named name id hfound)
  bound id value hfound := hsecond.bound id value (hfirst.bound id value hfound)

theorem operand? (hextends : before.Extends after) {id : OperandId} {operand : Operand}
    (hoperand : before.operand? id = some operand) : after.operand? id = some operand := by
  rw [Graph.operand?] at hoperand ⊢
  split
  · rename_i hforeign
    rw [if_pos hforeign] at hoperand
    cases hoperand
  · rename_i hown
    rw [if_neg hown] at hoperand
    obtain ⟨added, hadded⟩ := hextends.operands
    rw [← hadded, List.getElem?_append_left (List.getElem?_eq_some_iff.mp hoperand).1]
    exact hoperand

/-- What has been read stays readable. -/
theorem feed (hextends : before.Extends after) {tensor : Tensor} {feed : Feed}
    (hfeed : before.feed tensor = .ok feed) : after.feed tensor = .ok feed := by
  rw [feed_eq_ok_iff] at hfeed ⊢
  obtain ⟨hfound, ⟨operand, hoperand, htype⟩, haxes⟩ := hfeed
  exact ⟨hextends.named _ _ hfound, ⟨operand, hextends.operand? hoperand, htype⟩, haxes⟩

end Extends

/-! ## Steps -/

theorem extends_push (operand : Operand) : graph.Extends (graph.push operand) where
  operands := List.prefix_append _ _
  operations := List.prefix_rfl
  named _ _ hfound := hfound
  bound _ _ hfound := hfound

theorem extends_withParam {param : Param} (hadmits : graph.Admits param) :
    graph.Extends (graph.withParam param) where
  operands := List.prefix_append _ _
  operations := List.prefix_rfl
  named other id hfound := by
    cases hname : param.name with
    | none => simpa [withParam, hname] using hfound
    | some name =>
        simp only [withParam, hname]
        exact Table.find?_insert_of_some (hadmits.newName name hname) hfound
  bound other value := Table.find?_insert_of_some hadmits.newValue

theorem extends_addParams {params : List Param} (hadded : params.foldlM addParam graph = .ok next) :
    graph.Extends next := by
  refine foldlM_preserves ?_ (.refl graph) hadded
  intro before param after _ hbefore hparam
  obtain ⟨hadmits, rfl⟩ := addParam_eq_ok_iff.mp hparam
  exact hbefore.trans (extends_withParam hadmits)

theorem extends_withResult {name : String} {type : OperandType} {operation : Operation}
    (hfresh : graph.tensorIds.find? name = none) :
    graph.Extends (graph.withResult name type operation) where
  operands := List.prefix_append _ _
  operations := List.prefix_append _ _
  named _ _ := Table.find?_insert_of_some hfresh
  bound _ _ hfound := hfound

theorem extends_addLayer {layer : Layer} (hadded : graph.addLayer layer = .ok next) :
    graph.Extends next := by
  obtain ⟨withParams, name, type, hparams, -, hfresh, -, rfl⟩ := addLayer_eq_ok_iff.mp hadded
  exact (extends_addParams hparams).trans (extends_withResult hfresh)

/-- The first parameter of a layer is admitted, and what it adds stays. -/
theorem extends_first_of_addLayer {layer : Layer} {param : Param} {params : List Param}
    (hadded : graph.addLayer layer = .ok next) (hparams : layer.params = param :: params) :
    graph.Admits param ∧ (graph.withParam param).Extends next := by
  obtain ⟨withParams, name, type, hrun, -, hfresh, -, rfl⟩ := addLayer_eq_ok_iff.mp hadded
  rw [hparams, List.foldlM_cons, bind_eq_ok_iff] at hrun
  obtain ⟨first, hfirst, hrest⟩ := hrun
  obtain ⟨hadmits, rfl⟩ := addParam_eq_ok_iff.mp hfirst
  exact ⟨hadmits, (extends_addParams hrest).trans (extends_withResult hfresh)⟩

theorem extends_nameAs {name : String} {id : OperandId} (hnamed : graph.nameAs name id = .ok next) :
    graph.Extends next := by
  obtain ⟨hfresh, rfl⟩ := nameAs_eq_ok_iff.mp hnamed
  exact ⟨List.prefix_rfl, List.prefix_rfl, fun _ _ => Table.find?_insert_of_some hfresh,
    fun _ _ hfound => hfound⟩

/-- The ends of a graph have no part in what it keeps. -/
theorem extends_withEnds (graph : Graph) (inputs outputs : List OperandId) :
    graph.Extends { graph with inputs, outputs } :=
  ⟨List.prefix_rfl, List.prefix_rfl, fun _ _ => id, fun _ _ => id⟩

end Graph

variable {options : LoweringOptions}

theorem FlatOp.Grows.extends {operator : FlatOp} {graph next : Graph}
    (hgrows : operator.Grows options graph next) : graph.Extends next := by
  rcases hgrows.layer_or_name with ⟨_, layer, _, hadded⟩ | ⟨_, name, id, _, hnamed⟩
  · exact Graph.extends_addLayer hadded
  · exact Graph.extends_nameAs hnamed

/-! ## Runs -/

namespace FlatNet

theorem extends_of_run {operators : List FlatOp} {start grown : Graph}
    (hrun : operators.foldlM (FlatOp.lower options) start = .ok grown) : start.Extends grown := by
  refine foldlM_preserves ?_ (.refl start) hrun
  intro before operator after _ hbefore hlower
  exact hbefore.trans (FlatOp.grows_of_lower hlower).extends

theorem exists_growth_of_run {operators : List FlatOp} {start grown : Graph}
    (hrun : operators.foldlM (FlatOp.lower options) start = .ok grown) :
    ∀ operator ∈ operators, ∃ before after, operator.Grows options before after ∧
      after.Extends grown := by
  induction operators generalizing start with
  | nil => simp
  | cons first rest ih =>
      rw [List.foldlM_cons, bind_eq_ok_iff] at hrun
      obtain ⟨next, hfirst, hrest⟩ := hrun
      intro operator hoperator
      rcases List.mem_cons.mp hoperator with rfl | hlater
      · exact ⟨start, next, FlatOp.grows_of_lower hfirst, extends_of_run hrest⟩
      · exact ih hrest operator hlater

/-- Every operator of a net that is lowered has its moment. -/
theorem exists_growth {net : FlatNet} {graph : Graph} (hlower : net.lower options = .ok graph) :
    ∀ operator ∈ net.operators, ∃ before after, operator.Grows options before after ∧
      after.Extends graph := by
  obtain ⟨_, _, _, grown, _, _, -, -, -, hrun, -, -, rfl, -⟩ := lower_eq_ok_iff.mp hlower
  intro operator hoperator
  obtain ⟨before, after, hgrows, hextends⟩ := exists_growth_of_run hrun operator hoperator
  exact ⟨before, after, hgrows, hextends.trans (grown.extends_withEnds _ _)⟩

end FlatNet

end NetLowering
