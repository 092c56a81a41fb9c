import NetLowering.Proofs.Lowering.Coherence
import NetLowering.Proofs.Lowering.Names

/-!
# Lowering a net up to some operator

An operator adds operands, operations and names, and binds nothing but what it has
added.  So a net that is cut off after any of its operators can be lowered if the
whole net can, and its graph is the graph of the whole net as far as it goes
(`FlatNet.lower_prefix`).
-/

namespace NetLowering

open Checked

namespace Graph

variable {before graph after next : Graph}

/-! ## Agreement -/

/-- The later graph keeps what the earlier one has, and binds nothing more to its operands. -/
structure Agrees (before after : Graph) : Prop extends before.Extends after where
  values : ∀ id, before.contains id = true → after.values.find? id = before.values.find? id
  quants : ∀ id, before.contains id = true →
    after.channelQuants.find? id = before.channelQuants.find? id

theorem Extends.contains (hextends : before.Extends after) {id : OperandId}
    (hcontains : before.contains id = true) : after.contains id = true := by
  obtain ⟨operand, hoperand⟩ := Option.isSome_iff_exists.mp hcontains
  exact Option.isSome_iff_exists.mpr ⟨operand, hextends.operand? hoperand⟩

theorem ne_nextId_of_contains {id : OperandId} (hcontains : graph.contains id = true) :
    id ≠ graph.nextId := by
  rintro rfl
  exact absurd (contains_iff.mp hcontains).2 (Nat.lt_irrefl _)

namespace Agrees

theorem refl (graph : Graph) : graph.Agrees graph :=
  ⟨.refl graph, fun _ _ => rfl, fun _ _ => rfl⟩

theorem trans (hfirst : before.Agrees graph) (hsecond : graph.Agrees after) :
    before.Agrees after where
  toExtends := hfirst.toExtends.trans hsecond.toExtends
  values id hid :=
    (hsecond.values id (hfirst.toExtends.contains hid)).trans (hfirst.values id hid)
  quants id hid :=
    (hsecond.quants id (hfirst.toExtends.contains hid)).trans (hfirst.quants id hid)

end Agrees

theorem agrees_withParam {param : Param} (hadmits : graph.Admits param) :
    graph.Agrees (graph.withParam param) where
  toExtends := extends_withParam hadmits
  values id hid := by
    rw [withParam, Table.find?_insert, if_neg (ne_nextId_of_contains hid)]
  quants id hid := by
    cases hquant : param.channelQuant with
    | none => rw [withParam, hquant, Option.elim]
    | some quant =>
        rw [withParam, hquant, Option.elim, Table.find?_insert, if_neg (ne_nextId_of_contains hid)]

theorem agrees_addLayer {layer : Layer} (hadded : graph.addLayer layer = .ok next) :
    graph.Agrees next := by
  obtain ⟨withParams, name, type, hparams, -, hfresh, -, rfl⟩ := addLayer_eq_ok_iff.mp hadded
  have hagrees : graph.Agrees withParams := by
    refine foldlM_preserves ?_ (.refl graph) hparams
    intro before param after _ hbefore hparam
    obtain ⟨hadmits, rfl⟩ := addParam_eq_ok_iff.mp hparam
    exact hbefore.trans (agrees_withParam hadmits)
  exact hagrees.trans ⟨extends_withResult hfresh, fun _ _ => rfl, fun _ _ => rfl⟩

theorem agrees_nameAs {name : String} {id : OperandId} (hnamed : graph.nameAs name id = .ok next) :
    graph.Agrees next := by
  have hextends := extends_nameAs hnamed
  obtain ⟨-, rfl⟩ := nameAs_eq_ok_iff.mp hnamed
  exact ⟨hextends, fun _ _ => rfl, fun _ _ => rfl⟩

end Graph

variable {options : LoweringOptions} {net : FlatNet} {operators : List FlatOp}
  {start grown graph : Graph}

theorem FlatOp.agrees_of_lower {operator : FlatOp} {next : Graph}
    (hlower : operator.lower options graph = .ok next) : graph.Agrees next := by
  rcases (grows_of_lower hlower).layer_or_name with ⟨_, layer, -, hadded⟩ | ⟨_, name, id, -, hnamed⟩
  · exact Graph.agrees_addLayer hadded
  · exact Graph.agrees_nameAs hnamed

namespace FlatNet

theorem agrees_of_run (hrun : operators.foldlM (FlatOp.lower options) start = .ok grown) :
    start.Agrees grown := by
  refine foldlM_preserves ?_ (.refl start) hrun
  intro before operator after _ hbefore hlower
  exact hbefore.trans (FlatOp.agrees_of_lower hlower)

end FlatNet

/-! ## Prefixes -/

/-- The earlier graph is the later one, as far as its own operands, operations and these names
go. -/
structure Graph.Restricts (earlier later : Graph) (names : List String) : Prop where
  operands : earlier.operands <+: later.operands
  operations : earlier.operations <+: later.operations
  values : ∀ id, earlier.values.find? id =
    if earlier.contains id then later.values.find? id else none
  channelQuants : ∀ id, earlier.channelQuants.find? id =
    if earlier.contains id then later.channelQuants.find? id else none
  tensorIds : ∀ name, earlier.tensorIds.find? name =
    if name ∈ names then later.tensorIds.find? name else none
  inputs : earlier.inputs = later.inputs

namespace Graph

variable {earlier later : Graph}

/-- A table of bindings for operands is the part of a later one that is for them. -/
theorem Binds.find?_eq {α : Type} {table grown : Table OperandId α}
    (hbinds : earlier.Binds table fun _ _ => True)
    (hagrees : ∀ id, earlier.contains id = true → grown.find? id = table.find? id)
    (id : OperandId) :
    table.find? id = if earlier.contains id then grown.find? id else none := by
  split
  · rename_i hid
    exact (hagrees id hid).symm
  · rename_i hid
    rw [Option.eq_none_iff_forall_ne_some]
    intro value hfound
    obtain ⟨operand, hoperand, -⟩ := hbinds id value hfound
    simp [contains, hoperand] at hid

theorem Names.find?_eq {names : List String} {aliases : List (String × String)}
    (hnames : earlier.Names names aliases) (hextends : earlier.Extends later) (name : String) :
    earlier.tensorIds.find? name =
      if name ∈ names then later.tensorIds.find? name else none := by
  split
  · rename_i hname
    rw [← hnames.defined, Table.mem_keys_iff] at hname
    obtain ⟨id, hid⟩ := hname
    rw [hid, hextends.named name id hid]
  · rename_i hname
    rwa [← hnames.defined, Table.notMem_keys_iff] at hname

theorem Agrees.restricts {names : List String} {aliases : List (String × String)}
    (hagrees : earlier.Agrees later) (hcoherent : earlier.Coherent)
    (hnames : earlier.Names names aliases) (inputs earlierOutputs laterOutputs : List OperandId) :
    Restricts { earlier with inputs, outputs := earlierOutputs }
      { later with inputs, outputs := laterOutputs } names where
  operands := hagrees.operands
  operations := hagrees.operations
  values := hcoherent.measured.known.find?_eq hagrees.values
  channelQuants := hcoherent.measured.quants.find?_eq hagrees.quants
  tensorIds name := hnames.find?_eq hagrees.toExtends name
  inputs := rfl

end Graph

namespace FlatNet

/-- A net that can be lowered can be lowered up to any of its operators, and what the operators up
to there have made is not changed by those that follow. -/
theorem lower_prefix {done rest : List FlatOp} (hoperators : net.operators = done ++ rest)
    (hdone : done ≠ []) (hlower : net.lower options = .ok graph) :
    ∃ earlier, FlatNet.lower options { net with operators := done } = .ok earlier ∧
      earlier.Restricts graph (net.definedBy done) := by
  obtain ⟨first, last, start, grown, -, output, hfirst, -, hstart, hrun, -, -, rfl, -⟩ :=
    lower_eq_ok_iff.mp hlower
  rw [hoperators, List.foldlM_append, bind_eq_ok_iff] at hrun
  obtain ⟨middle, hrun, hrest⟩ := hrun
  have hhead : ({ net with operators := done } : FlatNet).operators.head? = some first := by
    rwa [hoperators, List.head?_append_of_ne_nil _ hdone] at hfirst
  obtain ⟨_, _, -, -, hearlier⟩ := lower_of_run hhead hstart hrun
  refine ⟨_, hearlier, ?_⟩
  -- The run of the whole net passes through the graph that the first part grows to.
  have hcoherent := coherent_of_run (coherent_of_inputGraph hstart) hrun
  obtain ⟨source, type, hsource, -, rfl⟩ := inputGraph_eq_ok_iff.mp hstart
  have hname : net.inputName? = some source.name := by
    simp [inputName?, hfirst, FlatOp.head?_of_input hsource]
  exact (agrees_of_run hrest).restricts hcoherent (scoped_of_run hname hrun).names _ _ _

/-- Without its softmax the net ends in the pooling, and what that writes has one name only. -/
theorem lower_prefix_threeLayers :
    ∃ earlier graph,
      threeLayers.lower { inputSize := [3, 2, 1], softmax := .skip } = .ok graph ∧
      graph.tensorIds.find? "likelihoods" = some (.own 20) ∧
      FlatNet.lower { inputSize := [3, 2, 1], softmax := .skip }
        { threeLayers with operators := threeLayers.operators.take 2 } = .ok earlier ∧
      earlier.Restricts graph ["image", "filter", "bias", "features", "pooled"] ∧
      earlier.tensorIds.find? "likelihoods" = none := by
  have hread : (fun graph : Graph => graph.tensorIds.find? "likelihoods") <$>
      threeLayers.lower { inputSize := [3, 2, 1], softmax := .skip } = .ok (some (.own 20)) := by
    rfl
  obtain ⟨graph, hlower, hlikelihoods⟩ := map_eq_ok_iff.mp hread
  obtain ⟨earlier, hearlier, hrestricts⟩ :=
    lower_prefix (List.take_append_drop 2 threeLayers.operators).symm (List.cons_ne_nil _ _) hlower
  exact ⟨earlier, graph, hlower, hlikelihoods, hearlier, hrestricts,
    hrestricts.tensorIds "likelihoods"⟩

end FlatNet

end NetLowering
