import Mathlib.Logic.Equiv.Basic
import NetLowering.Proofs.FlatNet.Images
import NetLowering.Proofs.FlatNet.Joining
import NetLowering.Proofs.Lowering.Restating

/-!
# Nets under other names

No tensor name means anything by itself, not even one that is also the name of an
argument.  If the tensors of both nets are renamed and different names stay
different, the nets are joined and lowered just as before, to the graph under the
new names (`FlatNet.lower_renamed`).
-/

namespace NetLowering

open Checked

variable {rename : String → String}

def NetOperator.renamed (rename : String → String) (operator : NetOperator) : NetOperator :=
  { operator with
    inputs := operator.inputs.map rename
    outputs := operator.outputs.map rename }

def Net.renamed (rename : String → String) (net : Net) : Net :=
  { net with operators := net.operators.map (NetOperator.renamed rename) }

theorem Net.layout_renamed (net : Net) : (net.renamed rename).layout = net.layout := by
  rw [layout, layout, orders, orders, renamed, List.flatMap_map]
  rfl

/-! ## Initializers -/

namespace Tensor

theorem learn_renamed (tensor : Tensor) (fact : String) (value : Value) :
    (tensor.renamed rename).learn fact value = (tensor.learn fact value).renamed rename := by
  simp only [learn, renamed]
  split_ifs <;> rfl

theorem maps_stated (operator : NetOperator) :
    Maps (renamed rename) (stated operator) (stated (operator.renamed rename)) := by
  rw [stated, stated, NetOperator.renamed]
  rcases operator.outputs with _ | ⟨name, _ | ⟨second, rest⟩⟩
  · exact .refused _ _
  · refine Matches.foldlM ?_ (List.forall₂_same.mpr fun _ _ => rfl) rfl
    rintro tensor _ argument _ rfl rfl
    exact (matches_self _).bind_eq fun value => .done (learn_renamed tensor _ value)
  · exact .refused _ _

theorem remapSigned_renamed (tensor : Tensor) :
    (tensor.renamed rename).remapSigned = tensor.remapSigned.renamed rename := by
  by_cases hbiased : ∃ bytes, tensor.Biased bytes
  · obtain ⟨bytes, hbiased⟩ := hbiased
    have hrenamed : (tensor.renamed rename).Biased bytes := hbiased
    rw [remapSigned_of_biased hbiased, remapSigned_of_biased hrenamed]
    rfl
  · have hnone : ∀ bytes, ¬tensor.Biased bytes := fun bytes hbytes => hbiased ⟨bytes, hbytes⟩
    have hrenamed : ∀ bytes, ¬(tensor.renamed rename).Biased bytes := hnone
    rw [remapSigned_of_not_biased hnone, remapSigned_of_not_biased hrenamed]

theorem maps_channelLast (tensor : Tensor) :
    Maps (renamed rename) tensor.channelLast (tensor.renamed rename).channelLast := by
  by_cases haxes : ∃ n c h w values,
      tensor.shape.bind Value.ints? = some #[n, c, h, w] ∧ tensor.values = some values
  · obtain ⟨n, c, h, w, values, hshape, hvalues⟩ := haxes
    have hrenamed : (tensor.renamed rename).channelLast =
        (valuesToChannelLast n c h w values).map ((tensor.renamed rename).relaidAs n c h w) :=
      channelLast_of_axes hshape hvalues
    rw [hrenamed, channelLast_of_axes hshape hvalues]
    cases valuesToChannelLast n c h w values with
    | error fault => exact .refused _ _
    | ok relaid => exact .done rfl
  · have hrenamed : (tensor.renamed rename).channelLast = .ok (tensor.renamed rename) :=
      channelLast_of_no_image haxes
    rw [hrenamed, channelLast_of_no_image haxes]
    exact .done rfl

theorem maps_ofInitializer (options : LoadOptions) (layout : Layout) (operator : NetOperator) :
    Maps (renamed rename) (ofInitializer options layout operator)
      (ofInitializer options layout (operator.renamed rename)) := by
  rw [ofInitializer, ofInitializer]
  refine (maps_stated operator).bind fun facts => ?_
  have hremapped : (if options.quantized && options.signedRemap then
        (facts.renamed rename).remapSigned else facts.renamed rename) =
      (remapped options facts).renamed rename := by
    rw [remapped]
    split
    · exact remapSigned_renamed facts
    · rfl
  simp only [hremapped]
  cases layout with
  | channelFirst => exact (maps_channelLast _).mapError
  | channelLast => exact .done rfl

end Tensor

/-- Under its new name every tensor is found in the second table, renamed itself. -/
def Table.Renames (rename : String → String) (table other : Table String Tensor) : Prop :=
  ∀ name, other.find? (rename name) = (table.find? name).map (Tensor.renamed rename)

theorem Table.Renames.insert {table other : Table String Tensor}
    (hinjective : Function.Injective rename) (hrenames : table.Renames rename other)
    (tensor : Tensor) :
    (table.insert tensor.name tensor).Renames rename
      (other.insert (rename tensor.name) (tensor.renamed rename)) := by
  intro name
  simp only [find?_insert, hinjective.eq_iff]
  split
  · rfl
  · exact hrenames name

/-! ## Joining -/

theorem FlatOp.matches_ofOperator_renamed {table other : Table String Tensor}
    (hrenames : table.Renames rename other) (layout : Layout) (operator : NetOperator) :
    Matches (Restates rename .channelLast .channelLast) (ofOperator layout table operator)
      (ofOperator layout other (operator.renamed rename)) := by
  have hresolved (name : String) : (other.find? (rename name)).getD (.named (rename name)) =
      ((table.find? name).getD (.named name)).renamed rename := by
    rw [hrenames]
    cases table.find? name <;> rfl
  refine (matches_self (argumentTable layout operator.arguments)).bind_eq fun arguments =>
    .done ⟨?_, fun name _ => ?_⟩
  · simp only [NetOperator.renamed, List.map_map, Function.comp_def, hresolved]
  · refine ⟨arguments.find? name, ?_, ?_⟩ <;> exact Option.map_id'.symm

namespace FlatNet

variable {loading : LoadOptions}

theorem matches_addInitializer_renamed {layout : Layout} {table other : Table String Tensor}
    (hinjective : Function.Injective rename) (hrenames : table.Renames rename other)
    (operator : NetOperator) :
    Matches (Table.Renames rename) (addInitializer loading layout table operator)
      (addInitializer loading layout other (operator.renamed rename)) := by
  rw [addInitializer, addInitializer]
  refine (Tensor.maps_ofInitializer loading layout operator).bind fun tensor => ?_
  have hcontains : other.contains (tensor.renamed rename).name = table.contains tensor.name := by
    rw [Table.contains, Tensor.renamed, hrenames, Option.isSome_map]
    rfl
  rw [hcontains]
  exact matches_ite (fun _ => .refused _ _) fun _ => .done (hrenames.insert hinjective tensor)

theorem matches_join_renamed (hinjective : Function.Injective rename) (loading : LoadOptions)
    (predict init : Net) :
    Matches (fun net other => List.Forall₂ (FlatOp.Restates rename .channelLast .channelLast)
        net.operators other.operators)
      (join loading predict init)
      (join loading (predict.renamed rename) (init.renamed rename)) := by
  rw [join, join, Net.layout_renamed, Net.layout_renamed]
  refine (matches_self init.layout).bind_eq fun initLayout => ?_
  refine (matches_self predict.layout).bind_eq fun predictLayout => ?_
  refine Matches.bind (R := Table.Renames rename) ?_ fun table other htables => ?_
  · refine Matches.foldlM ?_ (forall₂_map_self _ init.operators) fun _ => rfl
    rintro table other operator _ hrenames rfl
    exact matches_addInitializer_renamed hinjective hrenames operator
  · refine Matches.bind (Matches.mapM ?_ (forall₂_map_self _ predict.operators))
      fun _ _ hoperators => .done hoperators
    rintro operator _ rfl
    exact FlatOp.matches_ofOperator_renamed htables predictLayout operator

/-! ## Lowering -/

/-- Under other names the nets are joined and lowered just as before, and the graph is the one
under these names. -/
theorem lower_renamed (hinjective : Function.Injective rename) (loading : LoadOptions)
    (predict init : Net) :
    ((∃ renamedNet,
        join loading (predict.renamed rename) (init.renamed rename) = .ok renamedNet) ↔
      ∃ net, join loading predict init = .ok net) ∧
    ∀ net renamedNet, join loading predict init = .ok net →
      join loading (predict.renamed rename) (init.renamed rename) = .ok renamedNet →
      ∀ options renamedGraph, renamedNet.lower options = .ok renamedGraph ↔
        ∃ graph, net.lower options = .ok graph ∧ renamedGraph = graph.renamed rename ∧
          renamedGraph.requiredOps = graph.requiredOps := by
  have hjoins := matches_join_renamed hinjective loading predict init
  refine ⟨hjoins.exists_ok_iff, fun net renamedNet hjoin hrenamed options renamedGraph => ?_⟩
  rw [hjoin, hrenamed, matches_ok_iff] at hjoins
  rw [← toOption_eq_some_iff, maps_iff_toOption.mp (maps_lower hinjective hjoins options),
    Option.map_eq_some_iff]
  simp only [toOption_eq_some_iff]
  constructor
  · rintro ⟨graph, hlower, rfl⟩
    exact ⟨graph, hlower, rfl, rfl⟩
  · rintro ⟨graph, hlower, rfl, -⟩
    exact ⟨graph, hlower, rfl⟩

/-- A softmax of the image and a convolution of its likelihoods. -/
def likelyPredict : Net where
  operators := [
    { inputs := ["image"]
      outputs := ["likelihoods"]
      type := some "Softmax" },
    { inputs := ["likelihoods", "filter", "bias"]
      outputs := ["features"]
      type := some "Int8Conv"
      arguments := [{ name := some "kernel", int := some 1 }] }]

def likelyInit : Net where
  operators := [
    { outputs := ["filter"]
      arguments := [{ name := some "shape", ints := [1, 1, 1, 1] },
        { name := some "values", floats := [.one] }] },
    { outputs := ["bias"]
      arguments := [{ name := some "shape", ints := [1] },
        { name := some "values", floats := [.zero] }] }]

/-- A filter by the name of an argument is a filter all the same. -/
theorem lower_renamed_kernel :
    Function.Injective (Equiv.swap "filter" "kernel") ∧
      ∃ net graph renamedNet, join {} likelyPredict likelyInit = .ok net ∧
        net.lower { inputSize := [1, 1, 1] } = .ok graph ∧
        join {} (likelyPredict.renamed (Equiv.swap "filter" "kernel"))
          (likelyInit.renamed (Equiv.swap "filter" "kernel")) = .ok renamedNet ∧
        renamedNet.lower { inputSize := [1, 1, 1] } =
          .ok (graph.renamed (Equiv.swap "filter" "kernel")) ∧
        graph.tensorIds.find? "filter" = some (.own 1) ∧
        (graph.renamed (Equiv.swap "filter" "kernel")).tensorIds.find? "kernel" =
          some (.own 1) := by
  have hinjective := (Equiv.swap "filter" "kernel").injective
  obtain ⟨haccepts, hgraphs⟩ := lower_renamed hinjective {} likelyPredict likelyInit
  have hread : (fun net : FlatNet => (fun graph : Graph => graph.tensorIds.find? "filter") <$>
        net.lower { inputSize := [1, 1, 1] }) <$> join {} likelyPredict likelyInit =
      .ok (.ok (some (.own 1))) := by
    decide +kernel
  obtain ⟨net, hjoin, hnet⟩ := map_eq_ok_iff.mp hread
  obtain ⟨graph, hlower, hfilter⟩ := map_eq_ok_iff.mp hnet
  obtain ⟨renamedNet, hrenamed⟩ := haccepts.mpr ⟨net, hjoin⟩
  refine ⟨hinjective, net, graph, renamedNet, hjoin, hlower, hrenamed,
    (hgraphs net renamedNet hjoin hrenamed _ _).mpr ⟨graph, hlower, rfl, rfl⟩, hfilter, ?_⟩
  rw [← hfilter]
  exact Graph.find?_renamed hinjective graph "filter"

end FlatNet

end NetLowering
