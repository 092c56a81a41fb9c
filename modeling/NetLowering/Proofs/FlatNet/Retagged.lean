import NetLowering.Proofs.FlatNet.Joinable
import NetLowering.Proofs.Lowering.Restating

/-!
# Nets with another order

A predict net that states another order is joined with the same initializers just as
well, and its arguments are those of the first net, each as the other layout has it.
Although the layout permutes arguments of every operator, both nets are
lowered to the same graph (`FlatNet.lower_retagged`).
-/

namespace NetLowering

open Checked

/-! ## Retagged nets -/

/-- The argument without the bytes that an order is stated by. -/
def Argument.untagged (argument : Argument) : Argument :=
  if argument.name = some "order" then
    { argument with bytes := argument.bytes.map fun _ => [] }
  else argument

def NetOperator.untagged (operator : NetOperator) : NetOperator :=
  { operator with arguments := operator.arguments.map Argument.untagged }

/-- All that a net states but for what its orders are; nets that have this in common differ at most
in the bytes of arguments named `order`. -/
def Net.untagged (net : Net) : Net :=
  { net with
    operators := net.operators.map NetOperator.untagged
    arguments := net.arguments.map Argument.untagged }

/-! ## Arguments -/

namespace Argument

variable {argument other : Argument}

theorem label_untagged (argument : Argument) : argument.untagged.label = argument.label := by
  rw [untagged]
  split <;> rfl

theorem untagged_of_label_ne (hlabel : argument.label ≠ "order") :
    argument.untagged = argument := by
  rw [untagged, if_neg]
  intro hname
  exact hlabel (by rw [label, hname, Option.getD_some])

theorem populated_untagged (argument : Argument) :
    argument.untagged.populated = argument.populated := by
  rw [populated, populated]
  congr 1
  funext kind
  rw [untagged]
  split
  · cases kind <;> simp [holds]
  · rfl

/-- Which bytes there are decides no more than which text they are read as. -/
theorem exists_payload_untagged_iff (argument : Argument) (kind : PayloadKind) :
    (∃ buffer, argument.untagged.payload kind = .ok buffer) ↔
      ∃ buffer, argument.payload kind = .ok buffer := by
  rw [untagged]
  split
  · cases kind with
    | bytes => exact iff_of_true ⟨_, rfl⟩ ⟨_, rfl⟩
    | _ => rfl
  · rfl

theorem exists_value_untagged_iff (argument : Argument) :
    (∃ value, argument.untagged.value = .ok value) ↔ ∃ value, argument.value = .ok value := by
  rw [value, value, populated_untagged]
  split
  · rw [exists_map_ok_iff, exists_map_ok_iff, exists_payload_untagged_iff]
  · simp

theorem exists_value_iff_of_untagged (huntagged : other.untagged = argument.untagged) :
    (∃ value, other.value = .ok value) ↔ ∃ value, argument.value = .ok value := by
  rw [← exists_value_untagged_iff, huntagged, exists_value_untagged_iff]

end Argument

namespace FlatOp

variable {layout otherLayout : Layout}

theorem argumentValue_of_label_ne {argument : Argument} (hlabel : argument.label ≠ "order")
    (layout : Layout) : argumentValue layout argument =
      layout.restated argument.label <$> argument.value := by
  rw [argumentValue]
  cases argument.value with
  | error error => rfl
  | ok value =>
      rw [ok_bind, if_neg hlabel]
      change _ = Except.ok (layout.restated argument.label value)
      rw [Layout.restated]
      split <;> rfl

theorem matches_argumentValue {argument other : Argument}
    (huntagged : other.untagged = argument.untagged) (layout otherLayout : Layout) :
    Matches (fun value otherValue => argument.label ≠ "order" →
        ∃ stated, value = layout.restated argument.label stated ∧
          otherValue = otherLayout.restated argument.label stated)
      (argumentValue layout argument) (argumentValue otherLayout other) := by
  refine matches_of_exists_ok_iff ?_ fun value otherValue hvalue hother hlabel => ?_
  · rw [exists_argumentValue_iff, exists_argumentValue_iff,
      Argument.exists_value_iff_of_untagged huntagged]
  · -- Only an order can differ, so what is compared here is one and the same argument.
    have hsame : other = argument := by
      have hotherLabel : other.label ≠ "order" := by
        rwa [← Argument.label_untagged, huntagged, Argument.label_untagged]
      rw [← Argument.untagged_of_label_ne hotherLabel, huntagged,
        Argument.untagged_of_label_ne hlabel]
    rw [argumentValue_of_label_ne hlabel, map_eq_ok_iff] at hvalue
    rw [hsame, argumentValue_of_label_ne hlabel, map_eq_ok_iff] at hother
    obtain ⟨stated, hstated, rfl⟩ := hvalue
    obtain ⟨_, hfound, rfl⟩ := hother
    cases hstated.symm.trans hfound
    exact ⟨stated, rfl, rfl⟩

theorem matches_argumentTable {arguments others : List Argument}
    (harguments : List.Forall₂ (fun argument other => other.untagged = argument.untagged)
      arguments others) (layout otherLayout : Layout) :
    Matches (Table.Restates layout otherLayout) (argumentTable layout arguments)
      (argumentTable otherLayout others) := by
  refine Matches.foldlM ?_ harguments fun _ _ => ⟨none, rfl, rfl⟩
  intro table otherTable argument other htables huntagged
  refine (matches_argumentValue huntagged layout otherLayout).bind fun value otherValue hvalues =>
    .done fun name hname => ?_
  have hlabel : other.label = argument.label := by
    rw [← Argument.label_untagged, huntagged, Argument.label_untagged]
  rw [Table.find?_insert, Table.find?_insert, hlabel]
  split
  · rename_i hargument
    subst hargument
    obtain ⟨stated, rfl, rfl⟩ := hvalues hname
    exact ⟨some stated, rfl, rfl⟩
  · exact htables name hname

end FlatOp

/-! ## Operators -/

theorem forall₂_of_map_eq {α β : Type} {f : α → β} {items others : List α}
    (hsame : others.map f = items.map f) :
    List.Forall₂ (fun item other => f other = f item) items others := by
  rw [← List.forall₂_eq_eq_eq, List.forall₂_map_left_iff, List.forall₂_map_right_iff] at hsame
  exact hsame.flip

theorem NetOperator.decodes_untagged_iff (operator : NetOperator) :
    operator.untagged.Decodes ↔ operator.Decodes := by
  simp only [Decodes, untagged, List.forall_mem_map, Argument.exists_value_untagged_iff]

theorem FlatOp.matches_ofOperator {operator other : NetOperator}
    (huntagged : other.untagged = operator.untagged) (layout otherLayout : Layout)
    (initializers : Table String Tensor) :
    Matches (Restates id layout otherLayout) (ofOperator layout initializers operator)
      (ofOperator otherLayout initializers other) := by
  obtain ⟨inputs, outputs, name, type, arguments, engine⟩ := operator
  obtain ⟨_, _, _, _, others, _⟩ := other
  simp only [NetOperator.untagged, NetOperator.mk.injEq] at huntagged
  obtain ⟨rfl, rfl, rfl, rfl, harguments, rfl⟩ := huntagged
  refine (matches_argumentTable (forall₂_of_map_eq harguments) layout otherLayout).bind
    fun table otherTable htables => .done ⟨?_, htables⟩
  simp [Tensor.renamed]

/-! ## Nets -/

theorem Net.decodes_untagged_iff (net : Net) : net.untagged.Decodes ↔ net.Decodes := by
  simp only [Decodes, untagged, List.forall_mem_map, NetOperator.decodes_untagged_iff]

namespace FlatNet

variable {predict other init : Net}

theorem joinable_of_untagged (huntagged : other.untagged = predict.untagged) :
    Joinable other init ↔ Joinable predict init := by
  have hdecodes : other.Decodes ↔ predict.Decodes := by
    rw [← other.decodes_untagged_iff, huntagged, predict.decodes_untagged_iff]
  constructor <;> exact fun hjoinable =>
    { hjoinable with predictDecodes := by simpa [hdecodes] using hjoinable.predictDecodes }

/-- Nets that differ only in what their orders are can both be joined or neither, and they are
lowered to the same graph, whatever their layouts have made of their arguments. -/
theorem lower_retagged (huntagged : other.untagged = predict.untagged) (init : Net)
    (loading : LoadOptions) :
    ((∃ otherNet, join loading other init = .ok otherNet) ↔
        ∃ net, join loading predict init = .ok net) ∧
      ∀ net otherNet, join loading predict init = .ok net →
        join loading other init = .ok otherNet →
        List.Forall₂ (FlatOp.Restates id net.predictLayout otherNet.predictLayout)
            net.operators otherNet.operators ∧
          ∀ options graph, otherNet.lower options = .ok graph ↔ net.lower options = .ok graph := by
  refine ⟨by rw [exists_join_iff, exists_join_iff, joinable_of_untagged huntagged], ?_⟩
  intro net otherNet hjoin hother
  obtain ⟨hinit, -, hinitializers, hoperators⟩ := join_eq_ok_iff.mp hjoin
  obtain ⟨hotherInit, -, hotherInitializers, hothers⟩ := join_eq_ok_iff.mp hother
  have hlayout : otherNet.initLayout = net.initLayout :=
    Except.ok.inj (hotherInit.symm.trans hinit)
  rw [hlayout, hinitializers, Except.ok.injEq] at hotherInitializers
  rw [← hotherInitializers] at hothers
  have hretags := forall₂_of_map_eq (f := NetOperator.untagged)
    (congrArg Net.operators huntagged)
  have hrestates : Matches
      (List.Forall₂ (FlatOp.Restates id net.predictLayout otherNet.predictLayout))
      (predict.operators.mapM (FlatOp.ofOperator net.predictLayout net.initializers))
      (other.operators.mapM (FlatOp.ofOperator otherNet.predictLayout net.initializers)) := by
    refine Matches.mapM ?_ hretags
    intro operator partner hoperator
    exact FlatOp.matches_ofOperator hoperator _ _ _
  rw [hoperators, hothers, matches_ok_iff] at hrestates
  refine ⟨hrestates, fun options graph => ?_⟩
  have hlower := maps_iff_toOption.mp (maps_lower Function.injective_id hrestates options)
  have hsame : Graph.renamed id = id := funext Graph.renamed_id
  rw [← toOption_eq_some_iff, hlower, hsame, Option.map_id, id, toOption_eq_some_iff]

/-- A pooling that also states axes, in the layout that these bytes name. -/
def pooledPredict (order : Bytes) : Net where
  operators := [
    { inputs := ["image"]
      outputs := ["pooled"]
      type := some "Int8AveragePool"
      arguments := [{ name := some "kernel", int := some 1 },
        { name := some "pads", ints := [1, 0, 0, 1] },
        { name := some "order", bytes := some order },
        { name := some "axes", ints := [1, 2, 3, 4] }] }]

/-- Of `NCHW` and `NHWC` only the first permutes the axes, and neither the pads. -/
theorem lower_retagged_pooled :
    (pooledPredict [78, 72, 87, 67]).untagged = (pooledPredict [78, 67, 72, 87]).untagged ∧
      ∃ net otherNet graph, join {} (pooledPredict [78, 67, 72, 87]) {} = .ok net ∧
        join {} (pooledPredict [78, 72, 87, 67]) {} = .ok otherNet ∧
        net.operators.map (·.arguments.find? "axes") = [some (.numbers (.int32 #[1, 3, 4, 2]))] ∧
        otherNet.operators.map (·.arguments.find? "axes") =
          [some (.numbers (.int32 #[1, 2, 3, 4]))] ∧
        net.lower { inputSize := [2, 2, 1] } = .ok graph ∧
        otherNet.lower { inputSize := [2, 2, 1] } = .ok graph := by
  have huntagged : (pooledPredict [78, 72, 87, 67]).untagged =
      (pooledPredict [78, 67, 72, 87]).untagged := rfl
  obtain ⟨haccepts, hgraphs⟩ := lower_retagged huntagged {} {}
  have hread : (fun net : FlatNet => (net.operators.map (·.arguments.find? "axes"),
        (net.lower { inputSize := [2, 2, 1] }).toOption.isSome)) <$>
      join {} (pooledPredict [78, 67, 72, 87]) {} =
        .ok ([some (.numbers (.int32 #[1, 3, 4, 2]))], true) := by
    decide +kernel
  have hotherRead : (fun net : FlatNet => net.operators.map (·.arguments.find? "axes")) <$>
      join {} (pooledPredict [78, 72, 87, 67]) {} =
        .ok [some (.numbers (.int32 #[1, 2, 3, 4]))] := by
    decide +kernel
  obtain ⟨net, hjoin, hnet⟩ := map_eq_ok_iff.mp hread
  obtain ⟨otherNet, hother, hotherAxes⟩ := map_eq_ok_iff.mp hotherRead
  obtain ⟨haxes, hlowered⟩ := Prod.mk.inj hnet
  obtain ⟨graph, hgraph⟩ := Option.isSome_iff_exists.mp hlowered
  have hlower := toOption_eq_some_iff.mp hgraph
  exact ⟨huntagged, net, otherNet, graph, hjoin, hother, haxes, hotherAxes, hlower,
    ((hgraphs net otherNet hjoin hother).2 _ graph).mpr hlower⟩

end FlatNet

end NetLowering
