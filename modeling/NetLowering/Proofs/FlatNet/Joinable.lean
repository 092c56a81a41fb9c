import NetLowering.Proofs.FlatNet.Joining
import NetLowering.Proofs.FlatNet.Loadable

/-!
# Which nets can be joined

Two nets can be joined if all that they state can be read and every initializer can
be loaded under a name of its own.  The joined net then has an operator for every
operator of the predict net, and its initializers are those of the initializer net,
by their outputs.
-/

namespace NetLowering

open Checked

/-! ## Readings -/

def Net.Decodes (net : Net) : Prop := ∀ operator ∈ net.operators, operator.Decodes

theorem Layout.exists_ofOrders {orders : List Argument}
    (horders : ∀ argument ∈ orders, ∃ value, argument.value = .ok value) :
    ∃ layout, ofOrders orders = .ok layout := by
  induction orders with
  | nil => exact ⟨_, rfl⟩
  | cons argument orders ih =>
      rw [List.forall_mem_cons] at horders
      obtain ⟨⟨value, hvalue⟩, hrest⟩ := horders
      rw [ofOrders, hvalue, ok_bind]
      split
      · exact ⟨_, rfl⟩
      · exact ih hrest

theorem Net.exists_layout {net : Net} (hdecodes : net.Decodes) :
    ∃ layout, net.layout = .ok layout := by
  refine Layout.exists_ofOrders fun argument hargument => ?_
  obtain ⟨operator, hoperator, hfiltered⟩ := List.mem_flatMap.mp hargument
  exact hdecodes operator hoperator argument (List.mem_filter.mp hfiltered).1

theorem FlatOp.exists_argumentValue_iff {layout : Layout} {argument : Argument} :
    (∃ value, argumentValue layout argument = .ok value) ↔
      ∃ value, argument.value = .ok value := by
  rw [argumentValue, exists_bind_ok_iff]
  refine exists_congr fun value => and_iff_left ?_
  split
  · exact ⟨_, rfl⟩
  · split <;> exact ⟨_, rfl⟩

theorem FlatOp.exists_ofOperator_iff {layout : Layout} {initializers : Table String Tensor}
    {operator : NetOperator} :
    (∃ flat, ofOperator layout initializers operator = .ok flat) ↔ operator.Decodes := by
  rw [ofOperator, exists_bind_ok_iff, argumentTable, foldlM_read]
  simp only [pure_eq_ok, Except.ok.injEq, exists_eq', and_true]
  rw [exists_map_ok_iff, exists_mapM_ok_iff]
  exact forall₂_congr fun argument _ => exists_argumentValue_iff

namespace FlatNet

variable {options : LoadOptions} {layout : Layout} {operators : List NetOperator}

/-! ## Initializers -/

theorem addInitializer_eq_ok_iff {initializers next : Table String Tensor}
    {operator : NetOperator} :
    addInitializer options layout initializers operator = .ok next ↔
      ∃ tensor, Tensor.ofInitializer options layout operator = .ok tensor ∧
        initializers.find? tensor.name = none ∧
        next = initializers.insert tensor.name tensor := by
  simp only [addInitializer, bind_eq_ok_iff, check_eq_ok_iff, pure_eq_ok_iff,
    Table.not_contains_iff]

/-- Initializers are added one by one, each under a name that is not taken yet. -/
theorem addInitializers_eq_ok_iff {start table : Table String Tensor} :
    operators.foldlM (addInitializer options layout) start = .ok table ↔
      ∃ tensors, List.Forall₂
          (fun operator tensor => Tensor.ofInitializer options layout operator = .ok tensor)
          operators tensors ∧
        (tensors.map Tensor.name).Nodup ∧
        (∀ tensor ∈ tensors, start.find? tensor.name = none) ∧
        table = tensors.foldl (fun table tensor => table.insert tensor.name tensor) start := by
  induction operators generalizing start with
  | nil => simp [pure_eq_ok_iff]
  | cons operator operators ih =>
      have hinsert (tensor other : Tensor) :
          (start.insert tensor.name tensor).find? other.name = none ↔
            other.name ≠ tensor.name ∧ start.find? other.name = none := by
        rw [Table.find?_insert]
        by_cases hname : other.name = tensor.name <;> simp [hname]
      simp only [List.foldlM_cons, bind_eq_ok_iff, addInitializer_eq_ok_iff, ih,
        List.forall₂_cons_left_iff]
      constructor
      · rintro ⟨_, ⟨tensor, hload, hfresh, rfl⟩, tensors, hloads, hnodup, hfreshes, rfl⟩
        simp only [hinsert] at hfreshes
        refine ⟨tensor :: tensors, ⟨tensor, tensors, hload, hloads, rfl⟩, ?_, ?_, rfl⟩
        · rw [List.map_cons, List.nodup_cons]
          refine ⟨fun hmem => ?_, hnodup⟩
          obtain ⟨other, hother, hname⟩ := List.mem_map.mp hmem
          exact (hfreshes other hother).1 hname
        · rw [List.forall_mem_cons]
          exact ⟨hfresh, fun other hother => (hfreshes other hother).2⟩
      · rintro ⟨_, ⟨tensor, tensors, hload, hloads, rfl⟩, hnodup, hfreshes, rfl⟩
        rw [List.map_cons, List.nodup_cons] at hnodup
        rw [List.forall_mem_cons] at hfreshes
        refine ⟨_, ⟨tensor, hload, hfreshes.1, rfl⟩, tensors, hloads, hnodup.2, ?_, rfl⟩
        intro other hother
        rw [hinsert]
        refine ⟨fun hname => hnodup.1 ?_, hfreshes.2 other hother⟩
        exact hname ▸ List.mem_map_of_mem hother

theorem initializers_eq_ok_iff {table : Table String Tensor} :
    operators.foldlM (addInitializer options layout) ∅ = .ok table ↔
      ∃ tensors, List.Forall₂
          (fun operator tensor => Tensor.ofInitializer options layout operator = .ok tensor)
          operators tensors ∧
        (tensors.map Tensor.name).Nodup ∧
        table = .ofList (tensors.map fun tensor => (tensor.name, tensor)) := by
  rw [addInitializers_eq_ok_iff]
  refine exists_congr fun tensors => and_congr_right' (and_congr_right' ?_)
  rw [Table.ofList, List.foldl_map]
  exact and_iff_right fun tensor _ => Table.find?_empty tensor.name

theorem names_of_load {tensors : List Tensor}
    (hloads : List.Forall₂
      (fun operator tensor => Tensor.ofInitializer options layout operator = .ok tensor)
      operators tensors) :
    operators.flatMap (·.outputs) = tensors.map Tensor.name := by
  induction hloads with
  | nil => rfl
  | cons hload _ ih =>
      rw [List.flatMap_cons, Tensor.outputs_of_ofInitializer hload, ih]
      rfl

/-! ## Nets -/

/-- All that two nets have to fulfil to be joined. -/
structure Joinable (predict init : Net) : Prop where
  predictDecodes : predict.Decodes
  initDecodes : init.Decodes
  oneOutput : ∀ operator ∈ init.operators, ∃ name, operator.outputs = [name]
  distinct : (init.operators.flatMap (·.outputs)).Nodup
  filled : init.StatesOrder "NCHW" → ∀ operator ∈ init.operators, operator.FillsImage

/-- What the joined net has of either half. -/
structure Resolves (options : LoadOptions) (predict init : Net) (net : FlatNet) : Prop where
  operators : List.Forall₂
    (fun operator flat => flat.outputs = operator.outputs ∧
      flat.inputs = operator.inputs.map fun name =>
        (net.initializers.find? name).getD (.named name))
    predict.operators net.operators
  initializers : ∀ name tensor, net.initializers.find? name = some tensor ↔
    ∃ operator ∈ init.operators, operator.outputs = [name] ∧
      Tensor.ofInitializer options net.initLayout operator = .ok tensor
  keys : net.initializers.keys.Perm (init.operators.flatMap (·.outputs))

variable {predict init : Net} {net : FlatNet}

theorem exists_join_iff :
    (∃ net, join options predict init = .ok net) ↔ Joinable predict init := by
  simp only [join, exists_bind_ok_iff, initializers_eq_ok_iff]
  constructor
  · rintro ⟨initLayout, hinit, predictLayout, hpredict, _, ⟨tensors, hloads, hnodup, rfl⟩,
      operators, hoperators, -⟩
    have hloaded : ∀ operator ∈ init.operators, ∃ tensor,
        Tensor.ofInitializer options initLayout operator = .ok tensor :=
      exists_mapM_ok_iff.mp ⟨tensors, mapM_eq_ok_iff.mpr hloads⟩
    simp only [Tensor.exists_ofInitializer_iff] at hloaded
    have hread := exists_mapM_ok_iff.mp ⟨_, hoperators⟩
    refine ⟨fun operator hoperator => FlatOp.exists_ofOperator_iff.mp (hread operator hoperator),
      fun operator hoperator => (hloaded operator hoperator).2.1,
      fun operator hoperator => (hloaded operator hoperator).1, ?_, ?_⟩
    · rw [names_of_load hloads]
      exact hnodup
    · intro hstates operator hoperator
      exact (hloaded operator hoperator).2.2 ((Net.layout_channelFirst_iff hinit).mpr hstates)
  · intro hjoinable
    obtain ⟨initLayout, hinit⟩ := Net.exists_layout hjoinable.initDecodes
    obtain ⟨predictLayout, hpredict⟩ := Net.exists_layout hjoinable.predictDecodes
    have hloaded : ∀ operator ∈ init.operators, ∃ tensor,
        Tensor.ofInitializer options initLayout operator = .ok tensor := by
      intro operator hoperator
      refine Tensor.exists_ofInitializer_iff.mpr ⟨hjoinable.oneOutput operator hoperator,
        hjoinable.initDecodes operator hoperator, fun hfirst => ?_⟩
      exact hjoinable.filled ((Net.layout_channelFirst_iff hinit).mp hfirst) operator hoperator
    obtain ⟨tensors, hload⟩ := exists_mapM_ok_iff.mpr hloaded
    have hloads := mapM_eq_ok_iff.mp hload
    have hnodup := hjoinable.distinct
    rw [names_of_load hloads] at hnodup
    have hflattened (initializers : Table String Tensor) : ∃ operators,
        predict.operators.mapM (FlatOp.ofOperator predictLayout initializers) = .ok operators :=
      exists_mapM_ok_iff.mpr fun operator hoperator =>
        FlatOp.exists_ofOperator_iff.mpr (hjoinable.predictDecodes operator hoperator)
    obtain ⟨operators, hoperators⟩ := hflattened _
    exact ⟨initLayout, hinit, predictLayout, hpredict, _, ⟨tensors, hloads, hnodup, rfl⟩,
      operators, hoperators, _, rfl⟩

theorem resolves_of_join (hjoin : join options predict init = .ok net) :
    net.Resolves options predict init := by
  simp only [join, bind_eq_ok_iff, initializers_eq_ok_iff, pure_eq_ok_iff] at hjoin
  obtain ⟨initLayout, -, predictLayout, -, _, ⟨tensors, hloads, hnodup, rfl⟩, operators,
    hoperators, rfl⟩ := hjoin
  have hkeys : ((tensors.map fun tensor => (tensor.name, tensor)).map (·.1)) =
      tensors.map Tensor.name := by
    rw [List.map_map]
    rfl
  refine ⟨?_, ?_, ?_⟩
  · refine (mapM_eq_ok_iff.mp hoperators).imp fun operator flat hread => ?_
    obtain ⟨-, hinputs, houtputs⟩ := FlatOp.ofOperator_eq_ok hread
    exact ⟨houtputs, hinputs⟩
  · intro name tensor
    rw [Table.find?_ofList_of_nodup (hkeys ▸ hnodup), List.mem_map]
    have hload := mapM_eq_ok_iff.mpr hloads
    constructor
    · rintro ⟨_, htensor, ⟨⟩⟩
      obtain ⟨operator, hoperator, hread⟩ := exists_read_of_mapM hload htensor
      exact ⟨operator, hoperator, Tensor.outputs_of_ofInitializer hread, hread⟩
    · rintro ⟨operator, hoperator, houtputs, hread⟩
      obtain ⟨found, hfound, hfoundRead⟩ := exists_of_mapM hload hoperator
      cases hread.symm.trans hfoundRead
      cases houtputs.symm.trans (Tensor.outputs_of_ofInitializer hread)
      exact ⟨tensor, hfound, rfl⟩
  · rw [names_of_load hloads, ← hkeys]
    exact Table.perm_keys_ofList (hkeys ▸ hnodup)

/-- Two nets can be joined just when they are joinable, and every input is then resolved. -/
theorem join_ok_iff (options : LoadOptions) (predict init : Net) :
    ((∃ net, join options predict init = .ok net) ↔ Joinable predict init) ∧
      ∀ net, join options predict init = .ok net → net.Resolves options predict init :=
  ⟨exists_join_iff, fun _ => resolves_of_join⟩

/-- A channel-first initializer net that states a shape twice. -/
def restatedInit : Net where
  operators := [
    { outputs := ["filter"]
      arguments := [{ name := some "shape", ints := [2, 2, 2, 2] },
        { name := some "order", bytes := some [78, 67, 72, 87] },
        { name := some "values", bytes := some [7, 8] },
        { name := some "shape", ints := [1, 2, 1, 1] }] }]

def restatedPredict : Net where
  operators := [{ inputs := ["image", "filter"], outputs := ["features"] }]

/-- The last shape is the one that the values have to fill. -/
theorem join_ok_iff_restated :
    Joinable restatedPredict restatedInit ∧
      ∃ net, join {} restatedPredict restatedInit = .ok net ∧
        net.Resolves {} restatedPredict restatedInit ∧
        ∃ tensor, net.initializers.find? "filter" = some tensor ∧
          net.operators.map (·.inputs) = [[.named "image", tensor]] := by
  obtain ⟨haccepts, hresolves⟩ := join_ok_iff {} restatedPredict restatedInit
  have hjoined : (fun net : FlatNet => decide (∃ tensor ∈ net.initializers.find? "filter",
        net.operators.map (·.inputs) = [[.named "image", tensor]])) <$>
      join {} restatedPredict restatedInit = .ok true := by
    decide +kernel
  obtain ⟨net, hjoin, hnet⟩ := map_eq_ok_iff.mp hjoined
  obtain ⟨tensor, htensor, hinputs⟩ := of_decide_eq_true hnet
  exact ⟨haccepts.mp ⟨net, hjoin⟩, net, hjoin, hresolves net hjoin, tensor, htensor, hinputs⟩

end FlatNet

end NetLowering
