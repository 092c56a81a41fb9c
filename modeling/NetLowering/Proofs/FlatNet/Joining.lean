import NetLowering.FlatNet
import NetLowering.Proofs.Checked
import NetLowering.Proofs.Table

/-!
# What a joined net is made of

A net that has been joined has both layouts read off the orders of its halves.
Every initializer is found under its name, with the tensor that its facts make, and
every operator of the predict net has a flat operator that reads these tensors.
-/

namespace NetLowering

open Checked

/-! ## Orders -/

/-- Some operator of the net has an argument `order` that reads so. -/
def Net.StatesOrder (net : Net) (order : String) : Prop :=
  ∃ operator ∈ net.operators, ∃ argument ∈ operator.arguments, argument.name = some "order" ∧
    ∃ value, argument.value = .ok value ∧ value.latin? = some order

theorem Layout.ofOrders_channelFirst_iff {orders : List Argument} {layout : Layout}
    (hlayout : ofOrders orders = .ok layout) :
    layout = .channelFirst ↔
      ∃ argument ∈ orders, ∃ value, argument.value = .ok value ∧ value.latin? = some "NCHW" := by
  induction orders with
  | nil =>
      cases hlayout
      simp
  | cons argument orders ih =>
      rw [ofOrders, bind_eq_ok_iff] at hlayout
      obtain ⟨value, hvalue, hlayout⟩ := hlayout
      by_cases hfirst : value.latin? = some "NCHW"
      · rw [if_pos hfirst, pure_eq_ok_iff] at hlayout
        rw [hlayout]
        exact iff_of_true rfl ⟨argument, by simp, value, hvalue, hfirst⟩
      · rw [if_neg hfirst] at hlayout
        rw [ih hlayout]
        simp [hvalue, hfirst]

theorem Net.layout_channelFirst_iff {net : Net} {layout : Layout}
    (hlayout : net.layout = .ok layout) :
    layout = .channelFirst ↔ net.StatesOrder "NCHW" := by
  rw [Layout.ofOrders_channelFirst_iff hlayout, StatesOrder]
  simp only [orders, List.mem_flatMap, List.mem_filter, beq_iff_eq]
  constructor
  · rintro ⟨argument, ⟨operator, hoperator, hargument, hname⟩, hreads⟩
    exact ⟨operator, hoperator, argument, hargument, hname, hreads⟩
  · rintro ⟨operator, hoperator, argument, hargument, hname, hreads⟩
    exact ⟨argument, ⟨operator, hoperator, hargument, hname⟩, hreads⟩

/-! ## Initializers and operators -/

namespace FlatNet

variable {options : LoadOptions}

/-- No initializer takes the place of another. -/
theorem find?_of_addInitializers {layout : Layout} {operators : List NetOperator}
    {start table : Table String Tensor}
    (hrun : operators.foldlM (addInitializer options layout) start = .ok table) :
    (∀ name tensor, start.find? name = some tensor → table.find? name = some tensor) ∧
      ∀ operator ∈ operators, ∃ tensor, Tensor.ofInitializer options layout operator = .ok tensor ∧
        table.find? tensor.name = some tensor := by
  induction operators generalizing start with
  | nil =>
      rw [List.foldlM_nil, pure_eq_ok_iff] at hrun
      rw [hrun]
      exact ⟨fun _ _ => id, by simp⟩
  | cons operator operators ih =>
      rw [List.foldlM_cons, bind_eq_ok_iff] at hrun
      obtain ⟨next, hadded, hrest⟩ := hrun
      rw [addInitializer, bind_eq_ok_iff] at hadded
      obtain ⟨tensor, htensor, hadded⟩ := hadded
      rw [check_eq_ok_iff, pure_eq_ok_iff, Table.not_contains_iff] at hadded
      obtain ⟨hfresh, rfl⟩ := hadded
      obtain ⟨hkept, hlater⟩ := ih hrest
      constructor
      · intro name found hfound
        exact hkept name found (Table.find?_insert_of_some hfresh hfound)
      · intro other hother
        rcases List.mem_cons.mp hother with rfl | hrestMem
        · exact ⟨tensor, htensor, hkept _ _ (by simp [Table.find?_insert])⟩
        · exact hlater other hrestMem

theorem join_eq_ok_iff {predict init : Net} {net : FlatNet} :
    join options predict init = .ok net ↔
      init.layout = .ok net.initLayout ∧ predict.layout = .ok net.predictLayout ∧
        init.operators.foldlM (addInitializer options net.initLayout) ∅ =
          .ok net.initializers ∧
        predict.operators.mapM (FlatOp.ofOperator net.predictLayout net.initializers) =
          .ok net.operators := by
  simp only [join, bind_eq_ok_iff, pure_eq_ok_iff]
  constructor
  · rintro ⟨initLayout, hinit, predictLayout, hpredict, initializers, hinitializers, operators,
      hoperators, rfl⟩
    exact ⟨hinit, hpredict, hinitializers, hoperators⟩
  · rintro ⟨hinit, hpredict, hinitializers, hoperators⟩
    exact ⟨_, hinit, _, hpredict, _, hinitializers, _, hoperators, rfl⟩

/-- The parts of a joined net, each with what it was read from. -/
structure Joins (options : LoadOptions) (predict init : Net) (net : FlatNet) : Prop where
  initLayout : init.layout = .ok net.initLayout
  predictLayout : predict.layout = .ok net.predictLayout
  initializers : ∀ operator ∈ init.operators, ∃ tensor,
    Tensor.ofInitializer options net.initLayout operator = .ok tensor ∧
      net.initializers.find? tensor.name = some tensor
  operators : ∀ operator ∈ predict.operators, ∃ flat ∈ net.operators,
    FlatOp.ofOperator net.predictLayout net.initializers operator = .ok flat

theorem joins_of_join {predict init : Net} {net : FlatNet}
    (hjoin : join options predict init = .ok net) : net.Joins options predict init := by
  obtain ⟨hinit, hpredict, hinitializers, hoperators⟩ := join_eq_ok_iff.mp hjoin
  exact ⟨hinit, hpredict, (find?_of_addInitializers hinitializers).2,
    fun _ hoperator => exists_of_mapM hoperators hoperator⟩

end FlatNet

theorem FlatOp.ofOperator_eq_ok {layout : Layout} {initializers : Table String Tensor}
    {operator : NetOperator} {flat : FlatOp}
    (hread : ofOperator layout initializers operator = .ok flat) :
    flat.type = operator.type.getD "" ∧
      (flat.inputs = operator.inputs.map fun name =>
        (initializers.find? name).getD (.named name)) ∧
      flat.outputs = operator.outputs := by
  simp only [ofOperator, bind_eq_ok_iff, pure_eq_ok_iff] at hread
  obtain ⟨_, -, rfl⟩ := hread
  exact ⟨rfl, rfl, rfl⟩

end NetLowering
