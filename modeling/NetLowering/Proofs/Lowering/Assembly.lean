import Mathlib.Data.List.Basic
import NetLowering.Lowering.Assembly
import NetLowering.Proofs.Checked
import NetLowering.Proofs.Table

/-!
# What assembling a graph does

One law for each step: when it is accepted, and which graph it leads to.  A
parameter adds one operand, bound and named (`addParam_eq_ok_iff`); a layer
adds its parameters, then one operand and one operation that writes it
(`addLayer_eq_ok_iff`).
-/

namespace NetLowering.Graph

open Checked

variable {graph next : Graph}

/-! ## Identifiers -/

@[simp] theorem nextId_eq (graph : Graph) : graph.nextId = .own graph.operands.length := rfl

theorem contains_iff {id : OperandId} :
    graph.contains id = true ↔ id.foreign = false ∧ id.index < graph.operands.length := by
  cases id with
  | mk index isForeign =>
      cases isForeign <;> simp [contains, operand?]

theorem resolve_eq_ok_iff {name : String} {id : OperandId} :
    graph.resolve name = .ok id ↔ graph.tensorIds.find? name = some id := by
  rw [resolve]
  cases graph.tensorIds.find? name <;> simp

theorem typeOf_eq_ok_iff {id : OperandId} {type : OperandType} :
    graph.typeOf id = .ok type ↔
      ∃ operand, graph.operand? id = some operand ∧ operand.type = type := by
  rw [typeOf]
  cases graph.operand? id <;> simp

/-! ## Single steps -/

theorem nameAs_eq_ok_iff {name : String} {id : OperandId} :
    graph.nameAs name id = .ok next ↔
      graph.tensorIds.find? name = none ∧
        next = { graph with tensorIds := graph.tensorIds.insert name id } := by
  simp only [nameAs, check_eq_ok_iff, pure_eq_ok_iff, Table.not_contains_iff]

theorem bindValue_eq_ok_iff {id : OperandId} {value : Buffer} :
    graph.bindValue id value = .ok next ↔
      ∃ operand, graph.operand? id = some operand ∧
        operand.type.elements = value.size ∧ graph.values.find? id = none ∧
        next = { graph with values := graph.values.insert id value } := by
  rw [bindValue]
  cases hoperand : graph.operand? id with
  | none => simp [throw, throwThe, MonadExceptOf.throw]
  | some operand =>
      simp only [check_eq_ok_iff, pure_eq_ok_iff, Table.not_contains_iff, ne_eq,
        not_not, Option.some.injEq, exists_eq_left']

theorem bindChannelQuant_eq_ok_iff {id : OperandId} {quant : ChannelQuant} :
    graph.bindChannelQuant id quant = .ok next ↔
      graph.contains id = true ∧ graph.channelQuants.find? id = none ∧
        next = { graph with channelQuants := graph.channelQuants.insert id quant } := by
  simp only [bindChannelQuant, check_eq_ok_iff, pure_eq_ok_iff, Table.not_contains_iff,
    Bool.not_eq_true', Bool.not_eq_false]

theorem operand?_push_nextId (graph : Graph) (operand : Operand) :
    (graph.push operand).operand? graph.nextId = some operand := by
  simp [operand?, push, OperandId.own]

theorem addOperand_eq_ok_iff {operand : Operand} {value : Buffer} :
    graph.addOperand operand (some value) = .ok next ↔
      operand.type.elements = value.size ∧ graph.values.find? graph.nextId = none ∧
        next = { graph with
          operands := graph.operands ++ [operand]
          values := graph.values.insert graph.nextId value } := by
  rw [addOperand, bindValue_eq_ok_iff]
  simp only [operand?_push_nextId, Option.some.injEq, exists_eq_left']
  rfl

theorem addTensor_eq_ok_iff {name : String} {type : OperandType} {value : Option Buffer} :
    graph.addTensor name type value = .ok next ↔
      graph.tensorIds.find? name = none ∧
        ∃ extended, graph.addOperand ⟨some name, type⟩ value = .ok extended ∧
          next = { extended with
            tensorIds := extended.tensorIds.insert name graph.nextId } := by
  simp only [addTensor, check_eq_ok_iff, bind_eq_ok_iff, pure_eq_ok_iff, Table.not_contains_iff]

theorem addOperation_eq_ok_iff {operation : Operation} :
    graph.addOperation operation = .ok next ↔
      (∀ id ∈ operation.inputs ++ operation.outputs, graph.contains id = true) ∧
        next = graph.withOperation operation := by
  rw [addOperation]
  cases hfind : (operation.inputs ++ operation.outputs).find? fun id => !graph.contains id with
  | none =>
      have hknown : ∀ id ∈ operation.inputs ++ operation.outputs, graph.contains id = true := by
        intro id hid
        simpa using List.find?_eq_none.mp hfind id hid
      simp only [Except.ok.injEq]
      exact ⟨fun hnext => ⟨hknown, hnext.symm⟩, fun hnext => hnext.2.symm⟩
  | some id =>
      have hunknown := List.find?_some hfind
      simp only [reduceCtorEq, false_iff, not_and]
      intro hknown
      simp [hknown id (List.mem_of_find?_eq_some hfind)] at hunknown

/-! ## Parameters -/

def withParam (graph : Graph) (param : Param) : Graph :=
  { graph with
    operands := graph.operands ++ [⟨param.name, param.type⟩]
    values := graph.values.insert graph.nextId param.value
    channelQuants := param.channelQuant.elim graph.channelQuants
      (graph.channelQuants.insert graph.nextId)
    tensorIds := param.name.elim graph.tensorIds (graph.tensorIds.insert · graph.nextId) }

/-- What `addParam` asks of a parameter. -/
structure Admits (graph : Graph) (param : Param) : Prop where
  elements : param.type.elements = param.value.size
  newName : ∀ name, param.name = some name → graph.tensorIds.find? name = none
  newValue : graph.values.find? graph.nextId = none
  newQuant : param.channelQuant.isSome → graph.channelQuants.find? graph.nextId = none

private theorem admits_iff {param : Param} :
    graph.Admits param ↔
      (param.type.elements = param.value.size ∧ graph.values.find? graph.nextId = none) ∧
        (∀ name, param.name = some name → graph.tensorIds.find? name = none) ∧
        (param.channelQuant.isSome → graph.channelQuants.find? graph.nextId = none) :=
  ⟨fun h => ⟨⟨h.elements, h.newValue⟩, h.newName, h.newQuant⟩,
    fun h => ⟨h.1.1, h.2.1, h.1.2, h.2.2⟩⟩

theorem addParam_eq_ok_iff {param : Param} :
    graph.addParam param = .ok next ↔ graph.Admits param ∧ next = graph.withParam param := by
  rw [admits_iff]
  rcases param with ⟨name, type, value, quant⟩
  cases name <;> cases quant <;>
    simp [addParam, bind_eq_ok_iff, addTensor_eq_ok_iff, addOperand_eq_ok_iff,
      bindChannelQuant_eq_ok_iff, contains_iff, OperandId.own, withParam] <;>
    tauto

theorem eq_foldl_of_addParams {params : List Param}
    (hadded : params.foldlM addParam graph = .ok next) :
    next = params.foldl withParam graph := by
  induction params generalizing graph with
  | nil => simpa [pure_eq_ok_iff] using hadded
  | cons param params ih =>
      rw [List.foldlM_cons, bind_eq_ok_iff] at hadded
      obtain ⟨middle, hparam, hrest⟩ := hadded
      obtain ⟨-, rfl⟩ := addParam_eq_ok_iff.mp hparam
      exact ih hrest

theorem operands_foldl_withParam (params : List Param) (graph : Graph) :
    (params.foldl withParam graph).operands =
      graph.operands ++ params.map fun param => ⟨param.name, param.type⟩ := by
  induction params generalizing graph with
  | nil => simp
  | cons param params ih => simp [ih, withParam]

theorem operations_foldl_withParam (params : List Param) (graph : Graph) :
    (params.foldl withParam graph).operations = graph.operations := by
  induction params generalizing graph with
  | nil => rfl
  | cons param params ih => simp [ih, withParam]

theorem required_foldl_withParam (params : List Param) (graph : Graph) :
    (params.foldl withParam graph).required = graph.required := by
  induction params generalizing graph with
  | nil => rfl
  | cons param params ih => simp [ih, withParam]

theorem channelQuants_foldl_withParam {params : List Param}
    (hplain : ∀ param ∈ params, param.channelQuant = none) (graph : Graph) :
    (params.foldl withParam graph).channelQuants = graph.channelQuants := by
  induction params generalizing graph with
  | nil => rfl
  | cons param params ih =>
      rw [List.forall_mem_cons] at hplain
      rw [List.foldl_cons, ih hplain.2, withParam, hplain.1]
      rfl

/-! ## Layers -/

/-- The graph with one operation more and the operand that it writes. -/
def withResult (graph : Graph) (name : String) (type : OperandType) (operation : Operation) :
    Graph :=
  { graph with
    operands := graph.operands ++ [⟨some name, type⟩]
    operations := graph.operations ++ [operation]
    required := graph.required.insert operation.code
    tensorIds := graph.tensorIds.insert name graph.nextId }

theorem mem_nextIds_iff {count : Nat} {id : OperandId} :
    id ∈ graph.nextIds count ↔
      ∃ index, graph.operands.length ≤ index ∧ index < graph.operands.length + count ∧
        id = .own index := by
  simp [nextIds, List.mem_range'_1, and_assoc, eq_comm]

theorem addLayer_eq_ok_iff {layer : Layer} :
    graph.addLayer layer = .ok next ↔
      ∃ withParams name type,
        layer.params.foldlM addParam graph = .ok withParams ∧
        layer.output = .ok (name, type) ∧
        withParams.tensorIds.find? name = none ∧
        (∀ id ∈ layer.input :: graph.nextIds layer.params.length ++ [withParams.nextId],
          id.foreign = false ∧ id.index ≤ withParams.operands.length) ∧
        next = withParams.withResult name type {
          code := layer.code
          inputs := layer.input :: graph.nextIds layer.params.length
          outputs := [withParams.nextId] } := by
  simp only [addLayer, bind_eq_ok_iff, Prod.exists, addTensor_eq_ok_iff,
    addOperation_eq_ok_iff, addOperand, push]
  constructor
  · rintro ⟨withParams, hparams, name, type, houtput, _, ⟨hname, _, hextended, rfl⟩, hknown, hnext⟩
    cases hextended
    refine ⟨withParams, name, type, hparams, houtput, hname, ?_, hnext⟩
    intro id hid
    have := contains_iff.mp (hknown id hid)
    simpa [Nat.lt_succ_iff] using this
  · rintro ⟨withParams, name, type, hparams, houtput, hname, hknown, hnext⟩
    refine ⟨withParams, hparams, name, type, houtput, _, ⟨hname, _, rfl, rfl⟩, ?_, hnext⟩
    intro id hid
    rw [contains_iff]
    simpa [Nat.lt_succ_iff] using hknown id hid

end NetLowering.Graph
