import NetLowering.Proofs.Lowering.Filters
import NetLowering.Proofs.Matches

/-!
# Graphs under other names

Tensor names are only ever compared with one another.  So every step that assembles
a graph commutes with a renaming that keeps different names apart, in what it leads to
and in whether it is refused: a layer with other names is added to a graph with other
names just as the layer itself is added to the graph (`Graph.maps_addLayer`).
-/

namespace NetLowering

open Checked

variable {rename : String → String}

def Tensor.renamed (rename : String → String) (tensor : Tensor) : Tensor :=
  { tensor with name := rename tensor.name }

def Operand.renamed (rename : String → String) (operand : Operand) : Operand :=
  { operand with name := operand.name.map rename }

def Param.renamed (rename : String → String) (param : Param) : Param :=
  { param with name := param.name.map rename }

/-- The graph with its operands and its table under other names. -/
def Graph.renamed (rename : String → String) (graph : Graph) : Graph :=
  { graph with
    operands := graph.operands.map (Operand.renamed rename)
    tensorIds := graph.tensorIds.mapKeys rename }

@[simp] theorem Operand.renamed_id : Operand.renamed id = id := by
  funext operand
  rw [renamed, Option.map_id_fun]
  rfl

/-- The second layer is the first one under other names. -/
structure Layer.Renames (rename : String → String) (layer other : Layer) : Prop where
  code : other.code = layer.code
  input : other.input = layer.input
  params : other.params = layer.params.map (Param.renamed rename)
  output : Maps (fun output => (rename output.1, output.2)) layer.output other.output

theorem Axes.matches_ofDims (name other : String) (dims : List UInt32) :
    Matches Eq (ofDims name dims) (ofDims other dims) :=
  matches_eq_of_ok_iff fun _ => ofDims_eq_ok_iff.trans ofDims_eq_ok_iff.symm

namespace Graph

variable {graph : Graph}

theorem renamed_id (graph : Graph) : graph.renamed id = graph := by
  rw [renamed, Operand.renamed_id, List.map_id, Table.mapKeys_id]

/-! ## Readings -/

@[simp] theorem length_operands_renamed (graph : Graph) :
    (graph.renamed rename).operands.length = graph.operands.length :=
  List.length_map _

@[simp] theorem nextId_renamed (graph : Graph) :
    (graph.renamed rename).nextId = graph.nextId := by
  rw [nextId, nextId, length_operands_renamed]

@[simp] theorem nextIds_renamed (graph : Graph) (count : Nat) :
    (graph.renamed rename).nextIds count = graph.nextIds count := by
  rw [nextIds, nextIds, length_operands_renamed]

theorem operand?_renamed (graph : Graph) (id : OperandId) :
    (graph.renamed rename).operand? id = (graph.operand? id).map (Operand.renamed rename) := by
  rw [operand?, operand?]
  split
  · rfl
  · exact List.getElem?_map

@[simp] theorem contains_renamed (graph : Graph) (id : OperandId) :
    (graph.renamed rename).contains id = graph.contains id := by
  rw [contains, contains, operand?_renamed, Option.isSome_map]

@[simp] theorem typeOf_renamed (graph : Graph) (id : OperandId) :
    (graph.renamed rename).typeOf id = graph.typeOf id := by
  rw [typeOf, typeOf, operand?_renamed]
  cases graph.operand? id <;> rfl

theorem unknown?_renamed (graph : Graph) :
    (graph.renamed rename).unknown? = graph.unknown? := by
  simp only [unknown?, contains_renamed]
  rfl

variable (hinjective : Function.Injective rename)

include hinjective

theorem find?_renamed (graph : Graph) (name : String) :
    (graph.renamed rename).tensorIds.find? (rename name) = graph.tensorIds.find? name :=
  Table.find?_mapKeys hinjective graph.tensorIds name

theorem matches_resolve (graph : Graph) (name : String) :
    Matches Eq (graph.resolve name) ((graph.renamed rename).resolve (rename name)) := by
  rw [resolve, resolve, find?_renamed hinjective]
  cases graph.tensorIds.find? name with
  | none => exact .refused _ _
  | some id => exact .done rfl

theorem matches_feed (graph : Graph) (tensor : Tensor) :
    Matches Eq (graph.feed tensor) ((graph.renamed rename).feed (tensor.renamed rename)) := by
  rw [feed, feed]
  refine (matches_resolve hinjective graph tensor.name).bind_eq fun id => ?_
  rw [typeOf_renamed]
  refine (matches_self _).bind_eq fun type => ?_
  exact (Axes.matches_ofDims tensor.name (rename tensor.name) type.dims).bind_eq
    fun axes => .done rfl

/-! ## Steps -/

theorem maps_nameAs (graph : Graph) (name : String) (id : OperandId) :
    Maps (renamed rename) (graph.nameAs name id)
      ((graph.renamed rename).nameAs (rename name) id) := by
  refine matches_of_accepts (fun _ => nameAs_eq_ok_iff) (fun _ => nameAs_eq_ok_iff) ?_ ?_
  · rw [find?_renamed hinjective]
  · simp only [renamed, Table.mapKeys_insert hinjective]

theorem maps_addTensor (graph : Graph) (name : String) (type : OperandType) :
    Maps (renamed rename) (graph.addTensor name type none)
      ((graph.renamed rename).addTensor (rename name) type none) := by
  have hadded (graph next : Graph) (name : String) :
      graph.addTensor name type none = .ok next ↔ graph.tensorIds.find? name = none ∧
        next = { graph.push ⟨some name, type⟩ with
          tensorIds := graph.tensorIds.insert name graph.nextId } := by
    rw [addTensor_eq_ok_iff, addOperand]
    simp only [Except.ok.injEq, exists_eq_left']
    rfl
  refine matches_of_accepts (hadded graph · name) (hadded _ · (rename name)) ?_ ?_
  · rw [find?_renamed hinjective]
  · simp only [renamed, push, Table.mapKeys_insert hinjective, List.map_append, nextId,
      List.length_map]
    rfl

omit hinjective in
theorem maps_addOperation (graph : Graph) (operation : Operation) :
    Maps (renamed rename) (graph.addOperation operation)
      ((graph.renamed rename).addOperation operation) := by
  refine matches_of_accepts (fun _ => addOperation_eq_ok_iff) (fun _ => addOperation_eq_ok_iff)
    ?_ rfl
  simp only [contains_renamed]

theorem admits_renamed_iff {param : Param} :
    (graph.renamed rename).Admits (param.renamed rename) ↔ graph.Admits param := by
  have hnames : (∀ name, (param.renamed rename).name = some name →
        (graph.renamed rename).tensorIds.find? name = none) ↔
      ∀ name, param.name = some name → graph.tensorIds.find? name = none := by
    simp only [Param.renamed, Option.map_eq_some_iff, forall_exists_index, and_imp,
      forall_apply_eq_imp_iff₂, find?_renamed hinjective]
  constructor
  · rintro ⟨helements, hname, hvalue, hquant⟩
    rw [nextId_renamed] at hvalue hquant
    exact ⟨helements, hnames.mp hname, hvalue, hquant⟩
  · rintro ⟨helements, hname, hvalue, hquant⟩
    refine ⟨helements, hnames.mpr hname, ?_, ?_⟩ <;> rw [nextId_renamed]
    · exact hvalue
    · exact hquant

theorem renamed_withParam (graph : Graph) (param : Param) :
    (graph.renamed rename).withParam (param.renamed rename) =
      (graph.withParam param).renamed rename := by
  rcases param with ⟨name, type, value, quant⟩
  cases name <;>
    simp [withParam, renamed, Param.renamed, Operand.renamed, Table.mapKeys_insert hinjective]

theorem maps_addParam (graph : Graph) (param : Param) :
    Maps (renamed rename) (graph.addParam param)
      ((graph.renamed rename).addParam (param.renamed rename)) :=
  matches_of_accepts (fun _ => addParam_eq_ok_iff) (fun _ => addParam_eq_ok_iff)
    (admits_renamed_iff hinjective) (renamed_withParam hinjective graph param)

/-! ## Layers -/

theorem maps_addParams (graph : Graph) (params : List Param) :
    Maps (renamed rename) (params.foldlM addParam graph)
      ((params.map (Param.renamed rename)).foldlM addParam (graph.renamed rename)) := by
  refine Matches.foldlM ?_ (forall₂_map_self (Param.renamed rename) params) rfl
  rintro middle _ param _ rfl rfl
  exact maps_addParam hinjective middle param

/-- A layer under other names is added to a graph under other names just as it is. -/
theorem maps_addLayer {layer other : Layer} (hlayer : layer.Renames rename other) (graph : Graph) :
    Maps (renamed rename) (graph.addLayer layer) ((graph.renamed rename).addLayer other) := by
  rw [addLayer, addLayer, hlayer.params, hlayer.code, hlayer.input]
  refine (maps_addParams hinjective graph layer.params).bind fun withParams => ?_
  refine hlayer.output.bind fun output => ?_
  obtain ⟨name, type⟩ := output
  refine (maps_addTensor hinjective withParams name type).bind fun withOutput => ?_
  rw [nextIds_renamed, nextId_renamed, List.length_map]
  exact maps_addOperation withOutput _

end Graph

/-! ## Filters and biases -/

namespace Tensor

variable (rename)

theorem matches_requireDims (tensor : Tensor) :
    Matches Eq tensor.requireDims (tensor.renamed rename).requireDims := by
  refine matches_eq_of_ok_iff fun _ => ?_
  rw [requireDims_eq_ok_iff, requireDims_eq_ok_iff]
  rfl

theorem matches_requireData (tensor : Tensor) :
    Matches Eq tensor.requireData (tensor.renamed rename).requireData := by
  refine matches_eq_of_ok_iff fun _ => ?_
  rw [requireData_eq_ok_iff, requireData_eq_ok_iff]
  rfl

theorem matches_requireScale (tensor : Tensor) :
    Matches Eq tensor.requireScale (tensor.renamed rename).requireScale := by
  have hscales : (tensor.renamed rename).scales? = tensor.scales? := rfl
  rw [requireScale, requireScale, hscales]
  cases (tensor.scales?.getD []).head? with
  | none => exact .refused _ _
  | some scale => exact .done rfl

theorem matches_requireZeroPoint (tensor : Tensor) :
    Matches Eq tensor.requireZeroPoint (tensor.renamed rename).requireZeroPoint := by
  have hzero : (tensor.renamed rename).zeroPoint? = tensor.zeroPoint? := rfl
  rw [requireZeroPoint, requireZeroPoint, hzero]
  cases tensor.zeroPoint? with
  | none => exact .refused _ _
  | some zeroPoint => exact .done rfl

end Tensor

namespace Filter

theorem matches_repack (name other : String) (group : Int32) (dims : List UInt32)
    (values : Buffer) :
    Matches Eq (repack name group dims values) (repack other group dims values) := by
  rw [repack, repack]
  refine (Axes.matches_ofDims name other dims).bind_eq fun axes => ?_
  refine matches_ite (fun _ => .refused _ _) fun _ => ?_
  exact (matches_self _).mapError.bind_eq fun repacked => .done rfl

theorem matches_type (filter : Filter) (options : LoweringOptions) (tensor : Tensor)
    (input : OperandCode) : Matches Eq (filter.type options tensor input)
      (filter.type options (tensor.renamed rename) input) := by
  rw [Filter.type, Filter.type]
  refine matches_ite (fun _ => .done rfl) fun _ => ?_
  refine matches_ite (fun _ => ?_) fun _ => .done rfl
  refine (tensor.matches_requireScale rename).bind_eq fun scale => ?_
  exact (tensor.matches_requireZeroPoint rename).bind_eq fun zeroPoint => .done rfl

theorem maps_param (filter : Filter) (options : LoweringOptions) (tensor : Tensor)
    (input : OperandCode) : Maps (Param.renamed rename) (filter.param options tensor input)
      (filter.param options (tensor.renamed rename) input) :=
  (filter.matches_type options tensor input).bind_eq fun _ => .done rfl

end Filter

namespace Bias

def renamed (rename : String → String) (bias : Bias) : Bias :=
  { bias with param := bias.param.renamed rename }

theorem matches_type (options : LoweringOptions) (tensor filter : Tensor) (dims : List UInt32) :
    Matches Eq (type options tensor filter dims)
      (type options (tensor.renamed rename) (filter.renamed rename) dims) := by
  rw [Bias.type, Bias.type]
  refine matches_ite (fun _ => .done rfl) fun _ => ?_
  refine matches_ite (fun _ => .done rfl) fun _ => ?_
  exact (tensor.matches_requireScale rename).bind_eq fun scale => .done rfl

theorem maps_ofTensor (options : LoweringOptions) (tensor filter : Tensor) :
    Maps (renamed rename) (ofTensor options tensor filter)
      (ofTensor options (tensor.renamed rename) (filter.renamed rename)) := by
  rw [ofTensor, ofTensor]
  refine (tensor.matches_requireDims rename).bind_eq fun dims => ?_
  refine (tensor.matches_requireData rename).bind_eq fun values => ?_
  cases dims.head? with
  | none => exact .refused _ _
  | some channels => exact (matches_type options tensor filter dims).bind_eq fun type => .done rfl

end Bias

end NetLowering
