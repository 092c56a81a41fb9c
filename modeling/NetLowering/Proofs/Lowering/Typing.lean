import NetLowering.Proofs.Emission.Acceptance
import NetLowering.Proofs.Lowering.Filters
import NetLowering.Proofs.Lowering.Growth

/-!
# Which nets have well-typed graphs

Lowering counts the values of an operand, and leaves it to the backend to find out
whether they are of a type that the operand takes and whether there is one scale
for every channel.  The graph of a net is well typed just when the filters and the
biases of its convolutions are: no other operator binds anything but scalars of its
own making.
-/

namespace NetLowering

open Checked

/-! ## Bindings -/

namespace Graph

variable {α : Type} {graph : Graph} {table : Table OperandId α} {Takes : OperandType → α → Prop}

/-- Whatever the table holds is for an operand of the graph that takes it. -/
def Binds (graph : Graph) (table : Table OperandId α) (Takes : OperandType → α → Prop) : Prop :=
  ∀ id value, table.find? id = some value →
    ∃ operand, graph.operand? id = some operand ∧ Takes operand.type value

theorem operand?_nextId (graph : Graph) : graph.operand? graph.nextId = none := by
  simp [operand?, OperandId.own]

theorem binds_push_iff (hbound : graph.Binds table fun _ _ => True) (last : Operand) :
    (graph.push last).Binds table Takes ↔ graph.Binds table Takes := by
  refine forall₃_congr fun id value hfound => ?_
  obtain ⟨operand, hoperand, -⟩ := hbound id value hfound
  rw [hoperand, (extends_push last).operand? hoperand]

theorem find?_nextId_of_binds (hbound : graph.Binds table fun _ _ => True) :
    table.find? graph.nextId = none := by
  rw [Option.eq_none_iff_forall_ne_some]
  intro value hfound
  obtain ⟨operand, hoperand, -⟩ := hbound _ value hfound
  rw [operand?_nextId] at hoperand
  cases hoperand

theorem binds_insert_iff (hbound : graph.Binds table fun _ _ => True) (last : Operand) (value : α) :
    (graph.push last).Binds (table.insert graph.nextId value) Takes ↔
      graph.Binds table Takes ∧ Takes last.type value := by
  rw [← binds_push_iff hbound last]
  have hfresh := find?_nextId_of_binds hbound
  constructor
  · intro hall
    refine ⟨fun id other hfound => hall id other (Table.find?_insert_of_some hfresh hfound), ?_⟩
    obtain ⟨operand, hoperand, htakes⟩ := hall graph.nextId value (by simp [Table.find?_insert])
    rw [operand?_push_nextId] at hoperand
    cases hoperand
    exact htakes
  · rintro ⟨hall, htakes⟩ id other hfound
    rw [Table.find?_insert] at hfound
    split at hfound
    · rename_i hid
      cases hfound
      exact ⟨last, hid ▸ operand?_push_nextId graph last, htakes⟩
    · exact hall id other hfound

theorem Binds.imp {Others : OperandType → α → Prop} (hbinds : graph.Binds table Takes)
    (himp : ∀ type value, Takes type value → Others type value) : graph.Binds table Others := by
  intro id value hfound
  obtain ⟨operand, hoperand, htakes⟩ := hbinds id value hfound
  exact ⟨operand, hoperand, himp _ _ htakes⟩

theorem fits_iff_binds : graph.Fits ↔
    graph.Binds graph.values OperandType.TakesValue ∧
      graph.Binds graph.channelQuants OperandType.TakesQuant :=
  ⟨fun hfits => ⟨hfits.values, hfits.quants⟩, fun hbinds => ⟨hbinds.1, hbinds.2⟩⟩

/-- Every value has the size of its operand, and there are scales for operands only. -/
structure Measured (graph : Graph) : Prop where
  values : graph.Binds graph.values fun type value => type.elements = value.size
  quants : graph.Binds graph.channelQuants fun _ _ => True

theorem Measured.known (hmeasured : graph.Measured) : graph.Binds graph.values fun _ _ => True :=
  hmeasured.values.imp fun _ _ _ => trivial

end Graph

/-! ## Parameters -/

/-- What a parameter binds is of a type that its operand takes. -/
structure Param.Suits (param : Param) : Prop where
  value : param.type.code.accepts param.value.elemType = true
  quant : ∀ quant, param.channelQuant = some quant → param.type.TakesQuant quant

theorem Param.suits_int (number : Int32) : (Param.int number).Suits := ⟨rfl, by simp [Param.int]⟩

theorem Param.suits_single (number : Single) : (Param.single number).Suits :=
  ⟨rfl, by simp [Param.single]⟩

namespace Graph

variable {graph next : Graph}

theorem Measured.withParam {param : Param} (hmeasured : graph.Measured)
    (hadmits : graph.Admits param) : (graph.withParam param).Measured := by
  refine ⟨(binds_insert_iff hmeasured.known _ _).mpr ⟨hmeasured.values, hadmits.elements⟩, ?_⟩
  cases hquant : param.channelQuant with
  | none =>
      rw [Graph.withParam, hquant]
      exact (binds_push_iff hmeasured.quants _).mpr hmeasured.quants
  | some quant =>
      rw [Graph.withParam, hquant]
      exact (binds_insert_iff hmeasured.quants _ _).mpr ⟨hmeasured.quants, trivial⟩

theorem fits_withParam_iff {param : Param} (hmeasured : graph.Measured)
    (hadmits : graph.Admits param) :
    (graph.withParam param).Fits ↔ graph.Fits ∧ param.Suits := by
  have hvalues : (graph.withParam param).Binds (graph.withParam param).values
      OperandType.TakesValue ↔ graph.Binds graph.values OperandType.TakesValue ∧
        param.type.TakesValue param.value := binds_insert_iff hmeasured.known _ _
  have hquants : (graph.withParam param).Binds (graph.withParam param).channelQuants
      OperandType.TakesQuant ↔ graph.Binds graph.channelQuants OperandType.TakesQuant ∧
        ∀ quant, param.channelQuant = some quant → param.type.TakesQuant quant := by
    cases hquant : param.channelQuant with
    | none =>
        simp only [Graph.withParam, hquant, Option.elim]
        refine (binds_push_iff hmeasured.quants _).trans ?_
        simp
    | some quant =>
        simp only [Graph.withParam, hquant, Option.elim]
        refine (binds_insert_iff hmeasured.quants _ _).trans ?_
        simp
  have hsize : param.type.TakesValue param.value ↔
      param.type.code.accepts param.value.elemType = true :=
    ⟨fun htakes => htakes.1,
      fun haccepts => OperandType.takesValue_iff.mpr ⟨haccepts, hadmits.elements.symm⟩⟩
  rw [fits_iff_binds, fits_iff_binds, hvalues, hquants, hsize]
  constructor
  · rintro ⟨⟨hbefore, hvalue⟩, hquantsBefore, hquant⟩
    exact ⟨⟨hbefore, hquantsBefore⟩, hvalue, hquant⟩
  · rintro ⟨⟨hbefore, hquantsBefore⟩, hvalue, hquant⟩
    exact ⟨⟨hbefore, hvalue⟩, hquantsBefore, hquant⟩

theorem fits_addParams_iff {params : List Param} (hmeasured : graph.Measured)
    (hadded : params.foldlM addParam graph = .ok next) :
    next.Measured ∧ (next.Fits ↔ graph.Fits ∧ ∀ param ∈ params, param.Suits) := by
  induction params generalizing graph with
  | nil =>
      rw [List.foldlM_nil, pure_eq_ok_iff] at hadded
      rw [hadded]
      exact ⟨hmeasured, by simp⟩
  | cons param params ih =>
      rw [List.foldlM_cons, bind_eq_ok_iff] at hadded
      obtain ⟨middle, hparam, hrest⟩ := hadded
      obtain ⟨hadmits, rfl⟩ := addParam_eq_ok_iff.mp hparam
      obtain ⟨hnext, hfits⟩ := ih (hmeasured.withParam hadmits) hrest
      refine ⟨hnext, ?_⟩
      rw [hfits, fits_withParam_iff hmeasured hadmits, List.forall_mem_cons, and_assoc]

/-! ## Layers -/

theorem Measured.withResult {name : String} {type : OperandType} {operation : Operation}
    (hmeasured : graph.Measured) : (graph.withResult name type operation).Measured :=
  ⟨(binds_push_iff hmeasured.known _).mpr hmeasured.values,
    (binds_push_iff hmeasured.quants _).mpr hmeasured.quants⟩

theorem fits_withResult_iff {name : String} {type : OperandType} {operation : Operation}
    (hmeasured : graph.Measured) :
    (graph.withResult name type operation).Fits ↔ graph.Fits := by
  rw [fits_iff_binds, fits_iff_binds]
  exact and_congr (binds_push_iff hmeasured.known _) (binds_push_iff hmeasured.quants _)

theorem fits_addLayer_iff {layer : Layer} (hmeasured : graph.Measured)
    (hadded : graph.addLayer layer = .ok next) :
    next.Measured ∧ (next.Fits ↔ graph.Fits ∧ ∀ param ∈ layer.params, param.Suits) := by
  obtain ⟨withParams, name, type, hparams, -, -, -, rfl⟩ := addLayer_eq_ok_iff.mp hadded
  obtain ⟨hwithParams, hfits⟩ := fits_addParams_iff hmeasured hparams
  exact ⟨hwithParams.withResult, (fits_withResult_iff hwithParams).trans hfits⟩

end Graph

/-! ## Convolutions -/

namespace Tensor

/-- The values are of a type that the filter's operand takes, and there is one scale for every
output channel if there is more than one. -/
structure FilterTyped (tensor : Tensor) (input : OperandCode) (group : Int32) : Prop where
  values : ∃ values, tensor.data? = some values ∧
    (if tensor.isPerChannel then OperandCode.tensorQuant8SymmPerChannel else input).accepts
      values.elemType = true
  scales : tensor.isPerChannel = true →
    (if 1 < group then some group.toUInt32 else tensor.dims?.bind List.head?).map UInt32.toNat =
      some (tensor.scales?.getD []).length

def BiasTyped (tensor : Tensor) (options : LoweringOptions) : Prop :=
  ∃ values, tensor.data? = some values ∧
    (if options.quantized then OperandCode.tensorInt32 else .tensorFloat32).accepts
      values.elemType = true

end Tensor

namespace FlatOp

variable {options : LoweringOptions} {operator : FlatOp} {graph before after : Graph}

/-- Filter and bias suit the input that the graph holds for the convolution. -/
def Typed (operator : FlatOp) (options : LoweringOptions) (graph : Graph) : Prop :=
  ∃ source filter bias input group, operator.inputs[0]? = some source ∧
    operator.inputs[1]? = some filter ∧ operator.inputs[2]? = some bias ∧
    graph.feed source = .ok input ∧ operator.group = .ok group ∧
    filter.FilterTyped input.type.code group ∧ bias.BiasTyped options

/-- It does not matter when the input is looked up. -/
theorem typed_iff_of_extends {source : Tensor} {input : Feed} (hextends : before.Extends after)
    (hsource : operator.inputs[0]? = some source) (hinput : before.feed source = .ok input) :
    operator.Typed options before ↔ operator.Typed options after := by
  constructor
  · rintro ⟨source, filter, bias, input, group, hsource, hfilter, hbias, hinput, htyped⟩
    exact ⟨source, filter, bias, input, group, hsource, hfilter, hbias, hextends.feed hinput,
      htyped⟩
  · rintro ⟨other, filter, bias, found, group, hother, hfilter, hbias, hfound, htyped⟩
    cases hsource.symm.trans hother
    cases (hextends.feed hinput).symm.trans hfound
    exact ⟨source, filter, bias, input, group, hsource, hfilter, hbias, hinput, htyped⟩

end FlatOp

theorem Filter.suits_iff {options : LoweringOptions} {operator : FlatOp} {tensor : Tensor}
    {channels : UInt32} {input : OperandCode} {group : Int32} {filter : Filter} {param : Param}
    (hread : ofTensor operator tensor channels = .ok filter)
    (hparam : filter.param options tensor input = .ok param)
    (hgroup : operator.group = .ok group) :
    param.Suits ↔ tensor.FilterTyped input group := by
  obtain ⟨values, hvalues, helem⟩ := elemType_ofTensor hread
  have hchannels := outputChannels_eq hread hgroup
  obtain ⟨type, htype, hparam⟩ := bind_eq_ok_iff.mp hparam
  cases pure_eq_ok_iff.mp hparam
  obtain ⟨hdims, hcode⟩ := type_eq_ok htype
  have hvalue : type.code.accepts filter.values.elemType = true ↔
      ∃ values, tensor.data? = some values ∧
        (if tensor.isPerChannel then OperandCode.tensorQuant8SymmPerChannel else input).accepts
          values.elemType = true := by
    rw [hcode, helem, hvalues]
    simp
  have hquant : (∀ quant, filter.channelQuant tensor = some quant → type.TakesQuant quant) ↔
      (tensor.isPerChannel = true →
        (if 1 < group then some group.toUInt32 else tensor.dims?.bind List.head?).map
          UInt32.toNat = some (tensor.scales?.getD []).length) := by
    rw [← hchannels, channelQuant]
    by_cases hperChannel : tensor.isPerChannel = true
    · simp [hperChannel, OperandType.TakesQuant, hcode, hdims]
    · simp [hperChannel]
  exact ⟨fun hsuits => ⟨hvalue.mp hsuits.value, hquant.mp hsuits.quant⟩,
    fun htyped => ⟨hvalue.mpr htyped.values, hquant.mpr htyped.scales⟩⟩

theorem Bias.suits_iff {options : LoweringOptions} {tensor filter : Tensor} {bias : Bias}
    (hread : ofTensor options tensor filter = .ok bias) :
    bias.param.Suits ↔ tensor.BiasTyped options := by
  obtain ⟨dims, values, type, hvalues, htype, hparam⟩ := ofTensor_eq_ok hread
  have hcode := type_eq_ok htype
  rw [hparam, Tensor.BiasTyped, ← hcode, hvalues]
  constructor
  · intro hsuits
    exact ⟨values, rfl, hsuits.value⟩
  · rintro ⟨_, ⟨⟩, haccepts⟩
    exact ⟨haccepts, by simp⟩

theorem Convolution.suits_iff {options : LoweringOptions} {operator : FlatOp} {graph : Graph}
    {convolution : Convolution} (hread : ofOperator options graph operator = .ok convolution) :
    (∀ param ∈ convolution.params, param.Suits) ↔ operator.Typed options graph := by
  obtain ⟨source, tensor, biasTensor, filter, hsource, htensor, hbiasTensor, hinput, hfilter,
    hparam, hbias, -⟩ := ofOperator_eq_ok hread
  obtain ⟨-, -, group, -, -, hgroup, -⟩ := Filter.ofTensor_eq_ok hfilter
  have hscalars : ∀ param ∈ (convolution.window.placement ++
      (if convolution.depthwise then [1] else []) ++ [convolution.activation.number]).map Param.int,
        param.Suits := by
    intro param hscalar
    obtain ⟨number, -, rfl⟩ := List.mem_map.mp hscalar
    exact Param.suits_int number
  rw [params, List.forall_mem_cons, List.forall_mem_cons, Filter.suits_iff hfilter hparam hgroup,
    Bias.suits_iff hbias]
  constructor
  · rintro ⟨hfilterTyped, hbiasTyped, -⟩
    exact ⟨source, tensor, biasTensor, convolution.input, group, hsource, htensor, hbiasTensor,
      hinput, hgroup, hfilterTyped, hbiasTyped⟩
  · rintro ⟨other, filter, bias, input, count, hother, hothers, hbiases, hfeed, hcount,
      hfilterTyped, hbiasTyped⟩
    cases hsource.symm.trans hother
    cases htensor.symm.trans hothers
    cases hbiasTensor.symm.trans hbiases
    cases hinput.symm.trans hfeed
    cases hgroup.symm.trans hcount
    exact ⟨hfilterTyped, hbiasTyped, hscalars⟩

/-! ## Nets -/

variable {options : LoweringOptions} {graph next : Graph}

theorem FlatOp.Grows.fits_iff {operator : FlatOp} (hgrows : operator.Grows options graph next)
    (hmeasured : graph.Measured) :
    next.Measured ∧
      (next.Fits ↔ graph.Fits ∧ (operator.Convolves → operator.Typed options graph)) := by
  cases hgrows with
  | convolution convolution htype hread hadded =>
      obtain ⟨hnext, hfits⟩ := Graph.fits_addLayer_iff hmeasured hadded
      have hconvolves : operator.Convolves := htype
      refine ⟨hnext, hfits.trans (and_congr_right' ?_)⟩
      exact (Convolution.suits_iff hread).trans
        ⟨fun htyped _ => htyped, fun htyped => htyped hconvolves⟩
  | pooling pooling htype hread hadded =>
      obtain ⟨hnext, hfits⟩ := Graph.fits_addLayer_iff hmeasured hadded
      refine ⟨hnext, hfits.trans (and_congr_right' (iff_of_true ?_ ?_))⟩
      · intro param hparam
        obtain ⟨number, -, rfl⟩ := List.mem_map.mp hparam
        exact Param.suits_int number
      · simp [Convolves, htype]
  | skipped source name input htype _ _ _ _ hnamed =>
      obtain ⟨-, rfl⟩ := Graph.nameAs_eq_ok_iff.mp hnamed
      refine ⟨⟨hmeasured.values, hmeasured.quants⟩, ?_⟩
      have hnever : ¬operator.Convolves := by simp [Convolves, htype]
      constructor
      · exact fun hfits =>
          ⟨⟨hfits.values, hfits.quants⟩, fun hconvolves => absurd hconvolves hnever⟩
      · exact fun hfits => ⟨hfits.1.values, hfits.1.quants⟩
  | softmax source name input inputType htype _ _ _ _ _ hadded =>
      obtain ⟨hnext, hfits⟩ := Graph.fits_addLayer_iff hmeasured hadded
      refine ⟨hnext, hfits.trans (and_congr_right' (iff_of_true ?_ ?_))⟩
      · intro param hparam
        cases List.mem_singleton.mp hparam
        exact Param.suits_single .one
      · simp [Convolves, htype]

theorem FlatOp.Grows.typed_iff {operator : FlatOp} {grown : Graph}
    (hgrows : operator.Grows options graph next) (hextends : next.Extends grown) :
    (operator.Convolves → operator.Typed options graph) ↔
      (operator.Convolves → operator.Typed options grown) := by
  refine forall_congr' fun hconvolves => ?_
  obtain ⟨convolution, hread, hadded⟩ := hgrows.convolution_of_convolves hconvolves
  obtain ⟨source, -, -, -, hsource, -, -, hinput, -⟩ := Convolution.ofOperator_eq_ok hread
  exact typed_iff_of_extends ((Graph.extends_addLayer hadded).trans hextends) hsource hinput

namespace FlatNet

theorem fits_run_iff {operators : List FlatOp} {start grown : Graph} (hmeasured : start.Measured)
    (hrun : operators.foldlM (FlatOp.lower options) start = .ok grown) :
    grown.Measured ∧ (grown.Fits ↔ start.Fits ∧
      ∀ operator ∈ operators, operator.Convolves → operator.Typed options grown) := by
  induction operators generalizing start with
  | nil =>
      rw [List.foldlM_nil, pure_eq_ok_iff] at hrun
      rw [hrun]
      exact ⟨hmeasured, by simp⟩
  | cons operator operators ih =>
      rw [List.foldlM_cons, bind_eq_ok_iff] at hrun
      obtain ⟨next, hlower, hrest⟩ := hrun
      have hgrows := FlatOp.grows_of_lower hlower
      obtain ⟨hnext, hfits⟩ := hgrows.fits_iff hmeasured
      obtain ⟨hgrown, hrestFits⟩ := ih hnext hrest
      refine ⟨hgrown, ?_⟩
      rw [hrestFits, hfits, hgrows.typed_iff (extends_of_run hrest), List.forall_mem_cons,
        and_assoc]

theorem measured_startGraph (name : String) (type : OperandType) :
    (startGraph name type).Measured ∧ (startGraph name type).Fits := by
  have hvalues (id : OperandId) : (startGraph name type).values.find? id = none :=
    Table.find?_empty id
  have hquants (id : OperandId) : (startGraph name type).channelQuants.find? id = none :=
    Table.find?_empty id
  constructor
  · exact ⟨fun id value hfound => by simp [hvalues] at hfound,
      fun id value hfound => by simp [hquants] at hfound⟩
  · exact ⟨fun id value hfound => by simp [hvalues] at hfound,
      fun id value hfound => by simp [hquants] at hfound⟩

theorem fits_of_lower_iff {net : FlatNet} (hlower : net.lower options = .ok graph) :
    graph.Measured ∧ (graph.Fits ↔
      ∀ operator ∈ net.operators, operator.Convolves → operator.Typed options graph) := by
  obtain ⟨first, _, start, grown, _, output, -, -, hstart, hrun, -, -, rfl, -⟩ :=
    lower_eq_ok_iff.mp hlower
  obtain ⟨source, type, -, -, rfl⟩ := inputGraph_eq_ok_iff.mp hstart
  obtain ⟨hmeasured, hfits⟩ := measured_startGraph source.name type
  obtain ⟨hgrown, hgrownFits⟩ := fits_run_iff hmeasured hrun
  refine ⟨⟨hgrown.values, hgrown.quants⟩, ?_⟩
  -- The ends of a graph have no part in what it binds or names.
  have hends : Graph.Fits { grown with inputs := [.own 0], outputs := [output] } ↔ grown.Fits :=
    ⟨fun hfits => ⟨hfits.values, hfits.quants⟩, fun hfits => ⟨hfits.values, hfits.quants⟩⟩
  rw [hends, hgrownFits]
  simp only [hfits, true_and]
  rfl

/-- A backend without restrictions takes the graph of a net just when all convolutions of the net
are typed, and calls an operand invalid otherwise.  A graph with more operands than an index can
tell apart it does not take at all. -/
theorem lower_fits_iff {net : FlatNet} (hlower : net.lower options = .ok graph)
    (model : ModelOptions) (hunrestricted : model.supported = []) (calls : List Call) :
    (∀ id value, graph.values.find? id = some value →
      ∃ operand, graph.operand? id = some operand ∧ operand.type.elements = value.size) ∧
    (graph.Fits ↔
      ∀ operator ∈ net.operators, operator.Convolves → operator.Typed options graph) ∧
    ∃ result filled longer,
      (graph.emit recorded).run (Model.ofOptions model, calls) = (result, filled, longer) ∧
      (graph.operands.length ≤ 2 ^ 32 →
        (result = .ok () ↔
          ∀ operator ∈ net.operators, operator.Convolves → operator.Typed options graph) ∧
        ∀ error, result = .error error → ∃ index fault, fault ≠ .valueTwice ∧
          error = .backend (.invalidOperand index fault)) ∧
      (2 ^ 32 < graph.operands.length → result = .error (.idMismatch (2 ^ 32) 0)) := by
  obtain ⟨hmeasured, hfits⟩ := fits_of_lower_iff hlower
  obtain ⟨-, -, -, -, -, -, -, -, -, -, -, -, -, hvalid⟩ := lower_eq_ok_iff.mp hlower
  obtain ⟨filled, longer, hrun, -⟩ := graph.emit_recorded (.ofOptions model) calls
  refine ⟨hmeasured.values, hfits, _, filled, longer, hrun, fun hplaces => ?_, fun hmany => ?_⟩
  · have hsettles := Graph.requests_settle hvalid hplaces (.inl hunrestricted)
    rw [← hfits]
    by_cases hall : graph.Fits
    · rw [hsettles.accepts hall]
      simp [hall, Except.map]
    · obtain ⟨index, fault, hfault, hfill⟩ := hsettles.refuses hall
      rw [hfill]
      refine ⟨by simp [hall, Except.map], ?_⟩
      rintro error ⟨rfl⟩
      exact ⟨index, fault, hfault, rfl⟩
  · rw [Graph.fill_requests_of_many model hmany]
    rfl

/-- A net of one convolution, on an input with scale 1 around 0. -/
def oneConvolution (filter bias : Tensor) : FlatNet where
  operators := [
    { type := "Int8Conv"
      inputs := [.named "image", filter, bias]
      outputs := ["features"]
      arguments := .ofList [("kernel", .numbers (.int32 #[1])),
        ("X_scale", .numbers (.float32 #[.one])), ("X_zero_point", .numbers (.int32 #[0]))] }]

def filterOf (channels : Int32) (values : Buffer) (scales : Array Single) : Tensor where
  name := "filter"
  shape := some (.numbers (.int32 #[channels, 1, 1, 1]))
  values := some (.numbers values)
  scale := some (.numbers (.float32 scales))

def biasOf (channels : Int32) (values : Buffer) : Tensor where
  name := "bias"
  shape := some (.numbers (.int32 #[channels]))
  values := some (.numbers values)

/-- Two channels with a scale each. -/
def twoScales : FlatNet :=
  oneConvolution (filterOf 2 (.uint8 #[1, 2]) #[.one, .one]) (biasOf 2 (.int32 #[0, 0]))

theorem lower_fits_iff_twoScales :
    ∃ graph, twoScales.lower { quantized := true, inputSize := [1, 1, 1] } = .ok graph ∧
      graph.Fits := by
  have hemitted : (fun graph : Graph => (graph.operands.length,
        ((graph.emit recorded).run (Model.ofOptions {}, [])).1)) <$>
      twoScales.lower { quantized := true, inputSize := [1, 1, 1] } = .ok (11, .ok ()) := by
    decide +kernel
  obtain ⟨graph, hlower, hgraph⟩ := map_eq_ok_iff.mp hemitted
  obtain ⟨hlength, hok⟩ := Prod.mk.inj hgraph
  obtain ⟨-, hfits, result, filled, longer, hrun, htold, -⟩ := lower_fits_iff hlower {} rfl []
  obtain ⟨hresult, -⟩ := htold (by rw [hlength]; decide)
  rw [hrun] at hok
  exact ⟨graph, hlower, hfits.mpr (hresult.mp hok)⟩

/-- A float convolution with a filter of whole numbers. -/
def wholeFilter : FlatNet :=
  oneConvolution (filterOf 1 (.int32 #[5]) #[.one]) (biasOf 1 (.float32 #[.zero]))

/-- Three scales for two channels. -/
def threeScales : FlatNet :=
  oneConvolution (filterOf 2 (.uint8 #[1, 2]) #[.one, .one, .one]) (biasOf 2 (.int32 #[0, 0]))

/-- Lowering succeeds all the same, and leaves it to the backend to find the fault. -/
theorem lower_misfits :
    (∃ graph, wholeFilter.lower { inputSize := [1, 1, 1] } = .ok graph ∧ ¬graph.Fits ∧
      ((graph.emit recorded).run (Model.ofOptions {}, [])).1 =
        .error (.backend (.invalidOperand 1 (.valueType .int32 .tensorFloat32)))) ∧
    ∃ graph, threeScales.lower { quantized := true, inputSize := [1, 1, 1] } = .ok graph ∧
      ¬graph.Fits ∧
      ((graph.emit recorded).run (Model.ofOptions {}, [])).1 =
        .error (.backend (.invalidOperand 1 (.scaleCount 3 0 [2, 1, 1, 1]))) := by
  constructor
  · have hread : (fun graph : Graph => (graph.operand? (.own 1), graph.values.find? (.own 1),
          ((graph.emit recorded).run (Model.ofOptions {}, [])).1)) <$>
        wholeFilter.lower { inputSize := [1, 1, 1] } =
          .ok (some ⟨some "filter", .plain .tensorFloat32 [1, 1, 1, 1]⟩, some (.int32 #[5]),
            .error (.backend (.invalidOperand 1 (.valueType .int32 .tensorFloat32)))) := by
      decide +kernel
    obtain ⟨graph, hlower, hgraph⟩ := map_eq_ok_iff.mp hread
    simp only [Prod.mk.injEq] at hgraph
    obtain ⟨hoperand, hvalue, hemitted⟩ := hgraph
    refine ⟨graph, hlower, fun hfits => ?_, hemitted⟩
    obtain ⟨found, hfound, haccepts, -⟩ := hfits.values _ _ hvalue
    cases hoperand.symm.trans hfound
    cases haccepts
  · have hread : (fun graph : Graph => (graph.operand? (.own 1),
          graph.channelQuants.find? (.own 1),
          ((graph.emit recorded).run (Model.ofOptions {}, [])).1)) <$>
        threeScales.lower { quantized := true, inputSize := [1, 1, 1] } =
          .ok (some ⟨some "filter", .plain .tensorQuant8SymmPerChannel [2, 1, 1, 1]⟩,
            some ⟨0, [.one, .one, .one]⟩,
            .error (.backend (.invalidOperand 1 (.scaleCount 3 0 [2, 1, 1, 1])))) := by
      decide +kernel
    obtain ⟨graph, hlower, hgraph⟩ := map_eq_ok_iff.mp hread
    simp only [Prod.mk.injEq] at hgraph
    obtain ⟨hoperand, hquant, hemitted⟩ := hgraph
    refine ⟨graph, hlower, fun hfits => ?_, hemitted⟩
    obtain ⟨found, hfound, -, hscales⟩ := hfits.quants _ _ hquant
    cases hoperand.symm.trans hfound
    exact absurd hscales (by decide)

end FlatNet

end NetLowering
