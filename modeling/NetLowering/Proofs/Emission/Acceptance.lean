import NetLowering.Proofs.Emission.Canonical
import NetLowering.Proofs.Emission.Filling
import NetLowering.Proofs.Layout
import NetLowering.Proofs.Lowering.Assembly

/-!
# Which graphs the recorded model takes

A graph that mentions no unknown operand can only be refused over what it binds
to an operand: a value of the wrong type or size, or scales that do not match a
dimension.  Each phase of the emission settles its own part of that, from the
model that the phases before it leave behind.
-/

namespace NetLowering

/-! ## What an operand takes -/

namespace OperandType

/-- A value of a type that the operand stores, with as many elements as its dimensions multiply to
in a machine word. -/
def TakesValue (type : OperandType) (value : Buffer) : Prop :=
  type.code.accepts value.elemType = true ∧ value.size = wordSpan (type.dims.map UInt32.toNat)

theorem takesValue_iff {type : OperandType} {value : Buffer} :
    type.TakesValue value ↔
      type.code.accepts value.elemType = true ∧ value.size = type.elements := by
  rw [TakesValue, elements_eq]

def TakesQuant (type : OperandType) (quant : ChannelQuant) : Prop :=
  type.code = .tensorQuant8SymmPerChannel ∧
    type.dims[quant.channelDim.toNat]?.map UInt32.toNat = some quant.scales.length

end OperandType

/-- Nothing is cut off a place that 32 bits hold. -/
theorem OperandId.toNat_word {id : OperandId} (hplace : id.index < 2 ^ 32) :
    id.word.toNat = id.index :=
  UInt32.toNat_ofNat_of_lt' hplace

/-- What is bound to the operands of a graph is what they take. -/
structure Graph.Fits (graph : Graph) : Prop where
  values : ∀ id value, graph.values.find? id = some value →
    ∃ operand, graph.operand? id = some operand ∧ operand.type.TakesValue value
  quants : ∀ id quant, graph.channelQuants.find? id = some quant →
    ∃ operand, graph.operand? id = some operand ∧ operand.type.TakesQuant quant

/-! ## Requests -/

namespace Model

variable {model final : Model} {place : Nat}

theorem settles_request {request : Request} {Good : Prop}
    (hplain : ∀ answer, Exchange.fault? place ⟨request, .ok answer⟩ = none)
    (haccepts : Good → ∃ answer, (perform request).outcome model = .ok (answer, final))
    (hrefuses : ¬Good → ∃ index fault, fault ≠ .valueTwice ∧
      (perform request).outcome model = .error (.invalidOperand index fault)) :
    model.Settles place [request] Good final := by
  constructor
  · intro hgood
    obtain ⟨answer, hperform⟩ := haccepts hgood
    simp only [fill, hperform, hplain]
  · intro hbad
    obtain ⟨index, fault, hfault, hperform⟩ := hrefuses hbad
    exact ⟨index, fault, hfault, by simp only [fill, hperform]⟩

theorem checkUnfinished_eq_ok (hunfinished : model.finished = false) :
    model.checkUnfinished = .ok () := by
  simp [checkUnfinished, hunfinished]

theorem setValue_settles {index : UInt32} {value : Buffer} {type : OperandType}
    (hunfinished : model.finished = false) (htype : model.operands[index.toNat]? = some type)
    (hfirst : index ∉ model.valued) :
    model.Settles place [.setValue index value] (type.TakesValue value)
      { model with valued := index :: model.valued } := by
  have houtcome := (setValue_achieves model index value).outcome_eq
  rw [checkUnfinished_eq_ok hunfinished, operand_eq_ok_iff.mpr htype] at houtcome
  rw [OperandType.takesValue_iff]
  apply settles_request fun _ => rfl
  · rintro ⟨haccepts, hsize⟩
    have hgranted : (setValue index value).outcome model =
        .ok ((), { model with valued := index :: model.valued }) := by
      rw [houtcome]
      simp [haccepts, hsize, hfirst, Checked.pure_eq_ok]
    exact ⟨(), hgranted⟩
  · intro hbad
    by_cases haccepts : type.code.accepts value.elemType = true
    · have hsize : value.size ≠ type.elements := fun hsize => hbad ⟨haccepts, hsize⟩
      have hrefused : (setValue index value).outcome model =
          .error (.invalidOperand index (.valueCount value.size type.dims)) := by
        rw [houtcome]
        simp [haccepts, hsize]
      exact ⟨_, _, by simp, hrefused⟩
    · have hrefused : (setValue index value).outcome model =
          .error (.invalidOperand index (.valueType value.elemType type.code)) := by
        rw [houtcome]
        simp [haccepts]
      exact ⟨_, _, by simp, hrefused⟩

theorem setChannelQuant_settles {index : UInt32} {quant : ChannelQuant} {type : OperandType}
    (hunfinished : model.finished = false) (htype : model.operands[index.toNat]? = some type) :
    model.Settles place [.setChannelQuant index quant] (type.TakesQuant quant) model := by
  have houtcome := (setChannelQuant_achieves model index quant).outcome_eq
  rw [checkUnfinished_eq_ok hunfinished, operand_eq_ok_iff.mpr htype] at houtcome
  apply settles_request fun _ => rfl
  · rintro ⟨hcode, hscales⟩
    have hgranted : (setChannelQuant index quant).outcome model = .ok ((), model) := by
      rw [houtcome]
      simp only [Checked.ok_bind, Checked.pure_eq_ok, hcode, hscales, ne_eq, not_true_eq_false,
        if_false]
    exact ⟨(), hgranted⟩
  · intro hbad
    by_cases hcode : type.code = .tensorQuant8SymmPerChannel
    · have hscales :
          ¬type.dims[quant.channelDim.toNat]?.map UInt32.toNat = some quant.scales.length :=
        fun hscales => hbad ⟨hcode, hscales⟩
      have hrefused : (setChannelQuant index quant).outcome model =
          .error (.invalidOperand index
            (.scaleCount quant.scales.length quant.channelDim type.dims)) := by
        rw [houtcome]
        simp only [Checked.ok_bind, ne_eq, hcode, hscales, not_true_eq_false, not_false_eq_true,
          if_false, if_true, Checked.throw_bind]
      exact ⟨_, _, by simp, hrefused⟩
    · have hrefused : (setChannelQuant index quant).outcome model =
          .error (.invalidOperand index (.notPerChannel type.code)) := by
        rw [houtcome]
        simp [hcode]
      exact ⟨_, _, by simp, hrefused⟩

theorem addOperation_settles {code : OperationCode} {inputs outputs : List UInt32}
    (hunfinished : model.finished = false)
    (hsupported : model.supported = [] ∨ code ∈ model.supported)
    (hknown : ∀ index ∈ inputs ++ outputs, index.toNat < model.operands.length) :
    model.Settles place [.addOperation code inputs outputs] True model := by
  apply settles_request fun _ => rfl
  · intro _
    have hgranted : (addOperation code inputs outputs).outcome model = .ok ((), model) := by
      rw [(addOperation_achieves model code inputs outputs).outcome_eq,
        checkUnfinished_eq_ok hunfinished, checkKnown_eq_ok_iff.mpr hknown]
      rcases hsupported with hany | hlisted
      · simp [hany, Checked.pure_eq_ok]
      · simp [hlisted, Checked.pure_eq_ok]
    exact ⟨(), hgranted⟩
  · simp

theorem identify_settles {inputs outputs : List UInt32} (hunfinished : model.finished = false)
    (hknown : ∀ index ∈ inputs ++ outputs, index.toNat < model.operands.length) :
    model.Settles place [.identify inputs outputs] True { model with inputs, outputs } := by
  apply settles_request fun _ => rfl
  · intro _
    refine ⟨(), (identify_achieves model inputs outputs).outcome_eq.trans ?_⟩
    rw [checkUnfinished_eq_ok hunfinished, checkKnown_eq_ok_iff.mpr hknown]
    rfl
  · simp

/-- An operand is numbered with what is left of its place in 32 bits. -/
theorem fill_addOperand {type : OperandType} (hunfinished : model.finished = false) :
    model.fill place [.addOperand type] =
      if (UInt32.ofNat model.operands.length).toNat = place then
        .ok { model with operands := model.operands ++ [type] }
      else .error (.idMismatch place (.ofNat model.operands.length)) := by
  have houtcome : (perform (.addOperand type)).outcome model =
      .ok (UInt32.ofNat model.operands.length,
        { model with operands := model.operands ++ [type] }) := by
    refine (addOperand_achieves model type).outcome_eq.trans ?_
    rw [checkUnfinished_eq_ok hunfinished]
    rfl
  rw [fill, houtcome]
  simp only [Exchange.fault?]
  split <;> rename_i hplace <;> split at hplace <;> simp_all [fill]

theorem addOperand_settles {type : OperandType} (hunfinished : model.finished = false)
    (hplace : place = model.operands.length) (hplaces : place < 2 ^ 32) :
    model.Settles place [.addOperand type] True
      { model with operands := model.operands ++ [type] } := by
  constructor
  · intro _
    rw [fill_addOperand hunfinished, if_pos]
    rw [← hplace]
    exact UInt32.toNat_ofNat_of_lt' hplaces
  · simp

/-! ## Phases -/

theorem settles_operands (supported : List OperationCode) {operands : List Operand}
    (hplaces : operands.length ≤ 2 ^ 32) :
    ({ supported } : Model).Settles 0 (operands.map fun operand => .addOperand operand.type)
      (∀ operand ∈ operands, True) { supported, operands := operands.map (·.type) } := by
  apply settles_map fun done : List Operand => { supported, operands := done.map (·.type) }
  intro done operand rest hoperands
  rw [List.map_append]
  refine addOperand_settles rfl (by simp) ?_
  rw [hoperands, List.length_append, List.length_cons] at hplaces
  omega

/-- The first operand whose place is not an index any more is numbered as the first of all. -/
theorem fill_operands_of_many (supported : List OperationCode) {operands : List Operand}
    (hmany : 2 ^ 32 < operands.length) (later : List Request) :
    ({ supported } : Model).fill 0
        (operands.map (fun operand => .addOperand operand.type) ++ later) =
      .error (.idMismatch (2 ^ 32) 0) := by
  have hlength : (operands.take (2 ^ 32)).length = 2 ^ 32 := by
    rw [List.length_take]
    omega
  have hsplit := List.take_append_drop (2 ^ 32) operands
  rw [List.drop_eq_getElem_cons hmany] at hsplit
  have hnumbered := (settles_operands supported (Nat.le_of_eq hlength)).accepts (by simp)
  rw [← hsplit, List.map_append, List.append_assoc, fill_append, hnumbered, List.map_cons,
    List.cons_append, ← List.singleton_append, Checked.ok_bind, fill_append, List.length_map,
    fill_addOperand rfl, List.length_map, hlength, if_neg (by decide)]
  rfl

variable {supported : List OperationCode} {types : List OperandType}

private theorem known_type {α : Type} {done rest : List (OperandId × α)} {entry : OperandId × α}
    (hknown : ∀ other ∈ done ++ entry :: rest, other.1.index < types.length) :
    ∃ type, types[entry.1.index]? = some type :=
  ⟨_, List.getElem?_eq_getElem (hknown entry (by simp))⟩

private theorem indices_append (first second : List OperandId) :
    Graph.indices (first ++ second) = Graph.indices first ++ Graph.indices second :=
  List.map_append

theorem settles_values {entries : List (OperandId × Buffer)} (hplaces : types.length ≤ 2 ^ 32)
    (hknown : ∀ entry ∈ entries, entry.1.index < types.length)
    (hascending : entries.Pairwise fun first second => first.1.index < second.1.index) :
    ({ supported, operands := types } : Model).Settles place
      (entries.map fun entry => .setValue entry.1.word entry.2)
      (∀ entry ∈ entries, ∃ type, types[entry.1.index]? = some type ∧ type.TakesValue entry.2)
      { supported, operands := types, valued := (Graph.indices (entries.map (·.1))).reverse } := by
  apply settles_map fun done : List (OperandId × Buffer) =>
    { supported, operands := types, valued := (Graph.indices (done.map (·.1))).reverse }
  rintro done ⟨id, value⟩ rest rfl
  obtain ⟨type, htype⟩ := known_type hknown
  have hword (entry : OperandId × Buffer) (hentry : entry ∈ done ++ (id, value) :: rest) :
      entry.1.word.toNat = entry.1.index :=
    OperandId.toNat_word (Nat.lt_of_lt_of_le (hknown entry hentry) hplaces)
  -- Everything before has a smaller place, so this operand has no value yet.
  have hfirst : id.word ∉ (Graph.indices (done.map (·.1))).reverse := by
    rw [List.mem_reverse, Graph.indices, List.map_map, List.mem_map]
    rintro ⟨earlier, hearlier, hindex⟩
    have hlt := (List.pairwise_append.mp hascending).2.2 earlier hearlier (id, value) (by simp)
    have hsame := congrArg UInt32.toNat hindex
    rw [Function.comp_apply, hword earlier (by simp [hearlier]), hword (id, value) (by simp)]
      at hsame
    exact Nat.ne_of_lt hlt hsame
  rw [List.map_append, indices_append, List.reverse_append]
  have htold : types[id.word.toNat]? = some type := by rwa [hword (id, value) (by simp)]
  refine (setValue_settles rfl htold hfirst).of_iff ?_
  simp [htype]

theorem settles_quants {entries : List (OperandId × ChannelQuant)}
    (hunfinished : model.finished = false) (hplaces : model.operands.length ≤ 2 ^ 32)
    (hknown : ∀ entry ∈ entries, entry.1.index < model.operands.length) :
    model.Settles place (entries.map fun entry => .setChannelQuant entry.1.word entry.2)
      (∀ entry ∈ entries, ∃ type, model.operands[entry.1.index]? = some type ∧
        type.TakesQuant entry.2) model := by
  apply settles_map fun _ => model
  rintro done ⟨id, quant⟩ rest rfl
  obtain ⟨type, htype⟩ := known_type hknown
  have htold : model.operands[id.word.toNat]? = some type := by
    rwa [OperandId.toNat_word (Nat.lt_of_lt_of_le (hknown (id, quant) (by simp)) hplaces)]
  refine (setChannelQuant_settles hunfinished htold).of_iff ?_
  simp [htype]

theorem settles_operations {operations : List Operation} (hunfinished : model.finished = false)
    (hsupported : model.supported = [] ∨
      ∀ operation ∈ operations, operation.code ∈ model.supported)
    (hknown : ∀ operation ∈ operations,
      ∀ index ∈ Graph.indices operation.inputs ++ Graph.indices operation.outputs,
        index.toNat < model.operands.length) :
    model.Settles place
      (operations.map fun operation => .addOperation operation.code
        (Graph.indices operation.inputs) (Graph.indices operation.outputs))
      (∀ operation ∈ operations, True) model := by
  apply settles_map fun _ => model
  rintro done operation rest rfl
  apply addOperation_settles hunfinished
  · exact hsupported.imp id fun hall => hall operation (by simp)
  · exact hknown operation (by simp)

end Model

/-! ## Graphs -/

namespace Graph

variable {graph : Graph}

def Owns (graph : Graph) (id : OperandId) : Prop :=
  id.foreign = false ∧ id.index < graph.operands.length

theorem owns_of_valid (hvalid : graph.unknown? = none) :
    (∀ operation ∈ graph.operations, ∀ id ∈ operation.inputs ++ operation.outputs,
      graph.Owns id) ∧
    (∀ id ∈ graph.values.keys, graph.Owns id) ∧
    (∀ id ∈ graph.channelQuants.keys, graph.Owns id) ∧
    (∀ id ∈ graph.inputs ++ graph.outputs, graph.Owns id) := by
  have howns : ∀ id ∈ graph.mentioned, graph.Owns id := fun id hid =>
    contains_iff.mp (unknown?_eq_none_iff.mp hvalid id hid)
  simp only [mentioned, List.forall_mem_append, List.forall_mem_flatMap] at howns ⊢
  tauto

theorem placesDiffer {α : Type} {table : Table OperandId α}
    (howns : ∀ id ∈ table.keys, graph.Owns id) : table.PlacesDiffer := by
  rintro ⟨index, _⟩ hfirst ⟨_, _⟩ hsecond rfl
  cases (howns _ hfirst).1
  cases (howns _ hsecond).1
  rfl

/-- The model that a graph leaves behind when it is taken. -/
def filled (graph : Graph) (options : ModelOptions) : Model where
  supported := options.supported
  operands := graph.operands.map (·.type)
  valued := (indices (graph.sortedValues.map (·.1))).reverse
  inputs := indices graph.inputs
  outputs := indices graph.outputs

private theorem bound_iff {α : Type} {table : Table OperandId α}
    {Takes : OperandType → α → Prop} (howns : ∀ id ∈ table.keys, graph.Owns id) :
    (∀ id value, table.find? id = some value →
      ∃ operand, graph.operand? id = some operand ∧ Takes operand.type value) ↔
      ∀ entry ∈ table.entries, ∃ type,
        (graph.operands.map (·.type))[entry.1.index]? = some type ∧ Takes type entry.2 := by
  have hoperand (id : OperandId) (hid : id ∈ table.keys) :
      graph.operand? id = graph.operands[id.index]? := by
    rw [operand?, (howns id hid).1]
    rfl
  constructor
  · rintro hall ⟨id, value⟩ hentry
    obtain ⟨operand, hsome, htakes⟩ := hall id value (Table.mem_entries_iff.mp hentry)
    rw [hoperand id (List.mem_map_of_mem hentry)] at hsome
    exact ⟨operand.type, by simp [hsome], htakes⟩
  · intro hall id value hfind
    have hentry := Table.mem_entries_iff.mpr hfind
    obtain ⟨type, hsome, htakes⟩ := hall (id, value) hentry
    rw [List.getElem?_map, Option.map_eq_some_iff] at hsome
    obtain ⟨operand, hsome, rfl⟩ := hsome
    exact ⟨operand, (hoperand id (List.mem_map_of_mem hentry)).trans hsome, htakes⟩

theorem fits_iff (hvalues : ∀ id ∈ graph.values.keys, graph.Owns id)
    (hquants : ∀ id ∈ graph.channelQuants.keys, graph.Owns id) :
    graph.Fits ↔
      (∀ entry ∈ graph.values.entries, ∃ type,
        (graph.operands.map (·.type))[entry.1.index]? = some type ∧ type.TakesValue entry.2) ∧
      ∀ entry ∈ graph.channelQuants.entries, ∃ type,
        (graph.operands.map (·.type))[entry.1.index]? = some type ∧ type.TakesQuant entry.2 := by
  rw [← bound_iff hvalues, ← bound_iff hquants]
  exact ⟨fun hfits => ⟨hfits.values, hfits.quants⟩, fun ⟨hvalues, hquants⟩ => ⟨hvalues, hquants⟩⟩

theorem requests_settle {options : ModelOptions} (hvalid : graph.unknown? = none)
    (hplaces : graph.operands.length ≤ 2 ^ 32)
    (hsupported : options.supported = [] ∨
      ∀ operation ∈ graph.operations, operation.code ∈ options.supported) :
    (Model.ofOptions options).Settles 0 graph.requests graph.Fits (graph.filled options) := by
  obtain ⟨hoperations, hvalues, hquants, hends⟩ := owns_of_valid hvalid
  have hvaluesListed := Table.listing_byPlace (placesDiffer hvalues) (.refl _)
  have hquantsListed := Table.listing_byPlace (placesDiffer hquants) (.refl _)
  have hentries {α : Type} {table : Table OperandId α} {entries : List (OperandId × α)}
      (howns : ∀ id ∈ table.keys, graph.Owns id) (hlisted : table.Listing entries) :
      ∀ entry ∈ entries, entry.1.index < (graph.operands.map (·.type)).length := by
    rintro ⟨id, value⟩ hentry
    rw [List.length_map]
    exact (howns id (Table.mem_keys_iff.mpr ⟨value, (hlisted.complete id value).mp hentry⟩)).2
  have hindices {inputs outputs : List OperandId}
      (howns : ∀ id ∈ inputs ++ outputs, graph.Owns id) :
      ∀ index ∈ indices inputs ++ indices outputs,
        index.toNat < (graph.operands.map (·.type)).length := by
    intro index hindex
    rw [indices, indices, ← List.map_append, List.mem_map] at hindex
    obtain ⟨id, hid, rfl⟩ := hindex
    obtain ⟨-, hindex⟩ := howns id hid
    rwa [OperandId.toNat_word (Nat.lt_of_lt_of_le hindex hplaces), List.length_map]
  have htypes : (graph.operands.map (·.type)).length ≤ 2 ^ 32 := by rwa [List.length_map]
  -- The phases in order, each on the model that the one before it leaves.
  have hsettles := (Model.settles_operands options.supported hplaces).append
    ((Model.settles_values htypes (hentries hvalues hvaluesListed) hvaluesListed.ascending).append
      ((Model.settles_quants rfl htypes (hentries hquants hquantsListed)).append
        ((Model.settles_operations rfl hsupported fun operation hoperation =>
            hindices (hoperations operation hoperation)).append
          (Model.identify_settles rfl (hindices hends)))))
  refine hsettles.of_iff ?_
  rw [fits_iff hvalues hquants]
  simp [(Table.perm_byPlace _).mem_iff]

/-- A graph with more operands than there are indices is numbered anew at the first that has none
left. -/
theorem fill_requests_of_many (options : ModelOptions) (hmany : 2 ^ 32 < graph.operands.length) :
    (Model.ofOptions options).fill 0 graph.requests = .error (.idMismatch (2 ^ 32) 0) :=
  Model.fill_operands_of_many options.supported hmany _

end Graph

end NetLowering
