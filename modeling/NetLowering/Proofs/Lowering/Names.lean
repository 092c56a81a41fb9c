import Mathlib.Data.List.Nodup
import NetLowering.Proofs.Lowering.Contributions
import NetLowering.Proofs.Lowering.SingleAssignment

/-!
# The names of a lowered net

The table of names is a single-assignment environment.  The net's input, the
weights of every convolution and the output of every operator each define one
name, no name is defined twice, and nothing is read before it is defined.  A
name leads to the operand that bears it, unless a skipped softmax has made it
another name for its input.
-/

namespace NetLowering

/-! ## Definitions -/

/-- The names that an operator defines, in order. -/
def FlatOp.defines (operator : FlatOp) : List String :=
  operator.weights ++ operator.outputs.head?.toList

/-- The other name that a skipped softmax gives, and the name of its input. -/
def FlatOp.alias? (options : LoweringOptions) (operator : FlatOp) : Option (String × String) :=
  if operator.IsSkipped options then do
    let name ← operator.outputs.head?
    let source ← operator.inputs.head?
    return (name, source.name)
  else none

/-- What the input of the net and these of its operators define, in order. -/
def FlatNet.definedBy (net : FlatNet) (operators : List FlatOp) : List String :=
  net.inputName?.toList ++ operators.flatMap FlatOp.defines

namespace Graph

/-- The name leads to an operand that bears a name, and to another name only by an alias. -/
def Leads (graph : Graph) (aliases : List (String × String)) (name : String) (id : OperandId) :
    Prop :=
  ∃ operand bears, graph.operand? id = some operand ∧ operand.name = some bears ∧
    (bears ≠ name → ∃ source, (name, source) ∈ aliases)

/-- Both names lead to the same operand. -/
def Aliased (graph : Graph) (pair : String × String) : Prop :=
  ∃ id, graph.tensorIds.find? pair.1 = some id ∧ graph.tensorIds.find? pair.2 = some id

/-- The table of names after these definitions, some of them aliases. -/
structure Names (graph : Graph) (names : List String) (aliases : List (String × String)) :
    Prop where
  distinct : names.Nodup
  defined : ∀ name, name ∈ graph.tensorIds.keys ↔ name ∈ names
  /-- An operand that bears a name is what the name leads to. -/
  own : ∀ index operand name, graph.operands[index]? = some operand → operand.name = some name →
    graph.tensorIds.find? name = some (.own index)
  leads : ∀ name id, graph.tensorIds.find? name = some id → graph.Leads aliases name id
  aliased : ∀ pair ∈ aliases, graph.Aliased pair

variable {graph next : Graph} {names : List String} {aliases more : List (String × String)}

/-! ## Steps -/

theorem Leads.mono {name : String} {id : OperandId} (hextends : graph.Extends next)
    (hmore : ∀ pair ∈ aliases, pair ∈ more) (hleads : graph.Leads aliases name id) :
    next.Leads more name id := by
  obtain ⟨operand, bears, hoperand, hbears, halias⟩ := hleads
  refine ⟨operand, bears, hextends.operand? hoperand, hbears, fun hdiffers => ?_⟩
  obtain ⟨source, hlisted⟩ := halias hdiffers
  exact ⟨source, hmore _ hlisted⟩

theorem Aliased.mono {pair : String × String} (hextends : graph.Extends next)
    (haliased : graph.Aliased pair) : next.Aliased pair := by
  obtain ⟨id, hfirst, hsecond⟩ := haliased
  exact ⟨id, hextends.named _ _ hfirst, hextends.named _ _ hsecond⟩

/-- One more name is defined, for an operand that is new or by an alias that is. -/
theorem Names.define {name : String} {id : OperandId} (hnames : graph.Names names aliases)
    (hextends : graph.Extends next) (hfresh : graph.tensorIds.find? name = none)
    (htable : next.tensorIds = graph.tensorIds.insert name id)
    (hown : ∀ index operand bears, next.operands[index]? = some operand →
      operand.name = some bears → next.tensorIds.find? bears = some (.own index))
    (hleads : next.Leads more name id) (hmore : ∀ pair ∈ aliases, pair ∈ more)
    (haliased : ∀ pair ∈ more, pair ∈ aliases ∨ next.Aliased pair) :
    next.Names (names ++ [name]) more := by
  refine ⟨?_, ?_, hown, ?_, ?_⟩
  · rw [← Table.notMem_keys_iff, hnames.defined] at hfresh
    rw [List.nodup_append]
    refine ⟨hnames.distinct, List.nodup_singleton name, ?_⟩
    rintro other hother _ hlast rfl
    exact hfresh (List.mem_singleton.mp hlast ▸ hother)
  · intro other
    rw [htable, Table.mem_keys_iff, Table.find?_insert, List.mem_append, List.mem_singleton,
      ← hnames.defined, Table.mem_keys_iff]
    by_cases hname : other = name <;> simp [hname]
  · intro other found hfound
    rw [htable, Table.find?_insert] at hfound
    split at hfound
    · rename_i hname
      cases hfound
      exact hname ▸ hleads
    · exact (hnames.leads other found hfound).mono hextends hmore
  · intro pair hpair
    rcases haliased pair hpair with hbefore | hnow
    · exact (hnames.aliased pair hbefore).mono hextends
    · exact hnow

/-- An operand that is added comes under its name, if it bears one. -/
theorem Names.append (hnames : graph.Names names aliases) (operand : Operand)
    (hextends : graph.Extends next) (hoperands : next.operands = graph.operands ++ [operand])
    (htable : next.tensorIds =
      operand.name.elim graph.tensorIds (graph.tensorIds.insert · graph.nextId))
    (hfresh : ∀ name, operand.name = some name → graph.tensorIds.find? name = none) :
    next.Names (names ++ operand.name.toList) aliases := by
  have hown : ∀ index found name, next.operands[index]? = some found → found.name = some name →
      next.tensorIds.find? name = some (.own index) := by
    intro index found name hfound hname
    rw [hoperands, List.getElem?_append] at hfound
    split at hfound
    · exact hextends.named _ _ (hnames.own index found name hfound hname)
    · -- The operand that is new has the index that its name now leads to.
      rename_i hindex
      obtain ⟨hlast, rfl⟩ : index - graph.operands.length = 0 ∧ operand = found := by
        simpa [List.getElem?_singleton] using hfound
      obtain rfl : index = graph.operands.length := by omega
      simp [htable, hname, Table.find?_insert]
  cases hname : operand.name with
  | none =>
      rw [hname] at htable
      rw [Option.toList_none, List.append_nil]
      refine ⟨hnames.distinct, htable ▸ hnames.defined, hown, fun name found hfound => ?_, ?_⟩
      · rw [htable] at hfound
        exact (hnames.leads name found hfound).mono hextends fun _ hpair => hpair
      · exact fun pair hpair => (hnames.aliased pair hpair).mono hextends
  | some name =>
      rw [hname] at htable
      have hlast : next.operand? graph.nextId = some operand := by
        simp [operand?, hoperands, OperandId.own]
      have hleads : next.Leads aliases name graph.nextId :=
        ⟨operand, name, hlast, hname, fun hdiffers => absurd rfl hdiffers⟩
      exact hnames.define hextends (hfresh name hname) htable hown hleads
        (fun _ hpair => hpair) fun _ hpair => .inl hpair

theorem Names.addParams {params : List Param} (hnames : graph.Names names aliases)
    (hadded : params.foldlM addParam graph = .ok next) :
    next.Names (names ++ params.filterMap Param.name) aliases := by
  refine Checked.foldlM_follows
    (fun done state => state.Names (names ++ done.filterMap Param.name) aliases)
    ?_ (by simpa using hnames) hadded
  intro done before param after hbefore hparam
  obtain ⟨hadmits, rfl⟩ := addParam_eq_ok_iff.mp hparam
  have hafter := hbefore.append param.operand (extends_withParam hadmits) rfl rfl hadmits.newName
  rw [List.append_assoc] at hafter
  rw [List.filterMap_append]
  cases hname : param.name <;> simpa [Param.operand, hname] using hafter

theorem Names.addLayer {layer : Layer} {name : String} {type : OperandType}
    (hnames : graph.Names names aliases) (hadded : graph.addLayer layer = .ok next)
    (houtput : layer.output = .ok (name, type)) :
    next.Names (names ++ (layer.params.filterMap Param.name ++ [name])) aliases := by
  obtain ⟨withParams, _, _, hparams, hwritten, hfresh, -, rfl⟩ := addLayer_eq_ok_iff.mp hadded
  cases houtput.symm.trans hwritten
  rw [← List.append_assoc]
  refine (hnames.addParams hparams).append ⟨some name, type⟩ (extends_withResult hfresh) rfl rfl ?_
  exact fun _ hname => Option.some.inj hname ▸ hfresh

theorem Names.nameAs {name source : String} {id : OperandId} (hnames : graph.Names names aliases)
    (hsource : graph.tensorIds.find? source = some id)
    (hnamed : graph.nameAs name id = .ok next) :
    next.Names (names ++ [name]) (aliases ++ [(name, source)]) := by
  have hextends := extends_nameAs hnamed
  obtain ⟨hfresh, rfl⟩ := nameAs_eq_ok_iff.mp hnamed
  obtain ⟨operand, bears, hoperand, hbears, -⟩ := hnames.leads source id hsource
  refine hnames.define hextends hfresh rfl ?_ ?_ (fun pair => List.mem_append_left _) ?_
  · intro index operand bears hoperand hbears
    exact hextends.named _ _ (hnames.own index operand bears hoperand hbears)
  · exact ⟨operand, bears, hoperand, hbears, fun _ => ⟨source, by simp⟩⟩
  · intro pair hpair
    rcases List.mem_append.mp hpair with hbefore | hlast
    · exact .inl hbefore
    · obtain rfl := List.mem_singleton.mp hlast
      exact .inr ⟨id, by rw [Table.find?_insert, if_pos rfl], hextends.named _ _ hsource⟩

theorem Names.contributes {operator : FlatOp} {options : LoweringOptions}
    (hnames : graph.Names names aliases)
    (hcontributes : operator.Contributes options graph next) :
    next.Names (names ++ operator.defines) (aliases ++ (operator.alias? options).toList) := by
  cases hcontributes with
  | layer hkept layer hlays hadded =>
      obtain ⟨_, name, type, -, houtput, -⟩ := addLayer_eq_ok_iff.mp hadded
      have hafter := hnames.addLayer hadded houtput
      rw [FlatOp.alias?, if_neg hkept, FlatOp.defines, ← hlays.weights,
        hlays.output name type houtput]
      simpa using hafter
  | name hskipped source name input hread hwritten hfound hnamed =>
      have hafter := hnames.nameAs hfound hnamed
      have hother : ¬operator.Convolves := by simp [FlatOp.Convolves, hskipped.1]
      rw [FlatOp.alias?, if_pos hskipped, FlatOp.defines, FlatOp.weights_of_not_convolves hother,
        hwritten, hread]
      exact hafter

end Graph

/-! ## Lowering -/

variable {options : LoweringOptions} {net : FlatNet} {graph : Graph}

theorem Graph.names_empty : Graph.empty.Names [] [] := by
  have hnone (name : String) : Graph.empty.tensorIds.find? name = none := Table.find?_empty name
  refine ⟨.nil, fun name => ?_, by simp [Graph.empty], fun name id hfound => ?_, by simp⟩
  · rw [Table.mem_keys_iff]
    simp [hnone]
  · cases (hnone name).symm.trans hfound

theorem Graph.extends_empty (graph : Graph) : Graph.empty.Extends graph := by
  refine ⟨List.nil_prefix, List.nil_prefix, ?_, ?_⟩
  · intro name id hfound
    cases (Table.find?_empty name).symm.trans hfound
  · intro id value hfound
    cases (Table.find?_empty id).symm.trans hfound

namespace FlatNet

theorem names_startGraph (name : String) (type : OperandType) :
    (startGraph name type).Names [name] [] :=
  Graph.names_empty.append ⟨some name, type⟩ (Graph.extends_empty _) rfl rfl
    fun _ _ => Table.find?_empty _

/-- Up to these operators every name is defined once and before it is read, and the table says
what it stands for. -/
structure Scoped (net : FlatNet) (options : LoweringOptions) (operators : List FlatOp)
    (graph : Graph) : Prop where
  names : graph.Names (net.definedBy operators) (operators.filterMap (FlatOp.alias? options))
  known : ∀ place operator, operators[place]? = some operator → ∃ source,
    operator.inputs.head? = some source ∧ source.name ∈ net.definedBy (operators.take place)

theorem Scoped.contributes {done : List FlatOp} {operator : FlatOp} {next : Graph}
    (hscoped : net.Scoped options done graph)
    (hcontributes : operator.Contributes options graph next) :
    net.Scoped options (done ++ [operator]) next := by
  constructor
  · have hnames := hscoped.names.contributes hcontributes
    rw [definedBy, List.append_assoc] at hnames
    rw [definedBy, List.flatMap_append, List.filterMap_append]
    cases halias : operator.alias? options <;> simpa [halias] using hnames
  · intro place found hfound
    rcases Nat.lt_or_ge place done.length with hplace | hplace
    · rw [List.getElem?_append_left hplace] at hfound
      rw [List.take_append_of_le_length (Nat.le_of_lt hplace)]
      exact hscoped.known place found hfound
    · rw [List.getElem?_append_right hplace] at hfound
      obtain ⟨hlast, rfl⟩ : place - done.length = 0 ∧ operator = found := by
        simpa [List.getElem?_singleton] using hfound
      obtain rfl : place = done.length := by omega
      obtain ⟨source, id, hread, hnamed⟩ := hcontributes.reads
      refine ⟨source, hread, ?_⟩
      rw [List.take_left, ← hscoped.names.defined]
      exact Table.mem_keys_iff.mpr ⟨id, hnamed⟩

theorem scoped_of_run {operators : List FlatOp} {name : String} {type : OperandType} {grown : Graph}
    (hname : net.inputName? = some name)
    (hrun : operators.foldlM (FlatOp.lower options) (startGraph name type) = .ok grown) :
    net.Scoped options operators grown := by
  refine Checked.foldlM_follows (net.Scoped options) ?_ ⟨?_, by simp⟩ hrun
  · intro done operator before after hbefore hlower
    exact hbefore.contributes (FlatOp.contributes_of_lower hlower)
  · simpa [definedBy, hname] using names_startGraph name type

/-- A net that can be lowered defines every name once, and reads nothing before it is defined. -/
theorem lower_scoped (hlower : net.lower options = .ok graph) :
    net.Scoped options net.operators graph := by
  obtain ⟨grown, _, _, hscoped, -, -, rfl⟩ := lower_follows (net.Scoped options) hlower
    (fun name type hname => ⟨by simpa [definedBy, hname] using names_startGraph name type, by simp⟩)
    fun _ _ _ _ hbefore hstep => hbefore.contributes (FlatOp.contributes_of_lower hstep)
  obtain ⟨⟨hdistinct, hdefined, hown, hleads, haliased⟩, hknown⟩ := hscoped
  exact ⟨⟨hdistinct, hdefined, hown, hleads, haliased⟩, hknown⟩

/-- A skipped softmax makes `likelihoods` another name for what the pooling writes. -/
theorem lower_scoped_threeLayers :
    ∃ graph, threeLayers.lower { inputSize := [3, 2, 1], softmax := .skip } = .ok graph ∧
      graph.tensorIds.entries = [("bias", .own 2), ("features", .own 10), ("filter", .own 1),
        ("image", .own 0), ("likelihoods", .own 20), ("pooled", .own 20)] ∧
      threeLayers.definedBy threeLayers.operators =
        ["image", "filter", "bias", "features", "pooled", "likelihoods"] ∧
      threeLayers.Scoped { inputSize := [3, 2, 1], softmax := .skip } threeLayers.operators
        graph := by
  have hentries : (fun graph : Graph => graph.tensorIds.entries) <$>
      threeLayers.lower { inputSize := [3, 2, 1], softmax := .skip } =
        .ok [("bias", .own 2), ("features", .own 10), ("filter", .own 1),
          ("image", .own 0), ("likelihoods", .own 20), ("pooled", .own 20)] := by
    rfl
  obtain ⟨graph, hlower, hnames⟩ := Checked.map_eq_ok_iff.mp hentries
  exact ⟨graph, hlower, hnames, rfl, lower_scoped hlower⟩

end FlatNet

end NetLowering
