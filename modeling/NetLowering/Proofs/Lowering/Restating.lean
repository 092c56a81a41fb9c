import NetLowering.Proofs.FlatNet.Loadable
import NetLowering.Proofs.Lowering.Renaming

/-!
# Operators that state the same

In a channel-first net every value of four elements is permuted, except for `pads`.
No operator is lowered differently for it: what is read from an argument has one
element or two, or it is `pads`, so a permuted value is refused either way.  Operators
that state the same values, whatever the layouts of their nets and the names of
their tensors, are lowered to the same graph up to these names (`FlatNet.maps_lower`).
-/

namespace NetLowering

open Checked

/-! ## Restated values -/

/-- What an argument of this name has in a net of this layout, if it states `value`. -/
def Layout.restated (layout : Layout) (name : String) (value : Value) : Value :=
  if layout = .channelFirst ∧ name ≠ "pads" then value.channelsLast else value

theorem size_channelsLast (axes : Array α) : (channelsLast axes).size = axes.size := by
  obtain ⟨_ | ⟨n, _ | ⟨c, _ | ⟨h, _ | ⟨w, _ | ⟨more, rest⟩⟩⟩⟩⟩⟩ := axes <;> rfl

theorem channelsLast_of_size {axes : Array α} (hsize : axes.size ≠ 4) :
    channelsLast axes = axes := by
  obtain ⟨_ | ⟨n, _ | ⟨c, _ | ⟨h, _ | ⟨w, _ | ⟨more, rest⟩⟩⟩⟩⟩⟩ := axes
  case cons.cons.cons.cons.nil => exact absurd rfl hsize
  all_goals rfl

namespace Value

variable {value : Value}

theorem size_channelsLast (value : Value) : value.channelsLast.size = value.size := by
  cases value with
  | text content => rfl
  | numbers buffer => cases buffer <;> exact NetLowering.size_channelsLast _

theorem channelsLast_of_size (hsize : value.size ≠ 4) : value.channelsLast = value := by
  cases value with
  | text content => rfl
  | numbers buffer =>
      cases buffer <;>
        simp only [channelsLast, Buffer.rearrange, NetLowering.channelsLast_of_size hsize] <;> rfl

theorem ints?_of_size (hsize : value.size = 4) :
    value.ints? = none ∨ ∃ a b c d, value.ints? = some #[a, b, c, d] := by
  cases hints : value.ints? with
  | none => exact .inl rfl
  | some sizes =>
      rw [ints?_eq_some_iff.mp hints] at hsize
      obtain ⟨sizes⟩ := sizes
      obtain ⟨a, b, c, d, rfl⟩ := List.length_eq_four.mp hsize
      exact .inr ⟨a, b, c, d, rfl⟩

theorem int?_of_size (hsize : value.size = 4) : value.int? = none := by
  rcases ints?_of_size hsize with hints | ⟨a, b, c, d, hints⟩
  · rw [int?, hints]
  · rw [int?, hints]
    rfl

theorem single?_of_size (hsize : value.size = 4) : value.single? = none := by
  cases value with
  | text content => rfl
  | numbers buffer =>
      have hlength : buffer.singles.length = 4 := (Buffer.length_singles buffer).trans hsize
      obtain ⟨_, _, _, _, hsingles⟩ := List.length_eq_four.mp hlength
      rw [single?, buffer?, Option.map_some, hsingles]

end Value

/-- A reading that refuses what can be permuted reads the same from every layout. -/
theorem Layout.read_restated {read : Value → Option α} {name : String}
    (hrefuses : name ≠ "pads" → ∀ value, value.size = 4 → read value = none) (layout : Layout)
    (value : Value) : read (layout.restated name value) = read value := by
  rw [restated]
  split
  · rename_i hpermuted
    -- Four elements are refused in any order, and any other number of them stays as it is.
    by_cases hsize : value.size = 4
    · rw [hrefuses hpermuted.2 value hsize,
        hrefuses hpermuted.2 _ ((Value.size_channelsLast value).trans hsize)]
    · rw [Value.channelsLast_of_size hsize]
  · rfl

/-- Both tables have the values of the same arguments, each as its layout has them; what the order
is may differ. -/
def Table.Restates (layout otherLayout : Layout) (table other : Table String Value) : Prop :=
  ∀ name ≠ "order", ∃ stated : Option Value,
    table.find? name = stated.map (layout.restated name) ∧
    other.find? name = stated.map (otherLayout.restated name)

/-- The second operator is the first one under other tensor names and in another layout. -/
structure FlatOp.Restates (rename : String → String) (layout otherLayout : Layout)
    (operator other : FlatOp) : Prop where
  kept : other = { operator with
    inputs := operator.inputs.map (Tensor.renamed rename)
    outputs := operator.outputs.map rename
    arguments := other.arguments }
  arguments : operator.arguments.Restates layout otherLayout other.arguments

/-! ## Arguments -/

variable {rename : String → String} {layout otherLayout : Layout} {operator other : FlatOp}
  {name : String}

namespace FlatOp.Restates

variable (hrestates : operator.Restates rename layout otherLayout other)

include hrestates

theorem input (index : Nat) :
    Maps (Tensor.renamed rename) (operator.input index) (other.input index) := by
  rw [FlatOp.input, FlatOp.input, hrestates.kept, List.getElem?_map]
  cases operator.inputs[index]? with
  | none => exact .refused _ _
  | some tensor => exact .done rfl

theorem outputName : Maps rename operator.outputName other.outputName := by
  rw [FlatOp.outputName, FlatOp.outputName, hrestates.kept, List.head?_map]
  cases operator.outputs.head? with
  | none => exact .refused _ _
  | some name => exact .done rfl

theorem optional {read : Value → Option α} (hname : name ≠ "order")
    (hrefuses : name ≠ "pads" → ∀ value, value.size = 4 → read value = none)
    (fault : Value → ArgumentFault) :
    Matches Eq (operator.optional name read fault) (other.optional name read fault) := by
  obtain ⟨stated, hfirst, hsecond⟩ := hrestates.arguments name hname
  rw [FlatOp.optional, FlatOp.optional, hfirst, hsecond]
  cases stated with
  | none => exact .done rfl
  | some value =>
      simp only [Option.map_some, Layout.read_restated hrefuses]
      cases read value with
      | none => exact .refused _ _
      | some content => exact .done rfl

theorem int? (hname : name ≠ "order") : Matches Eq (operator.int? name) (other.int? name) :=
  hrestates.optional hname (fun _ _ => Value.int?_of_size) _

theorem single? (hname : name ≠ "order") :
    Matches Eq (operator.single? name) (other.single? name) :=
  hrestates.optional hname (fun _ _ => Value.single?_of_size) _

theorem activation : Matches Eq operator.activation other.activation :=
  (hrestates.single? (by decide)).bind_eq fun _ =>
    (hrestates.single? (by decide)).bind_eq fun _ => matches_self _

theorem outputQuant (scale : Single) (zeroPoint : Int32) :
    Matches Eq (operator.outputQuant scale zeroPoint) (other.outputQuant scale zeroPoint) :=
  (hrestates.single? (by decide)).bind_eq fun _ =>
    (hrestates.int? (by decide)).bind_eq fun _ => matches_self _

theorem outputType (options : LoweringOptions) (code : OperandCode) (dims : List UInt32)
    (scale : Single) (zeroPoint : Int32) :
    Matches Eq (operator.outputType options code dims scale zeroPoint)
      (other.outputType options code dims scale zeroPoint) := by
  rw [FlatOp.outputType, FlatOp.outputType]
  refine matches_ite (fun _ => ?_) fun _ => .done rfl
  exact (hrestates.outputQuant scale zeroPoint).bind_eq fun quant => matches_self _

end FlatOp.Restates

/-! ## Windows -/

theorem FlatOp.matches_required (operator other : FlatOp) (name : String) (found : Option α) :
    Matches Eq (operator.required name found) (other.required name found) := by
  cases found with
  | none => exact .refused _ _
  | some content => exact .done rfl

theorem Extent.matches_checkPositive (extent : Extent) (operator other : FlatOp) (name : String) :
    Matches Eq (extent.checkPositive operator name) (extent.checkPositive other name) := by
  unfold checkPositive
  split
  · exact .refused _ _
  · exact .done rfl

theorem Window.matches_outputAxes (window : Window) (operator other : FlatOp) (input : Axes)
    (channels : UInt32) : Matches Eq (window.outputAxes operator input channels)
      (window.outputAxes other input channels) := by
  simp only [outputAxes]
  split
  · exact matches_ite (fun _ => .done rfl) fun _ => .refused _ _
  · exact .refused _ _

namespace FlatOp.Restates

variable (hrestates : operator.Restates rename layout otherLayout other)

include hrestates

theorem extent {sideName : String} (hname : name ≠ "order") (hside : sideName ≠ "order") :
    Matches Eq (Extent.ofOperator? operator name sideName)
      (Extent.ofOperator? other name sideName) := by
  refine (hrestates.optional hname ?_ _).bind_eq fun pair => ?_
  · intro _ value hsize
    rcases Value.ints?_of_size hsize with hints | ⟨a, b, c, d, hints⟩
    · rw [hints]
    · rw [hints]
      rfl
  · cases pair with
    | none => exact (hrestates.int? hside).bind_eq fun _ => matches_self _
    | some extent => exact .done rfl

theorem pads : Matches Eq (Pads.ofOperator operator) (Pads.ofOperator other) := by
  have hgiven : Matches Eq (Pads.given operator) (Pads.given other) := by
    refine (hrestates.optional (by decide) (absurd rfl) _).bind_eq fun sides => ?_
    cases sides with
    | none => exact (hrestates.int? (by decide)).bind_eq fun _ => matches_self _
    | some pads => exact .done rfl
  refine hgiven.bind_eq fun pads => ?_
  split
  · exact .refused _ _
  · exact .done rfl

theorem window (defaultKernel : Option Extent) :
    Matches Eq (Window.ofOperator operator defaultKernel)
      (Window.ofOperator other defaultKernel) := by
  rw [Window.ofOperator, Window.ofOperator]
  refine (hrestates.extent (by decide) (by decide)).bind_eq fun givenKernel => ?_
  refine (operator.matches_required other _ _).bind_eq fun kernel => ?_
  refine (hrestates.extent (by decide) (by decide)).bind_eq fun givenStride => ?_
  refine hrestates.pads.bind_eq fun pads => ?_
  refine (kernel.matches_checkPositive operator other _).bind_eq fun _ => ?_
  exact (Extent.matches_checkPositive _ operator other _).bind_eq fun _ => .done rfl

theorem group : Matches Eq operator.group other.group := by
  rw [FlatOp.group, FlatOp.group]
  refine (hrestates.int? (by decide)).bind_eq fun given => ?_
  exact matches_ite (fun _ => .refused _ _) fun _ => .done rfl

theorem filter (tensor : Tensor) (channels : UInt32) :
    Matches Eq (Filter.ofTensor operator tensor channels)
      (Filter.ofTensor other (tensor.renamed rename) channels) := by
  rw [Filter.ofTensor, Filter.ofTensor]
  refine (tensor.matches_requireDims rename).bind_eq fun dims => ?_
  refine (tensor.matches_requireData rename).bind_eq fun values => ?_
  refine hrestates.group.bind_eq fun group => ?_
  refine matches_ite (fun _ => ?_) fun _ => .done rfl
  exact matches_ite (fun _ => .refused _ _) fun _ => Filter.matches_repack _ _ group dims values

end FlatOp.Restates

/-! ## Layers -/

namespace Convolution

def renamed (rename : String → String) (convolution : Convolution) : Convolution :=
  { convolution with
    filter := convolution.filter.renamed rename
    bias := convolution.bias.renamed rename }

end Convolution

theorem Param.map_renamed_ints (numbers : List Int32) :
    (numbers.map Param.int).map (Param.renamed rename) = numbers.map .int := by
  rw [List.map_map]
  rfl

section Lowering

variable (hinjective : Function.Injective rename)
  (hrestates : operator.Restates rename layout otherLayout other) (options : LoweringOptions)

include hrestates

theorem Convolution.renames_layer (convolution : Convolution) :
    (convolution.layer options operator).Renames rename
      ((convolution.renamed rename).layer options other) where
  code := rfl
  input := rfl
  params := by
    simp only [layer, params, renamed, List.map_cons, Param.map_renamed_ints]
    rfl
  output := by
    refine (Window.matches_outputAxes _ operator other _ _).bind_eq fun axes => ?_
    refine (hrestates.outputType options _ _ _ _).bind_eq fun type => ?_
    exact hrestates.outputName.bind fun name => .done rfl

theorem Pooling.renames_layer (pooling : Pooling) :
    (pooling.layer options operator).Renames rename (pooling.layer options other) where
  code := rfl
  input := rfl
  params := (Param.map_renamed_ints _).symm
  output := by
    refine (Window.matches_outputAxes _ operator other _ _).bind_eq fun axes => ?_
    refine (hrestates.outputType options _ _ _ _).bind_eq fun type => ?_
    exact hrestates.outputName.bind fun name => .done rfl

theorem Softmax.renames_layer (name : String) (input : OperandId) (type : OperandType) :
    (layer options operator name input type).Renames rename
      (layer options other (rename name) input type) where
  code := rfl
  input := rfl
  params := rfl
  output := (hrestates.outputType options _ _ _ _).bind_eq fun _ => .done rfl

include hinjective

theorem Convolution.maps_ofOperator (graph : Graph) :
    Maps (renamed rename) (ofOperator options graph operator)
      (ofOperator options (graph.renamed rename) other) := by
  rw [ofOperator, ofOperator]
  refine (hrestates.input 0).bind fun source => ?_
  refine (hrestates.input 1).bind fun filterTensor => ?_
  refine (hrestates.input 2).bind fun biasTensor => ?_
  refine (Graph.matches_feed hinjective graph source).bind_eq fun input => ?_
  refine (hrestates.filter filterTensor _).bind_eq fun filter => ?_
  refine (hrestates.window none).bind_eq fun window => ?_
  refine hrestates.activation.bind_eq fun activation => ?_
  refine (filter.maps_param options filterTensor _).bind fun param => ?_
  exact (Bias.maps_ofTensor options biasTensor filterTensor).bind fun bias => .done rfl

omit options in
theorem Pooling.matches_ofOperator (graph : Graph) :
    Matches Eq (ofOperator graph operator) (ofOperator (graph.renamed rename) other) := by
  rw [ofOperator, ofOperator]
  refine (hrestates.input 0).bind fun source => ?_
  refine (Graph.matches_feed hinjective graph source).bind_eq fun input => ?_
  have hglobal : Matches Eq (isGlobal operator) (isGlobal other) :=
    (hrestates.int? (by decide)).bind_eq fun _ => .done rfl
  refine hglobal.bind_eq fun isGlobal => ?_
  refine (hrestates.window _).bind_eq fun window => ?_
  exact hrestates.activation.bind_eq fun activation => .done rfl

/-! ## Runs -/

theorem Softmax.maps_lower (graph : Graph) :
    Maps (Graph.renamed rename) (lower options graph operator)
      (lower options (graph.renamed rename) other) := by
  rw [lower, lower]
  refine (hrestates.input 0).bind fun source => ?_
  refine hrestates.outputName.bind fun name => ?_
  refine (Graph.matches_resolve hinjective graph source.name).bind_eq fun input => ?_
  cases options.softmax with
  | skip => exact Graph.maps_nameAs hinjective graph name input
  | emit =>
      rw [Graph.typeOf_renamed]
      refine (matches_self _).bind_eq fun type => ?_
      exact Graph.maps_addLayer hinjective (Softmax.renames_layer hrestates options name input type)
        graph

theorem FlatOp.maps_lower (graph : Graph) :
    Maps (Graph.renamed rename) (operator.lower options graph)
      (other.lower options (graph.renamed rename)) := by
  have htype : other.type = operator.type := by rw [hrestates.kept]
  rw [lower, lower, htype]
  refine (matches_self _).bind_eq fun kind => ?_
  cases kind with
  | conv | convRelu =>
      exact (Convolution.maps_ofOperator hinjective hrestates options graph).bind
        fun convolution => Graph.maps_addLayer hinjective
          (convolution.renames_layer hrestates options) graph
  | averagePool =>
      exact (Pooling.matches_ofOperator hinjective hrestates graph).bind_eq fun pooling =>
        Graph.maps_addLayer hinjective (pooling.renames_layer hrestates options) graph
  | softmax => exact Softmax.maps_lower hinjective hrestates options graph

theorem FlatNet.maps_inputGraph :
    Maps (Graph.renamed rename) (inputGraph options operator) (inputGraph options other) := by
  have htype : Matches Eq (options.inputType operator) (options.inputType other) := by
    rw [LoweringOptions.inputType, LoweringOptions.inputType]
    refine (matches_self _).bind_eq fun dims => ?_
    refine matches_ite (fun _ => ?_) fun _ => .done rfl
    refine (hrestates.single? (by decide)).bind_eq fun givenScale => ?_
    refine (operator.matches_required other _ _).bind_eq fun scale => ?_
    refine matches_ite (fun _ => .done rfl) fun _ => ?_
    refine (hrestates.int? (by decide)).bind_eq fun givenZeroPoint => ?_
    exact (operator.matches_required other _ _).bind_eq fun zeroPoint => .done rfl
  rw [inputGraph, inputGraph]
  refine (hrestates.input 0).bind fun source => ?_
  refine htype.bind_eq fun type => ?_
  exact Graph.maps_addTensor hinjective Graph.empty source.name type

end Lowering

theorem forall₂_getLast? {ι κ : Type} {L : ι → κ → Prop} {items : List ι} {partners : List κ}
    (hitems : List.Forall₂ L items partners) :
    Option.Rel L items.getLast? partners.getLast? := by
  rw [List.getLast?_eq_head?_reverse, List.getLast?_eq_head?_reverse]
  have hreversed := List.forall₂_reverse_iff.mpr hitems
  generalize items.reverse = latest, partners.reverse = latestPartners at hreversed ⊢
  cases hreversed with
  | nil => exact .none
  | cons hlast _ => exact .some hlast

/-- Nets whose operators state the same are lowered to the same graph, up to the names. -/
theorem FlatNet.maps_lower (hinjective : Function.Injective rename) {net otherNet : FlatNet}
    (hoperators : List.Forall₂ (FlatOp.Restates rename layout otherLayout) net.operators
      otherNet.operators) (options : LoweringOptions) :
    Maps (Graph.renamed rename) (net.lower options) (otherNet.lower options) := by
  rw [lower, lower]
  have hlast := forall₂_getLast? hoperators
  generalize net.operators = operators, otherNet.operators = others at hoperators hlast ⊢
  generalize operators.getLast? = last, others.getLast? = otherLast at hlast ⊢
  cases hoperators with
  | nil => exact .refused _ _
  | @cons first partner rest others hfirst hrest => 
  cases hlast with
  | none => exact .refused _ _
  | @some last otherLast hlast =>
      refine (maps_inputGraph hinjective hfirst options).bind fun start => ?_
      have hrun : Maps (Graph.renamed rename)
          ((first :: rest).foldlM (FlatOp.lower options) start)
          ((partner :: others).foldlM (FlatOp.lower options) (start.renamed rename)) := by
        refine Matches.foldlM ?_ (.cons hfirst hrest) rfl
        rintro graph _ operator other rfl hrestates
        exact FlatOp.maps_lower hinjective hrestates options graph
      refine hrun.bind fun grown => ?_
      refine hlast.outputName.bind fun name => ?_
      refine (Graph.matches_resolve hinjective grown name).bind_eq fun output => ?_
      have hends : { grown.renamed rename with
            inputs := [Graph.empty.nextId], outputs := [output] } =
          Graph.renamed rename
            { grown with inputs := [Graph.empty.nextId], outputs := [output] } := rfl
      simp only [hends, Graph.unknown?_renamed]
      split
      · exact .refused _ _
      · exact .done rfl

end NetLowering
