import NetLowering.Lowering
import NetLowering.Proofs.Lowering.Assembly

/-!
# What lowering an operator does

`FlatOp.Grows` lists the ways in which one operator makes a graph grow;
`grows_of_lower` says that there are no others, and `lower_of_grows` that the
operator takes each of them.  A net that is lowered starts from the graph of its
input and grows by one such step for every operator, so `lower_preserves` carries
a property from the start to the finished graph.
-/

namespace NetLowering

open Checked

/-! ## Readings -/

theorem OperatorKind.type_of_ofType {type : String} {kind : OperatorKind}
    (hkind : OperatorKind.ofType type = .ok kind) : type = kind.type := by
  rw [ofType] at hkind
  cases hfind : all.find? fun kind => kind.type == type with
  | none => simp [hfind] at hkind
  | some found =>
      simp only [hfind, Except.ok.injEq] at hkind
      subst hkind
      have hfound := List.find?_some hfind
      exact (beq_iff_eq.mp hfound).symm

theorem OperatorKind.ofType_type (kind : OperatorKind) : ofType kind.type = .ok kind := by
  cases kind <;> rfl

theorem Graph.feed_eq_ok_iff {graph : Graph} {tensor : Tensor} {feed : Feed} :
    graph.feed tensor = .ok feed ↔
      graph.tensorIds.find? tensor.name = some feed.id ∧
        (∃ operand, graph.operand? feed.id = some operand ∧ operand.type = feed.type) ∧
        Axes.ofDims tensor.name feed.type.dims = .ok feed.axes := by
  simp only [Graph.feed, bind_eq_ok_iff, pure_eq_ok_iff, resolve_eq_ok_iff, typeOf_eq_ok_iff]
  constructor
  · rintro ⟨id, hid, type, htype, axes, haxes, rfl⟩
    exact ⟨hid, htype, haxes⟩
  · rintro ⟨hid, htype, haxes⟩
    exact ⟨_, hid, _, htype, _, haxes, rfl⟩

theorem Convolution.input_of_ofOperator {options : LoweringOptions} {graph : Graph}
    {operator : FlatOp} {convolution : Convolution}
    (hread : ofOperator options graph operator = .ok convolution) :
    ∃ source, operator.input 0 = .ok source ∧ graph.feed source = .ok convolution.input := by
  simp only [ofOperator, bind_eq_ok_iff, pure_eq_ok_iff] at hread
  obtain ⟨source, hsource, _, _, _, _, input, hinput, hrest⟩ := hread
  obtain ⟨_, _, _, _, _, _, _, _, _, _, rfl⟩ := hrest
  exact ⟨source, hsource, hinput⟩

theorem Pooling.input_of_ofOperator {graph : Graph} {operator : FlatOp} {pooling : Pooling}
    (hread : ofOperator graph operator = .ok pooling) :
    ∃ source, operator.input 0 = .ok source ∧ graph.feed source = .ok pooling.input := by
  simp only [ofOperator, bind_eq_ok_iff, pure_eq_ok_iff] at hread
  obtain ⟨source, hsource, input, hinput, _, _, _, _, _, _, rfl⟩ := hread
  exact ⟨source, hsource, hinput⟩

/-! ## One operator -/

/-- The ways in which an operator makes a graph grow. -/
inductive FlatOp.Grows (options : LoweringOptions) (operator : FlatOp) (graph next : Graph) :
    Prop where
  | convolution (convolution : Convolution)
      (type : operator.type = "Int8Conv" ∨ operator.type = "Int8ConvRelu")
      (read : Convolution.ofOperator options graph operator = .ok convolution)
      (added : graph.addLayer (convolution.layer options operator) = .ok next)
  | pooling (pooling : Pooling) (type : operator.type = "Int8AveragePool")
      (read : Pooling.ofOperator graph operator = .ok pooling)
      (added : graph.addLayer (pooling.layer options operator) = .ok next)
  | skipped (source : Tensor) (name : String) (input : OperandId)
      (type : operator.type = "Softmax") (policy : options.softmax = .skip)
      (read : operator.input 0 = .ok source) (written : operator.outputName = .ok name)
      (found : graph.tensorIds.find? source.name = some input)
      (named : graph.nameAs name input = .ok next)
  | softmax (source : Tensor) (name : String) (input : OperandId) (inputType : OperandType)
      (type : operator.type = "Softmax") (policy : options.softmax = .emit)
      (read : operator.input 0 = .ok source) (written : operator.outputName = .ok name)
      (found : graph.tensorIds.find? source.name = some input)
      (typed : graph.typeOf input = .ok inputType)
      (added : graph.addLayer (Softmax.layer options operator name input inputType) = .ok next)

theorem FlatOp.grows_of_lower {options : LoweringOptions} {operator : FlatOp}
    {graph next : Graph} (hlower : operator.lower options graph = .ok next) :
    operator.Grows options graph next := by
  rw [lower, bind_eq_ok_iff] at hlower
  obtain ⟨kind, hkind, hlower⟩ := hlower
  have htype := OperatorKind.type_of_ofType hkind
  cases kind with
  | conv =>
      obtain ⟨convolution, hread, hadded⟩ := bind_eq_ok_iff.mp hlower
      exact .convolution convolution (.inl htype) hread hadded
  | convRelu =>
      obtain ⟨convolution, hread, hadded⟩ := bind_eq_ok_iff.mp hlower
      exact .convolution convolution (.inr htype) hread hadded
  | averagePool =>
      obtain ⟨pooling, hread, hadded⟩ := bind_eq_ok_iff.mp hlower
      exact .pooling pooling htype hread hadded
  | softmax =>
      simp only [Softmax.lower, bind_eq_ok_iff, Graph.resolve_eq_ok_iff] at hlower
      obtain ⟨source, hread, name, hwritten, input, hfound, hlower⟩ := hlower
      cases hpolicy : options.softmax with
      | skip =>
          rw [hpolicy] at hlower
          exact .skipped source name input htype hpolicy hread hwritten hfound hlower
      | emit =>
          rw [hpolicy] at hlower
          obtain ⟨type, htyped, hadded⟩ := bind_eq_ok_iff.mp hlower
          exact .softmax source name input type htype hpolicy hread hwritten hfound htyped hadded

theorem FlatOp.lower_of_grows {options : LoweringOptions} {operator : FlatOp} {graph next : Graph}
    (hgrows : operator.Grows options graph next) : operator.lower options graph = .ok next := by
  have hkind (kind : OperatorKind) (htype : operator.type = kind.type) :
      OperatorKind.ofType operator.type = .ok kind := htype ▸ kind.ofType_type
  cases hgrows with
  | convolution convolution htype hread hadded =>
      rcases htype with htype | htype
      · rw [lower, hkind .conv htype, ok_bind]
        exact bind_eq_ok_iff.mpr ⟨convolution, hread, hadded⟩
      · rw [lower, hkind .convRelu htype, ok_bind]
        exact bind_eq_ok_iff.mpr ⟨convolution, hread, hadded⟩
  | pooling pooling htype hread hadded =>
      rw [lower, hkind .averagePool htype, ok_bind]
      exact bind_eq_ok_iff.mpr ⟨pooling, hread, hadded⟩
  | skipped source name input htype hpolicy hread hwritten hfound hnamed =>
      rw [lower, hkind .softmax htype, ok_bind]
      simp only [Softmax.lower, hread, hwritten, Graph.resolve_eq_ok_iff.mpr hfound, hpolicy,
        ok_bind]
      exact hnamed
  | softmax source name input type htype hpolicy hread hwritten hfound htyped hadded =>
      rw [lower, hkind .softmax htype, ok_bind]
      simp only [Softmax.lower, hread, hwritten, Graph.resolve_eq_ok_iff.mpr hfound, hpolicy,
        htyped, ok_bind]
      exact hadded

/-- Whatever the operator, the graph grows by a layer on a named operand, or a
named operand gets one more name. -/
theorem FlatOp.Grows.layer_or_name {options : LoweringOptions} {operator : FlatOp}
    {graph next : Graph} (hgrows : operator.Grows options graph next) :
    (∃ name layer, graph.tensorIds.find? name = some layer.input ∧
        graph.addLayer layer = .ok next) ∨
      ∃ name newName id, graph.tensorIds.find? name = some id ∧
        graph.nameAs newName id = .ok next := by
  cases hgrows with
  | convolution convolution _ hread hadded =>
      obtain ⟨source, -, hfeed⟩ := Convolution.input_of_ofOperator hread
      exact .inl ⟨source.name, _, (Graph.feed_eq_ok_iff.mp hfeed).1, hadded⟩
  | pooling pooling _ hread hadded =>
      obtain ⟨source, -, hfeed⟩ := Pooling.input_of_ofOperator hread
      exact .inl ⟨source.name, _, (Graph.feed_eq_ok_iff.mp hfeed).1, hadded⟩
  | skipped source name input _ _ _ _ hfound hnamed =>
      exact .inr ⟨source.name, name, input, hfound, hnamed⟩
  | softmax source _ _ _ _ _ _ _ hfound _ hadded =>
      exact .inl ⟨source.name, _, hfound, hadded⟩

/-! ## A whole net -/

namespace FlatNet

/-- The graph that holds nothing but a named input. -/
def startGraph (name : String) (type : OperandType) : Graph :=
  { Graph.empty with
    operands := [⟨some name, type⟩]
    tensorIds := Table.empty.insert name (.own 0) }

theorem inputGraph_eq_ok_iff {options : LoweringOptions} {first : FlatOp} {start : Graph} :
    inputGraph options first = .ok start ↔
      ∃ source type, first.input 0 = .ok source ∧ options.inputType first = .ok type ∧
        start = startGraph source.name type := by
  simp only [inputGraph, bind_eq_ok_iff, Graph.addTensor_eq_ok_iff]
  constructor
  · rintro ⟨source, hsource, type, htype, -, extended, hextended, rfl⟩
    cases hextended
    exact ⟨source, type, hsource, htype, rfl⟩
  · rintro ⟨source, type, hsource, htype, rfl⟩
    exact ⟨source, hsource, type, htype, rfl, _, rfl, rfl⟩

/-- The graph of a net: the start, grown by every operator, with its ends. -/
theorem lower_eq_ok_iff {options : LoweringOptions} {net : FlatNet} {graph : Graph} :
    net.lower options = .ok graph ↔
      ∃ first last start grown name output,
        net.operators.head? = some first ∧ net.operators.getLast? = some last ∧
        inputGraph options first = .ok start ∧
        net.operators.foldlM (FlatOp.lower options) start = .ok grown ∧
        last.outputName = .ok name ∧ grown.tensorIds.find? name = some output ∧
        graph = { grown with inputs := [.own 0], outputs := [output] } ∧
        graph.unknown? = none := by
  rw [lower]
  cases hfirst : net.operators.head? with
  | none => simp [throw, throwThe, MonadExceptOf.throw]
  | some first =>
      cases hlast : net.operators.getLast? with
      | none => simp [throw, throwThe, MonadExceptOf.throw]
      | some last =>
          simp only [bind_eq_ok_iff, Graph.resolve_eq_ok_iff, Option.some.injEq]
          constructor
          · rintro ⟨start, hstart, grown, hgrown, name, hname, output, houtput, hknown⟩
            split at hknown
            · cases hknown
            · rename_i hunknown
              rw [pure_eq_ok_iff] at hknown
              subst hknown
              exact ⟨_, _, start, grown, name, output, rfl, rfl, hstart, hgrown, hname,
                houtput, rfl, hunknown⟩
          · rintro ⟨_, _, start, grown, name, output, rfl, rfl, hstart, hgrown, hname,
              houtput, rfl, hunknown⟩
            refine ⟨start, hstart, grown, hgrown, name, hname, output, houtput, ?_⟩
            rw [Graph.nextId_eq]
            split
            · simp_all [Graph.empty]
            · rfl

/-- What a start from the net's input has and every operator preserves, the grown graph has. -/
theorem lower_preserves_from_input {options : LoweringOptions} {net : FlatNet} {graph : Graph}
    (Holds : Graph → Prop) (hlower : net.lower options = .ok graph)
    (hstart : ∀ first name type, options.inputType first = .ok type → Holds (startGraph name type))
    (hgrows : ∀ operator before after, operator ∈ net.operators → Holds before →
      operator.Grows options before after → Holds after) :
    ∃ grown name output, Holds grown ∧ grown.tensorIds.find? name = some output ∧
      graph = { grown with inputs := [.own 0], outputs := [output] } := by
  obtain ⟨first, last, start, grown, name, output, -, -, hinput, hrun, -, hname, hgraph, -⟩ :=
    lower_eq_ok_iff.mp hlower
  obtain ⟨source, type, -, htype, rfl⟩ := inputGraph_eq_ok_iff.mp hinput
  refine ⟨grown, name, output, ?_, hname, hgraph⟩
  refine foldlM_preserves ?_ (hstart first source.name type htype) hrun
  intro before operator after hmem hbefore hstep
  exact hgrows operator before after hmem hbefore (FlatOp.grows_of_lower hstep)

/-- What any start has and every operator preserves, the grown graph has. -/
theorem lower_preserves {options : LoweringOptions} {net : FlatNet} {graph : Graph}
    (Holds : Graph → Prop) (hlower : net.lower options = .ok graph)
    (hstart : ∀ name type, Holds (startGraph name type))
    (hgrows : ∀ operator before after, operator ∈ net.operators → Holds before →
      operator.Grows options before after → Holds after) :
    ∃ grown name output, Holds grown ∧ grown.tensorIds.find? name = some output ∧
      graph = { grown with inputs := [.own 0], outputs := [output] } :=
  lower_preserves_from_input Holds hlower (fun _ name type _ => hstart name type) hgrows

end FlatNet

end NetLowering
