import NetLowering.Load
import NetLowering.Proofs.Wire.Columns

/-!
# Nets and their spellings

What a net, an operator and an argument keep of the columns of their fields is said
place by place.  The bytes of a net spell its fields, and the operators and arguments
are spelled inside them, each one level deeper.  `Net.decode_eq_ok_iff_spelledBy` says
that a net is read from all of its spellings and from no other bytes.
-/

namespace NetLowering

open Wire Payload

/-! ## Arguments -/

/-- What an argument keeps of the columns of its fields. -/
structure Argument.MadeOf (argument : Argument) (columns : Columns) : Prop where
  name : Last CarriesText (columns 1) argument.name
  float : Last CarriesSingle (columns 2) argument.float
  int : Last CarriesInt (columns 3) argument.int
  bytes : Last CarriesBytes (columns 4) argument.bytes
  floats : Joined CarriesSingles (columns 5) argument.floats
  ints : Joined CarriesInts (columns 6) argument.ints
  strings : All CarriesBytes (columns 7) argument.strings
  net : Last CarriesBytes (columns 8) argument.net
  nets : All CarriesBytes (columns 9) argument.nets
  tensor : Last CarriesBytes (columns 10) argument.tensor
  tensors : All CarriesBytes (columns 11) argument.tensors
  qtensors : All CarriesBytes (columns 12) argument.qtensors

namespace Argument

def SpelledBy : Nat → Argument → Bytes → Prop := Wire.SpelledBy MadeOf

theorem knows : Knows MadeOf [1, 2, 3, 4, 5, 6, 7, 8, 9, 10, 11, 12] := by
  intro argument columns others hsame hmade
  cases hmade
  constructor <;> rw [hsame _ (by decide)] <;> assumption

theorem madeOf_nil_iff {argument : Argument} : argument.MadeOf (fun _ => []) ↔ argument = {} := by
  constructor
  · intro hmade
    cases hmade
    cases argument
    simp_all
  · rintro rfl
    constructor <;> simp

theorem madeOf_add_iff {columns : Columns} {field : Field} {next : Argument}
    (hfits : field.payload.Fits) :
    next.MadeOf (columns.add field.tag field.payload) ↔
      ∃ argument : Argument, argument.MadeOf columns ∧ argument.collect field = some next := by
  obtain ⟨tag, payload⟩ := field
  match tag with
  | 1 =>
      have hslot : Slot MadeOf 1 (Last CarriesText) (·.name) fun argument kept =>
          { argument with name := kept } :=
        .mk (·.name) fun hmade hkept => { hmade with name := hkept }
      exact hslot.concat_iff (adds_last _) text?_eq_some_iff
  | 2 =>
      have hslot : Slot MadeOf 2 (Last CarriesSingle) (·.float) fun argument kept =>
          { argument with float := kept } :=
        .mk (·.float) fun hmade hkept => { hmade with float := hkept }
      exact hslot.concat_iff (adds_last _) (single?_eq_some_iff hfits)
  | 3 =>
      have hslot : Slot MadeOf 3 (Last CarriesInt) (·.int) fun argument kept =>
          { argument with int := kept } :=
        .mk (·.int) fun hmade hkept => { hmade with int := hkept }
      exact hslot.concat_iff (adds_last _) (int?_eq_some_iff hfits)
  | 4 =>
      have hslot : Slot MadeOf 4 (Last CarriesBytes) (·.bytes) fun argument kept =>
          { argument with bytes := kept } :=
        .mk (·.bytes) fun hmade hkept => { hmade with bytes := hkept }
      exact hslot.concat_iff (adds_last _) bytes?_eq_some_iff
  | 5 =>
      have hslot : Slot MadeOf 5 (Joined CarriesSingles) (·.floats) fun argument kept =>
          { argument with floats := kept } :=
        .mk (·.floats) fun hmade hkept => { hmade with floats := hkept }
      exact hslot.concat_iff (adds_joined _) (singles?_eq_some_iff hfits)
  | 6 =>
      have hslot : Slot MadeOf 6 (Joined CarriesInts) (·.ints) fun argument kept =>
          { argument with ints := kept } :=
        .mk (·.ints) fun hmade hkept => { hmade with ints := hkept }
      exact hslot.concat_iff (adds_joined _) (ints?_eq_some_iff hfits)
  | 7 =>
      have hslot : Slot MadeOf 7 (All CarriesBytes) (·.strings) fun argument kept =>
          { argument with strings := kept } :=
        .mk (·.strings) fun hmade hkept => { hmade with strings := hkept }
      exact hslot.concat_iff (adds_all _) bytes?_eq_some_iff
  | 8 =>
      have hslot : Slot MadeOf 8 (Last CarriesBytes) (·.net) fun argument kept =>
          { argument with net := kept } :=
        .mk (·.net) fun hmade hkept => { hmade with net := hkept }
      exact hslot.concat_iff (adds_last _) bytes?_eq_some_iff
  | 9 =>
      have hslot : Slot MadeOf 9 (All CarriesBytes) (·.nets) fun argument kept =>
          { argument with nets := kept } :=
        .mk (·.nets) fun hmade hkept => { hmade with nets := hkept }
      exact hslot.concat_iff (adds_all _) bytes?_eq_some_iff
  | 10 =>
      have hslot : Slot MadeOf 10 (Last CarriesBytes) (·.tensor) fun argument kept =>
          { argument with tensor := kept } :=
        .mk (·.tensor) fun hmade hkept => { hmade with tensor := hkept }
      exact hslot.concat_iff (adds_last _) bytes?_eq_some_iff
  | 11 =>
      have hslot : Slot MadeOf 11 (All CarriesBytes) (·.tensors) fun argument kept =>
          { argument with tensors := kept } :=
        .mk (·.tensors) fun hmade hkept => { hmade with tensors := hkept }
      exact hslot.concat_iff (adds_all _) bytes?_eq_some_iff
  | 12 =>
      have hslot : Slot MadeOf 12 (All CarriesBytes) (·.qtensors) fun argument kept =>
          { argument with qtensors := kept } :=
        .mk (·.qtensors) fun hmade hkept => { hmade with qtensors := hkept }
      exact hslot.concat_iff (adds_all _) bytes?_eq_some_iff
  | 0 | _ + 13 => exact knows.concat_iff (by simp)

theorem ofBytes_eq_some_iff {budget : Nat} {bytes : Bytes} {argument : Argument} :
    ofBytes budget bytes = some argument ↔ argument.SpelledBy budget bytes :=
  Collects.read_eq_some_iff ⟨madeOf_nil_iff, madeOf_add_iff⟩

end Argument

/-! ## Operators -/

/-- What an operator keeps of the columns of its fields; arguments are spelled a level deeper. -/
structure NetOperator.MadeOf (budget : Nat) (operator : NetOperator) (columns : Columns) :
    Prop where
  inputs : All CarriesText (columns 1) operator.inputs
  outputs : All CarriesText (columns 2) operator.outputs
  name : Last CarriesText (columns 3) operator.name
  type : Last CarriesText (columns 4) operator.type
  arguments : All (CarriesMessage (Argument.SpelledBy (budget - 1))) (columns 5) operator.arguments
  engine : Last CarriesText (columns 7) operator.engine

namespace NetOperator

variable {budget : Nat}

def SpelledBy (budget : Nat) : NetOperator → Bytes → Prop := Wire.SpelledBy (MadeOf budget) budget

theorem knows : Knows (MadeOf budget) [1, 2, 3, 4, 5, 7] := by
  intro operator columns others hsame hmade
  cases hmade
  constructor <;> rw [hsame _ (by decide)] <;> assumption

theorem madeOf_nil_iff {operator : NetOperator} :
    operator.MadeOf budget (fun _ => []) ↔ operator = {} := by
  constructor
  · intro hmade
    cases hmade
    cases operator
    simp_all
  · rintro rfl
    constructor <;> simp

theorem madeOf_add_iff {columns : Columns} {field : Field} {next : NetOperator} :
    next.MadeOf budget (columns.add field.tag field.payload) ↔
      ∃ operator : NetOperator, operator.MadeOf budget columns ∧
        operator.collect budget field = some next := by
  obtain ⟨tag, payload⟩ := field
  match tag with
  | 1 =>
      have hslot : Slot (MadeOf budget) 1 (All CarriesText) (·.inputs) fun operator kept =>
          { operator with inputs := kept } :=
        .mk (·.inputs) fun hmade hkept => { hmade with inputs := hkept }
      exact hslot.concat_iff (adds_all _) text?_eq_some_iff
  | 2 =>
      have hslot : Slot (MadeOf budget) 2 (All CarriesText) (·.outputs) fun operator kept =>
          { operator with outputs := kept } :=
        .mk (·.outputs) fun hmade hkept => { hmade with outputs := hkept }
      exact hslot.concat_iff (adds_all _) text?_eq_some_iff
  | 3 =>
      have hslot : Slot (MadeOf budget) 3 (Last CarriesText) (·.name) fun operator kept =>
          { operator with name := kept } :=
        .mk (·.name) fun hmade hkept => { hmade with name := hkept }
      exact hslot.concat_iff (adds_last _) text?_eq_some_iff
  | 4 =>
      have hslot : Slot (MadeOf budget) 4 (Last CarriesText) (·.type) fun operator kept =>
          { operator with type := kept } :=
        .mk (·.type) fun hmade hkept => { hmade with type := hkept }
      exact hslot.concat_iff (adds_last _) text?_eq_some_iff
  | 5 =>
      have hslot : Slot (MadeOf budget) 5 (All (CarriesMessage (Argument.SpelledBy (budget - 1))))
          (·.arguments) fun operator kept => { operator with arguments := kept } :=
        .mk (·.arguments) fun hmade hkept => { hmade with arguments := hkept }
      exact hslot.concat_message_iff Argument.ofBytes_eq_some_iff
  | 7 =>
      have hslot : Slot (MadeOf budget) 7 (Last CarriesText) (·.engine) fun operator kept =>
          { operator with engine := kept } :=
        .mk (·.engine) fun hmade hkept => { hmade with engine := hkept }
      exact hslot.concat_iff (adds_last _) text?_eq_some_iff
  | 0 | 6 | _ + 8 => exact knows.concat_iff (by simp)

theorem ofBytes_eq_some_iff {bytes : Bytes} {operator : NetOperator} :
    ofBytes budget bytes = some operator ↔ operator.SpelledBy budget bytes :=
  Collects.read_eq_some_iff ⟨madeOf_nil_iff, fun _ => madeOf_add_iff⟩

end NetOperator

/-! ## Nets -/

/-- What a net keeps of the columns of its fields; operators and arguments are spelled a level
deeper. -/
structure Net.MadeOf (budget : Nat) (net : Net) (columns : Columns) : Prop where
  name : Last CarriesText (columns 1) net.name
  operators : All (CarriesMessage (NetOperator.SpelledBy (budget - 1))) (columns 2) net.operators
  type : Last CarriesText (columns 3) net.type
  arguments : All (CarriesMessage (Argument.SpelledBy (budget - 1))) (columns 6) net.arguments
  externalInputs : All CarriesText (columns 7) net.externalInputs
  externalOutputs : All CarriesText (columns 8) net.externalOutputs

namespace Net

variable {budget : Nat}

def SpelledBy : Net → Bytes → Prop := Wire.SpelledBy (MadeOf nestingBudget) nestingBudget

theorem knows : Knows (MadeOf budget) [1, 2, 3, 6, 7, 8] := by
  intro net columns others hsame hmade
  cases hmade
  constructor <;> rw [hsame _ (by decide)] <;> assumption

theorem madeOf_nil_iff {net : Net} : net.MadeOf budget (fun _ => []) ↔ net = {} := by
  constructor
  · intro hmade
    cases hmade
    cases net
    simp_all
  · rintro rfl
    constructor <;> simp

theorem madeOf_add_iff {columns : Columns} {field : Field} {next : Net} :
    next.MadeOf budget (columns.add field.tag field.payload) ↔
      ∃ net : Net, net.MadeOf budget columns ∧ net.collect budget field = some next := by
  obtain ⟨tag, payload⟩ := field
  match tag with
  | 1 =>
      have hslot : Slot (MadeOf budget) 1 (Last CarriesText) (·.name) fun net kept =>
          { net with name := kept } :=
        .mk (·.name) fun hmade hkept => { hmade with name := hkept }
      exact hslot.concat_iff (adds_last _) text?_eq_some_iff
  | 2 =>
      have hslot : Slot (MadeOf budget) 2
          (All (CarriesMessage (NetOperator.SpelledBy (budget - 1)))) (·.operators) fun net kept =>
          { net with operators := kept } :=
        .mk (·.operators) fun hmade hkept => { hmade with operators := hkept }
      exact hslot.concat_message_iff NetOperator.ofBytes_eq_some_iff
  | 3 =>
      have hslot : Slot (MadeOf budget) 3 (Last CarriesText) (·.type) fun net kept =>
          { net with type := kept } :=
        .mk (·.type) fun hmade hkept => { hmade with type := hkept }
      exact hslot.concat_iff (adds_last _) text?_eq_some_iff
  | 6 =>
      have hslot : Slot (MadeOf budget) 6 (All (CarriesMessage (Argument.SpelledBy (budget - 1))))
          (·.arguments) fun net kept => { net with arguments := kept } :=
        .mk (·.arguments) fun hmade hkept => { hmade with arguments := hkept }
      exact hslot.concat_message_iff Argument.ofBytes_eq_some_iff
  | 7 =>
      have hslot : Slot (MadeOf budget) 7 (All CarriesText) (·.externalInputs) fun net kept =>
          { net with externalInputs := kept } :=
        .mk (·.externalInputs) fun hmade hkept => { hmade with externalInputs := hkept }
      exact hslot.concat_iff (adds_all _) text?_eq_some_iff
  | 8 =>
      have hslot : Slot (MadeOf budget) 8 (All CarriesText) (·.externalOutputs) fun net kept =>
          { net with externalOutputs := kept } :=
        .mk (·.externalOutputs) fun hmade hkept => { hmade with externalOutputs := hkept }
      exact hslot.concat_iff (adds_all _) text?_eq_some_iff
  | 0 | 4 | 5 | _ + 9 => exact knows.concat_iff (by simp)

theorem ofBytes_eq_some_iff {bytes : Bytes} {net : Net} :
    ofBytes bytes = some net ↔ net.SpelledBy bytes :=
  Collects.read_eq_some_iff ⟨madeOf_nil_iff, fun _ => madeOf_add_iff⟩

/-- A net is read from its spellings and from no other bytes. -/
theorem decode_eq_ok_iff_spelledBy {bytes : Bytes} {net : Net} :
    decode bytes = .ok net ↔ net.SpelledBy bytes :=
  decode_eq_ok_iff.trans ofBytes_eq_some_iff

/-- The name is given twice, its second key and length are padded, a group with a group inside
comes in between, and the argument of the operator has packed integers before a single one. -/
example : decode
    [10, 1, 98, 138, 0, 129, 0, 97, 123, 8, 5, 19, 20, 124, 18, 25, 42, 20, 50, 10, 255, 255, 255,
      255, 255, 255, 255, 255, 255, 1, 109, 0, 0, 0, 0, 48, 129, 0, 34, 1, 116] =
    .ok {
      name := some "a"
      operators := [{ type := some "t", arguments := [{ ints := [-1, 1] }] }] } := by
  decide +kernel

end Net

end NetLowering
