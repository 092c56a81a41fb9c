import Mathlib.Data.List.Basic
import NetLowering.Graph

/-!
# The lines of a graph

A graph is rendered on one line for each operand and each operation, and one more.  Names
and values are written without line breaks, whatever they are, so nothing else can end a
line: the text splits into these lines again (`render_lines`).
-/

namespace NetLowering

/-- The text does not break the line. -/
def OneLine (text : String) : Prop := '\n' ∉ text.toList

instance : DecidablePred OneLine := fun text => inferInstanceAs (Decidable ('\n' ∉ text.toList))

/-! ## Numbers -/

theorem newline_notMem_toDigits (base : Nat) (hbase : 1 < base) (hdigits : base ≤ 16)
    (number : Nat) : '\n' ∉ Nat.toDigits base number := by
  have hdigit (digit : Nat) (hsmall : digit < base) : '\n' ≠ digit.digitChar := by
    have hall : ∀ digit : Fin 16, '\n' ≠ digit.val.digitChar := by decide
    exact hall ⟨digit, by omega⟩
  induction number using Nat.strongRecOn with
  | ind number ih =>
      by_cases hsmall : number < base
      · rw [Nat.toDigits_of_lt_base hsmall, List.mem_singleton]
        exact hdigit number hsmall
      · have hlarge : base ≤ number := Nat.le_of_not_lt hsmall
        rw [Nat.toDigits_of_base_le hbase hlarge, List.mem_append, List.mem_singleton, not_or]
        exact ⟨ih _ (Nat.div_lt_self (by omega) hbase),
          hdigit _ (Nat.mod_lt number (by omega))⟩

theorem oneLine_nat (number : Nat) : OneLine (toString number) := by
  change '\n' ∉ number.repr.toList
  rw [Nat.toList_repr]
  exact newline_notMem_toDigits 10 (by decide) (by decide) number

/-! ## Text -/

theorem newline_notMem_escapeChar (char : Char) : '\n' ∉ Text.escapeChar char := by
  fun_cases Text.escapeChar char with
  | case1 | case2 | case3 | case4 | case5 | case6 => decide
  | case7 char _ _ hnewline =>
      rw [List.mem_singleton]
      exact fun hchar => hnewline hchar.symm
  | case8 char =>
      have hdigits := newline_notMem_toDigits 16 (by decide) (by decide) char.toNat
      simp [hdigits]

namespace OneLine

variable {first second separator : String} {parts : List String}

theorem append (hfirst : OneLine first) (hsecond : OneLine second) : OneLine (first ++ second) := by
  rw [OneLine, String.toList_append, List.mem_append, not_or]
  exact ⟨hfirst, hsecond⟩

theorem ofList {chars : List Char} (hchars : '\n' ∉ chars) : OneLine (String.ofList chars) := by
  rwa [OneLine, String.toList_ofList]

theorem int (number : Int) : OneLine (toString number) := by
  cases number with
  | ofNat number => exact oneLine_nat number
  | negSucc number => exact append (by decide) (oneLine_nat (number + 1))

theorem intercalate (hseparator : OneLine separator) (hparts : ∀ part ∈ parts, OneLine part) :
    OneLine (separator.intercalate parts) := by
  induction parts with
  | nil => exact List.not_mem_nil
  | cons part parts ih =>
      rw [List.forall_mem_cons] at hparts
      by_cases hlast : parts = []
      · simpa [hlast] using hparts.1
      · rw [String.intercalate_cons_of_ne_nil hlast]
        exact (hparts.1.append hseparator).append (ih hparts.2)

theorem bracketed (hparts : ∀ part ∈ parts, OneLine part) : OneLine (Text.bracketed parts) :=
  ((show OneLine "[" by decide).append (intercalate (by decide) hparts)).append (by decide)

theorem bracketed_map {α : Type} {items : List α} {render : α → String}
    (hrender : ∀ item, OneLine (render item)) : OneLine (Text.bracketed (items.map render)) := by
  refine bracketed fun part hpart => ?_
  obtain ⟨item, -, rfl⟩ := List.mem_map.mp hpart
  exact hrender item

theorem listing {α : Type} {items : List α} {render : α → String}
    (hrender : ∀ item, OneLine (render item)) : OneLine (Text.listing items render) := by
  rw [Text.listing]
  split
  · exact bracketed_map hrender
  · refine bracketed fun part hpart => ?_
    rcases List.mem_append.mp hpart with hfront | hpart
    · obtain ⟨item, -, rfl⟩ := List.mem_map.mp hfront
      exact hrender item
    · rcases List.mem_cons.mp hpart with rfl | hback
      · decide
      · obtain ⟨item, -, rfl⟩ := List.mem_map.mp hback
        exact hrender item

theorem quoted (text : String) : OneLine (Text.quoted text) := by
  refine ofList ?_
  simp only [List.mem_cons, List.mem_append, List.mem_flatMap, not_or, not_exists, not_and]
  refine ⟨⟨by decide, fun char _ => newline_notMem_escapeChar char⟩, by decide⟩

end OneLine

/-! ## Decimals -/

theorem newline_notMem_positionalText {style : Decimal.Style} {digits : List Char} {exponent : Int}
    (hdigits : '\n' ∉ digits) : '\n' ∉ Decimal.positionalText style digits exponent := by
  intro hnewline
  rcases Decimal.mem_positionalText hnewline with hdigit | hother
  · exact hdigits hdigit
  · revert hother
    decide

theorem newline_notMem_render (style : Decimal.Style) (decimal : Decimal) :
    '\n' ∉ decimal.render style := by
  have hdigits := newline_notMem_toDigits 10 (by decide) (by decide) decimal.digits
  rw [Decimal.render]
  split
  · exact newline_notMem_positionalText hdigits
  · intro hnewline
    rcases Decimal.mem_exponentText hnewline with hdigit | hmark | hexponent
    · exact hdigits hdigit
    · revert hmark
      decide
    · exact OneLine.int _ hexponent

theorem oneLine_single (style : Decimal.Style) (number : Single) :
    OneLine (number.render style) := by
  have hsigned (negative : Bool) (unsigned : List Char) (hunsigned : '\n' ∉ unsigned) :
      '\n' ∉ if negative then '-' :: unsigned else unsigned := by
    split
    · simpa using hunsigned
    · exact hunsigned
  rw [Single.render]
  split
  · decide
  · refine .ofList (hsigned _ _ ?_)
    split
    · decide
    · split
      · exact newline_notMem_positionalText (by decide)
      · exact newline_notMem_render _ _

/-! ## Operands and operations -/

theorem oneLine_renderElements (buffer : Buffer) : OneLine buffer.renderElements := by
  cases buffer with
  | float32 values => exact .listing fun number => oneLine_single _ number
  | int32 values => exact .listing fun number => .int _
  | uint8 values => exact .listing fun number => oneLine_nat _
  | int8 values => exact .listing fun number => .int _

theorem oneLine_buffer (buffer : Buffer) : OneLine buffer.render := by
  have hname : OneLine buffer.elemType.name := by
    cases buffer.elemType <;> decide
  have hsize : OneLine (buffer.elemType.name ++ "(" ++ toString buffer.size) :=
    (hname.append (by decide)).append (oneLine_nat buffer.size)
  exact ((hsize.append (by decide)).append (oneLine_renderElements buffer)).append (by decide)

theorem oneLine_operandType (type : OperandType) : OneLine type.render := by
  have hname : OneLine type.code.name := by
    cases type.code <;> decide
  have hshape : OneLine (type.code.name ++ renderDims type.dims) :=
    hname.append (.bracketed_map fun dim => oneLine_nat dim.toNat)
  rw [OperandType.render]
  split
  · rename_i scale zeroPoint _ _
    have hscale := hshape.append (show OneLine " scale=" by decide)
    have hscale := hscale.append (oneLine_single scaleStyle scale)
    exact (hscale.append (by decide)).append (.int zeroPoint.toInt)
  · exact hshape

theorem oneLine_renderIds (ids : List OperandId) : OneLine (renderIds ids) :=
  .bracketed_map fun id => oneLine_nat id.index

theorem oneLine_operation (operation : Operation) : OneLine operation.render := by
  have hname : OneLine operation.code.name := by
    cases operation.code <;> decide
  have hinputs := (hname.append (show OneLine " " by decide)).append
    (oneLine_renderIds operation.inputs)
  exact (hinputs.append (by decide)).append (oneLine_renderIds operation.outputs)

namespace Graph

theorem oneLine_renderOperand (graph : Graph) (index : Nat) (operand : Operand) :
    OneLine (graph.renderOperand index operand) := by
  have hindex : OneLine (toString "%" ++ toString index ++ toString ": ") :=
    ((show OneLine "%" by decide).append (oneLine_nat index)).append (by decide)
  refine .append (.append (.append (hindex.append (oneLine_operandType operand.type)) ?_) ?_) ?_
  · cases operand.name with
    | none => decide
    | some name => exact (show OneLine " " by decide).append (.quoted name)
  · cases graph.values.find? (.own index) with
    | none => decide
    | some value => exact (show OneLine " = " by decide).append (oneLine_buffer value)
  · cases graph.channelQuants.find? (.own index) with
    | none => decide
    | some quant =>
        have hscales : OneLine (renderScales quant.scales) :=
          .bracketed_map fun scale => oneLine_single _ scale
        have hdim := (show OneLine " per_channel(dim=" by decide).append
          (oneLine_nat quant.channelDim.toNat)
        exact ((hdim.append (by decide)).append hscales).append (by decide)

theorem oneLine_renderEnds (graph : Graph) : OneLine graph.renderEnds := by
  have hinputs := (show OneLine "inputs: " by decide).append (oneLine_renderIds graph.inputs)
  exact (hinputs.append (by decide)).append (oneLine_renderIds graph.outputs)

theorem oneLine_of_mem_lines {graph : Graph} {line : String} (hline : line ∈ graph.lines) :
    OneLine line := by
  rw [lines, List.mem_append, List.mem_append, List.mem_singleton] at hline
  rcases hline with (hoperand | hoperation) | rfl
  · obtain ⟨index, hindex, rfl⟩ := List.mem_mapIdx.mp hoperand
    exact oneLine_renderOperand graph index _
  · obtain ⟨operation, -, rfl⟩ := List.mem_map.mp hoperation
    exact oneLine_operation operation
  · exact oneLine_renderEnds graph

/-! ## Lines -/

/-- The lines that the text of a graph has. -/
def printed (graph : Graph) : List (List Char) := graph.render.toList.splitOn '\n'

theorem printed_eq (graph : Graph) : graph.printed = graph.lines.map String.toList := by
  rw [printed, render, String.toList_intercalate]
  refine List.splitOn_intercalate '\n' ?_ (by simp [lines])
  intro chars hchars
  obtain ⟨line, hline, rfl⟩ := List.mem_map.mp hchars
  exact oneLine_of_mem_lines hline

theorem exists_intercalate_concat (separator last : String) (parts : List String) :
    ∃ front, separator.intercalate (parts ++ [last]) = front ++ last := by
  induction parts with
  | nil => exact ⟨"", by simp⟩
  | cons part parts ih =>
      obtain ⟨front, hfront⟩ := ih
      refine ⟨part ++ separator ++ front, ?_⟩
      rw [List.cons_append, String.intercalate_cons_of_ne_nil (by simp), hfront]
      simp only [String.append_assoc]

theorem inputs_prefix_renderEnds (graph : Graph) :
    "inputs: ".toList <+: graph.renderEnds.toList := by
  rw [renderEnds]
  simp only [String.toList_append, List.append_assoc]
  exact List.prefix_append _ _

theorem newline_notLast_render (graph : Graph) : graph.render.toList.getLast? ≠ some '\n' := by
  obtain ⟨front, hfront⟩ := exists_intercalate_concat "\n" graph.renderEnds
    (graph.operands.mapIdx graph.renderOperand ++ graph.operations.map Operation.render)
  have hends : graph.renderEnds.toList ≠ [] := by
    intro hempty
    have hbegins := inputs_prefix_renderEnds graph
    rw [hempty] at hbegins
    cases List.prefix_nil.mp hbegins
  rw [render, lines, hfront, String.toList_append, List.getLast?_append_of_ne_nil _ hends]
  exact fun hlast => oneLine_renderEnds graph (List.mem_of_getLast? hlast)

/-- Every operand and every operation of a graph has a line of its own, in their order, and after
them there is one more. -/
theorem render_lines (graph : Graph) :
    graph.printed.length = graph.operands.length + graph.operations.length + 1 ∧
    (∀ index operand, graph.operands[index]? = some operand →
      graph.printed[index]? = some (graph.renderOperand index operand).toList ∧
        (s!"%{index}: ").toList <+: (graph.renderOperand index operand).toList) ∧
    (∀ index operation, graph.operations[index]? = some operation →
      graph.printed[graph.operands.length + index]? = some operation.render.toList) ∧
    (graph.printed.getLast? = some graph.renderEnds.toList ∧
      "inputs: ".toList <+: graph.renderEnds.toList) ∧
    graph.render.toList.getLast? ≠ some '\n' := by
  have hoperands : (graph.operands.mapIdx graph.renderOperand).length = graph.operands.length :=
    List.length_mapIdx
  rw [printed_eq, lines]
  refine ⟨by simp [Nat.add_assoc], fun index operand hoperand => ⟨?_, ?_⟩,
    fun index operation hoperation => ?_, ⟨by simp, inputs_prefix_renderEnds graph⟩,
    newline_notLast_render graph⟩
  · have hindex := (List.getElem?_eq_some_iff.mp hoperand).1
    rw [List.append_assoc, List.getElem?_map, List.getElem?_append_left (by omega),
      List.getElem?_mapIdx, hoperand]
    rfl
  · simp [renderOperand]
  · have hindex := (List.getElem?_eq_some_iff.mp hoperation).1
    rw [List.append_assoc, List.getElem?_map, List.getElem?_append_right (by omega), hoperands,
      Nat.add_sub_cancel_left, List.getElem?_append_left (by simpa using hindex),
      List.getElem?_map, hoperation]
    rfl

/-- A line of another operand stands in its name. -/
def brokenName : Operand := ⟨some "a\n%1: \"b\"", .plain .tensorFloat32 [12]⟩

def brokenNames : Graph where
  operands := [brokenName]
  values := .ofList [(.own 0, .float32 (.replicate 12 ⟨0x7fc00000⟩))]
  channelQuants := .ofList [(.own 0, ⟨0, [⟨0x7fc00000⟩]⟩)]
  operations := [⟨.softmax, [.own 0], [.own 0]⟩]
  tensorIds := ∅
  inputs := [.own 0]
  outputs := [.own 0]
  required := [.softmax]

theorem render_lines_brokenNames :
    brokenNames.operands[0]? = some brokenName ∧ brokenNames.printed.length = 3 ∧
      brokenNames.printed[0]? = some (brokenNames.renderOperand 0 brokenName).toList ∧
      brokenNames.renderOperand 0 brokenName =
        "%0: TENSOR_FLOAT32[12] \"a\\n%1: \\\"b\\\"\" = " ++
          "float32(12, [NaN, NaN, NaN, NaN, NaN, ..., NaN, NaN, NaN, NaN, NaN]) " ++
          "per_channel(dim=0, scales=[NaN])" ∧
      brokenNames.printed[1]? = some "SOFTMAX [0] -> [0]".toList ∧
      brokenNames.printed.getLast? = some "inputs: [0], outputs: [0]".toList := by
  obtain ⟨hlength, hoperands, hoperations, ⟨hends, -⟩, -⟩ := render_lines brokenNames
  refine ⟨rfl, hlength, (hoperands 0 brokenName rfl).1, by decide +kernel, ?_, ?_⟩
  · exact (hoperations 0 _ rfl).trans (by decide +kernel)
  · rw [hends]
    decide +kernel

end Graph

end NetLowering
