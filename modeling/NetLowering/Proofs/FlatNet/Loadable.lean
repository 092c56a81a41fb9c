import NetLowering.Proofs.FlatNet.Images

/-!
# Which initializers can be loaded

An initializer states its facts one by one, and the last one of a name counts.  It
can be loaded if it has one output, if all that it states can be read and, in a
channel-first net, if its values fill its axes.  What the options ask for plays no
part in that (`exists_ofInitializer_iff`).
-/

namespace NetLowering

open Checked

theorem Argument.value_eq_ok {argument : Argument} {value : Value}
    (hvalue : argument.value = .ok value) : ∃ buffer, value = .numbers buffer := by
  rw [Argument.value] at hvalue
  split at hvalue
  · obtain ⟨buffer, -, rfl⟩ := map_eq_ok_iff.mp hvalue
    exact ⟨buffer, rfl⟩
  · cases hvalue

/-! ## What an operator states -/

namespace NetOperator

/-- The value that the last argument of this name has. -/
def fact? (operator : NetOperator) (label : String) : Option Value :=
  (operator.arguments.reverse.find? fun argument => argument.label == label).bind
    fun argument => argument.value.toOption

def Decodes (operator : NetOperator) : Prop :=
  ∀ argument ∈ operator.arguments, ∃ value, argument.value = .ok value

theorem numbers_of_fact? {operator : NetOperator} {label : String} {value : Value}
    (hfact : operator.fact? label = some value) : ∃ buffer, value = .numbers buffer := by
  obtain ⟨argument, -, hread⟩ := Option.bind_eq_some_iff.mp hfact
  exact Argument.value_eq_ok (toOption_eq_some_iff.mp hread)

end NetOperator

namespace Tensor

variable {operator : NetOperator} {facts : Tensor}

theorem stated_eq_ok_iff :
    stated operator = .ok facts ↔
      ∃ name values, operator.outputs = [name] ∧
        operator.arguments.mapM Argument.value = .ok values ∧
        facts = (operator.arguments.zip values).foldl
          (fun tensor fact => tensor.learn fact.1.label fact.2) (.named name) := by
  rw [stated]
  split
  · rename_i name houtputs
    rw [foldlM_read, map_eq_ok_iff]
    simp [houtputs, eq_comm]
  · rename_i hother
    simp only [reduceCtorEq, false_iff]
    rintro ⟨name, -, houtputs, -⟩
    exact hother name houtputs

theorem exists_stated_iff :
    (∃ facts, stated operator = .ok facts) ↔
      (∃ name, operator.outputs = [name]) ∧ operator.Decodes := by
  simp only [stated_eq_ok_iff]
  rw [NetOperator.Decodes, ← exists_mapM_ok_iff]
  constructor
  · rintro ⟨-, name, values, houtputs, hvalues, -⟩
    exact ⟨⟨name, houtputs⟩, values, hvalues⟩
  · rintro ⟨⟨name, houtputs⟩, values, hvalues⟩
    exact ⟨_, name, values, houtputs, hvalues, rfl⟩

theorem name_learnAll (facts : List (Argument × Value)) (start : Tensor) :
    (facts.foldl (fun tensor fact => tensor.learn fact.1.label fact.2) start).name =
      start.name := by
  induction facts generalizing start with
  | nil => rfl
  | cons fact facts ih => rw [List.foldl_cons, ih, name_learn]

/-- A field that only facts of one name set has the last one of them. -/
theorem field_learnAll {field : Tensor → Option Value} {label : String}
    (hlearn : ∀ tensor fact value,
      field (tensor.learn fact value) = if fact = label then some value else field tensor)
    {arguments : List Argument} {values : List Value}
    (hvalues : arguments.mapM Argument.value = .ok values) (start : Tensor) :
    field ((arguments.zip values).foldl
        (fun tensor fact => tensor.learn fact.1.label fact.2) start) =
      ((arguments.reverse.find? fun argument => argument.label == label).bind
        fun argument => argument.value.toOption).or (field start) := by
  rw [mapM_eq_ok_iff] at hvalues
  induction hvalues generalizing start with
  | nil => rfl
  | @cons argument value arguments values hvalue hvalues ih =>
      rw [List.zip_cons_cons, List.foldl_cons, ih, hlearn, List.reverse_cons, List.find?_append]
      cases hlast : arguments.reverse.find? fun argument => argument.label == label with
      | none =>
          by_cases hlabel : argument.label = label <;>
            simp [hlabel, hvalue, Except.toOption]
      | some last =>
          -- The last one has been read as well, so the field does not fall back on an earlier one.
          have hmem : last ∈ arguments := by simpa using List.mem_of_find?_eq_some hlast
          obtain ⟨read, -, hread⟩ := exists_of_mapM (mapM_eq_ok_iff.mpr hvalues) hmem
          simp [hread, Except.toOption]

theorem shape_learn (tensor : Tensor) (fact : String) (value : Value) :
    (tensor.learn fact value).shape = if fact = "shape" then some value else tensor.shape := by
  unfold learn
  grind

theorem values_learn (tensor : Tensor) (fact : String) (value : Value) :
    (tensor.learn fact value).values = if fact = "values" then some value else tensor.values := by
  unfold learn
  grind

/-- What the facts of an initializer are read from. -/
theorem facts_of_stated (hstated : stated operator = .ok facts) :
    operator.outputs = [facts.name] ∧ facts.shape = operator.fact? "shape" ∧
      facts.values = operator.fact? "values" := by
  obtain ⟨name, values, houtputs, hvalues, rfl⟩ := stated_eq_ok_iff.mp hstated
  refine ⟨?_, ?_, ?_⟩
  · rw [name_learnAll]
    exact houtputs
  · rw [field_learnAll shape_learn hvalues]
    exact Option.or_none
  · rw [field_learnAll values_learn hvalues]
    exact Option.or_none

end Tensor

/-! ## Filled axes -/

/-- As many elements as the axes span, none of which is negative; the axes that are not empty span
no more than an address reaches. -/
structure FillsAxes (count : Nat) (sizes : List Int32) : Prop where
  nonnegative : ∀ size ∈ sizes, 0 ≤ size.toInt
  filled : (count : Int) = (sizes.map Int32.toInt).prod
  addressable : ((sizes.map Int32.toInt).filter (· ≠ 0)).prod ≤ 2 ^ 63 - 1

theorem prod_map_ofNat (axes : List Nat) : (axes.map Int.ofNat).prod = (span axes : Int) := by
  induction axes with
  | nil => rfl
  | cons axis axes ih =>
      rw [List.map_cons, List.prod_cons, ih]
      exact (Int.natCast_mul axis (span axes)).symm

theorem fillsAxes_iff {count : Nat} {sizes : List Int32} {axes : List Nat}
    (haxes : sizes.map Int32.toInt = axes.map Int.ofNat) :
    FillsAxes count sizes ↔ FillsSpan count axes := by
  have hnonnegative : ∀ size ∈ sizes, 0 ≤ size.toInt := by
    intro size hsize
    have hmem := List.mem_map_of_mem (f := Int32.toInt) hsize
    rw [haxes] at hmem
    obtain ⟨axis, -, haxis⟩ := List.mem_map.mp hmem
    exact haxis ▸ Int.natCast_nonneg axis
  have hfilter : (axes.map Int.ofNat).filter (· ≠ 0) = (axes.filter (· ≠ 0)).map Int.ofNat := by
    rw [List.filter_map]
    congr 1
    refine List.filter_congr fun axis _ => ?_
    simp
  have hfilled : (count : Int) = (sizes.map Int32.toInt).prod ↔ count = span axes := by
    rw [haxes, prod_map_ofNat, Int.natCast_inj]
  have haddressable : ((sizes.map Int32.toInt).filter (· ≠ 0)).prod ≤ 2 ^ 63 - 1 ↔
      span (axes.filter (· ≠ 0)) ≤ maxSpan := by
    rw [haxes, hfilter, prod_map_ofNat, maxSpan]
    omega
  constructor
  · intro hfills
    exact ⟨hfilled.mp hfills.filled, haddressable.mp hfills.addressable⟩
  · rintro ⟨hcount, hspan⟩
    exact ⟨hnonnegative, hfilled.mpr hcount, haddressable.mpr hspan⟩

/-! ## Loading -/

/-- If the operator states four axes and values, the values fill the axes. -/
def NetOperator.FillsImage (operator : NetOperator) : Prop :=
  ∀ n c h w values, operator.fact? "shape" = some (.numbers (.int32 #[n, c, h, w])) →
    operator.fact? "values" = some values → FillsAxes values.size [n, c, h, w]

namespace Tensor

variable {operator : NetOperator} {facts tensor : Tensor} {options : LoadOptions} {layout : Layout}

theorem exists_valuesToChannelLast_iff {n c h w : Int32} {buffer : Buffer} :
    (∃ relaid, valuesToChannelLast n c h w (.numbers buffer) = .ok relaid) ↔
      FillsAxes buffer.size [n, c, h, w] := by
  simp only [valuesToChannelLast, exists_bind_ok_iff, axis_eq_ok_iff]
  constructor
  · rintro ⟨images, hn, channels, hc, rows, hh, columns, hw, hrelaid⟩
    have hsizes : [n, c, h, w].map Int32.toInt =
        [images, channels, rows, columns].map Int.ofNat := by
      simp [hn, hc, hh, hw]
    rw [fillsAxes_iff hsizes, ← Buffer.exists_toChannelLast_iff]
    obtain ⟨relaid, hrelaid⟩ := hrelaid
    exact ⟨relaid, mapError_eq_ok_iff.mp hrelaid⟩
  · intro hfills
    have hnonnegative := hfills.nonnegative
    simp only [List.forall_mem_cons, List.not_mem_nil, false_implies, implies_true, and_true]
      at hnonnegative
    obtain ⟨hn, hc, hh, hw⟩ := hnonnegative
    obtain ⟨images, hn⟩ := Int.eq_ofNat_of_zero_le hn
    obtain ⟨channels, hc⟩ := Int.eq_ofNat_of_zero_le hc
    obtain ⟨rows, hh⟩ := Int.eq_ofNat_of_zero_le hh
    obtain ⟨columns, hw⟩ := Int.eq_ofNat_of_zero_le hw
    have hsizes : [n, c, h, w].map Int32.toInt =
        [images, channels, rows, columns].map Int.ofNat := by
      simp [hn, hc, hh, hw]
    rw [fillsAxes_iff hsizes, ← Buffer.exists_toChannelLast_iff] at hfills
    obtain ⟨relaid, hrelaid⟩ := hfills
    exact ⟨images, hn, channels, hc, rows, hh, columns, hw, relaid, mapError_eq_ok_iff.mpr hrelaid⟩

theorem exists_channelLast_iff (hstated : stated operator = .ok facts) :
    (∃ relaid, facts.channelLast = .ok relaid) ↔ operator.FillsImage := by
  obtain ⟨-, hshape, hvalues⟩ := facts_of_stated hstated
  rw [NetOperator.FillsImage, ← hshape, ← hvalues]
  by_cases haxes : ∃ n c h w values, facts.shape = some (.numbers (.int32 #[n, c, h, w])) ∧
      facts.values = some values
  · obtain ⟨n, c, h, w, values, haxes, hstates⟩ := haxes
    obtain ⟨buffer, rfl⟩ := NetOperator.numbers_of_fact? (hvalues.symm.trans hstates)
    have hread : facts.shape.bind Value.ints? = some #[n, c, h, w] := by rw [haxes]; rfl
    rw [channelLast_of_axes hread hstates]
    refine (exists_map_ok_iff.trans exists_valuesToChannelLast_iff).trans ⟨?_, ?_⟩
    · intro hfills n' c' h' w' values' haxes' hstates'
      cases haxes.symm.trans haxes'
      cases hstates.symm.trans hstates'
      exact hfills
    · exact fun hfills => hfills n c h w _ haxes hstates
  · have hplain : facts.channelLast = .ok facts := by
      refine channelLast_of_no_image ?_
      rintro ⟨n, c, h, w, values, hread, hstates⟩
      obtain ⟨shape, hshape, hints⟩ := Option.bind_eq_some_iff.mp hread
      rw [Value.ints?_eq_some_iff.mp hints] at hshape
      exact haxes ⟨n, c, h, w, values, hshape, hstates⟩
    refine iff_of_true ⟨facts, hplain⟩ ?_
    intro n c h w values hshape hvalues
    exact absurd ⟨n, c, h, w, values, hshape, hvalues⟩ haxes

/-- An initializer can be loaded with all options or with none. -/
theorem exists_ofInitializer_iff :
    (∃ tensor, ofInitializer options layout operator = .ok tensor) ↔
      (∃ name, operator.outputs = [name]) ∧ operator.Decodes ∧
        (layout = .channelFirst → operator.FillsImage) := by
  have hoptions : (∃ tensor, ofInitializer options layout operator = .ok tensor) ↔
      ∃ tensor, ofInitializer {} layout operator = .ok tensor := by
    by_cases hsigned : options.quantized = true ∧ options.signedRemap = true
    · rw [ofInitializer_of_signed hsigned.1 hsigned.2]
      exact exists_map_ok_iff
    · rw [ofInitializer_of_plain hsigned]
  rw [hoptions, ofInitializer, exists_bind_ok_iff, ← and_assoc, ← exists_stated_iff]
  constructor
  · rintro ⟨facts, hstated, hloaded⟩
    refine ⟨⟨facts, hstated⟩, ?_⟩
    rintro rfl
    rw [← exists_channelLast_iff hstated]
    obtain ⟨tensor, htensor⟩ := hloaded
    exact ⟨tensor, mapError_eq_ok_iff.mp htensor⟩
  · rintro ⟨⟨facts, hstated⟩, hfills⟩
    refine ⟨facts, hstated, ?_⟩
    cases layout with
    | channelLast => exact ⟨facts, rfl⟩
    | channelFirst =>
        obtain ⟨tensor, htensor⟩ := (exists_channelLast_iff hstated).mpr (hfills rfl)
        exact ⟨tensor, mapError_eq_ok_iff.mpr htensor⟩

/-- A tensor has the name of the one output. -/
theorem outputs_of_ofInitializer (hload : ofInitializer options layout operator = .ok tensor) :
    operator.outputs = [tensor.name] := by
  obtain ⟨facts, hstated, -⟩ := bind_eq_ok_iff.mp hload
  rw [name_ofInitializer hload hstated]
  exact (facts_of_stated hstated).1

end Tensor

end NetLowering
