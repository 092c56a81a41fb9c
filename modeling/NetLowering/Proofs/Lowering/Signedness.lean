import NetLowering.Proofs.FlatNet.Joinable
import NetLowering.Proofs.Lowering.Layers

/-!
# Whether signed operands hold signed bytes

Loading decides tensor by tensor whether bytes become signed, lowering once for the
whole graph whether codes are signed.  The two decisions meet in the filters of
convolutions, the only constants with a code that the image decides.  Filters with
bytes around 128 agree with their code; a filter with bytes around any other zero
point is left as it is, and `FlatNet.lower_signedness` says that nothing else is.
-/

namespace NetLowering

open Checked

/-! ## Loading -/

theorem Value.buffer?_eq_some_iff {value : Value} {buffer : Buffer} :
    value.buffer? = some buffer ↔ value = .numbers buffer := by
  cases value <;> simp [buffer?]

/-- No argument has signed bytes. -/
theorem Argument.elemType_of_value {argument : Argument} {buffer : Buffer}
    (hvalue : argument.value = .ok (.numbers buffer)) : buffer.elemType ≠ .int8 := by
  rw [value] at hvalue
  split at hvalue
  · rename_i kind _
    obtain ⟨_, hpayload, ⟨⟩⟩ := map_eq_ok_iff.mp hvalue
    cases kind with
    | int | ints =>
        obtain ⟨numbers, -, hnumbers⟩ := bind_eq_ok_iff.mp hpayload
        cases hnumbers
        simp [Buffer.elemType]
    | float | floats | bytes =>
        cases hpayload
        simp [Buffer.elemType]
    | strings | tensor | net | tensors | nets | qtensors => cases hpayload
  · cases hvalue

theorem NetOperator.elemType_of_fact? {operator : NetOperator} {label : String} {buffer : Buffer}
    (hfact : operator.fact? label = some (.numbers buffer)) : buffer.elemType ≠ .int8 := by
  obtain ⟨argument, -, hread⟩ := Option.bind_eq_some_iff.mp hfact
  exact Argument.elemType_of_value (toOption_eq_some_iff.mp hread)

namespace Tensor

variable {options : LoadOptions} {facts tensor relaid : Tensor}

theorem data?_eq_some_iff {buffer : Buffer} :
    tensor.data? = some buffer ↔ tensor.values = some (.numbers buffer) := by
  simp [data?, Option.bind_eq_some_iff, Value.buffer?_eq_some_iff]

def elemType? (tensor : Tensor) : Option ElemType := tensor.data?.map Buffer.elemType

theorem elemType?_remapSigned (tensor : Tensor) :
    tensor.remapSigned.elemType? = tensor.elemType?.map fun type =>
      if type = .uint8 ∧ tensor.zeroPoint? = some 128 then .int8 else type := by
  by_cases hbiased : ∃ bytes, tensor.Biased bytes
  · obtain ⟨bytes, hbiased⟩ := hbiased
    rw [remapSigned_of_biased hbiased, zeroPoint?_eq_some_iff.mpr hbiased.2, elemType?, elemType?,
      data?, data?, hbiased.1]
    rfl
  · rw [remapSigned_of_not_biased fun bytes hbytes => hbiased ⟨bytes, hbytes⟩]
    cases hdata : tensor.data? with
    | none => simp [elemType?, hdata]
    | some buffer =>
        have hstays : ¬(buffer.elemType = .uint8 ∧ tensor.zeroPoint? = some 128) := by
          rintro ⟨htype, hzero⟩
          cases buffer with
          | uint8 bytes =>
              exact hbiased ⟨bytes, data?_eq_some_iff.mp hdata, zeroPoint?_eq_some_iff.mp hzero⟩
          | _ => cases htype
        simp [elemType?, hdata, hstays]

theorem elemType?_channelLast (hrelaid : tensor.channelLast = .ok relaid) :
    relaid.elemType? = tensor.elemType? := by
  rcases channelLast_eq_ok hrelaid with rfl | ⟨n, c, h, w, values, moved, hvalues, hmoved, rfl⟩
  · rfl
  · obtain ⟨buffer, shape, rfl, -, hrearranged⟩ := valuesToChannelLast_eq_ok hmoved
    have htype := Buffer.elemType_rearrange hrearranged
    rw [elemType?, elemType?, data?, data?, hvalues]
    exact congrArg some htype

theorem elemType?_ofInitializer {layout : Layout} {initializer : NetOperator}
    (hload : ofInitializer options layout initializer = .ok tensor)
    (hfacts : stated initializer = .ok facts) :
    tensor.elemType? = (remapped options facts).elemType? := by
  rw [ofInitializer, hfacts] at hload
  cases layout with
  | channelLast =>
      cases hload
      rfl
  | channelFirst => exact elemType?_channelLast (mapError_eq_ok_iff.mp hload)

theorem elemType?_remapped (hsigned : options.quantized = true ∧ options.signedRemap = true)
    (facts : Tensor) : (remapped options facts).elemType? = facts.remapSigned.elemType? := by
  simp [remapped, hsigned]

theorem elemType?_stated {initializer : NetOperator} (hfacts : stated initializer = .ok facts) :
    facts.elemType? ≠ some .int8 := by
  rw [elemType?, Ne, Option.map_eq_some_iff]
  rintro ⟨buffer, hdata, htype⟩
  rw [data?_eq_some_iff, (facts_of_stated hfacts).2.2] at hdata
  exact NetOperator.elemType_of_fact? hdata htype

end Tensor

/-! ## Filters of a joined net -/

/-- The operand is the filter of a convolution, from an initializer with these facts. -/
structure Operand.LoadedFrom (operand : Operand) (predict init : Net) (facts : Tensor) : Prop where
  name : operand.name = some facts.name
  initializer : ∃ initializer ∈ init.operators, Tensor.stated initializer = .ok facts
  convolution : ∃ operator ∈ predict.operators,
    (operator.type = some "Int8Conv" ∨ operator.type = some "Int8ConvRelu") ∧
      operator.inputs[1]? = some facts.name

theorem FlatOp.type_of_convolves {layout : Layout} {initializers : Table String Tensor}
    {operator : NetOperator} {flat : FlatOp}
    (hread : ofOperator layout initializers operator = .ok flat) (hconvolves : flat.Convolves) :
    operator.type = some "Int8Conv" ∨ operator.type = some "Int8ConvRelu" := by
  rw [Convolves, (ofOperator_eq_ok hread).1] at hconvolves
  cases htype : operator.type with
  | none => simp [htype] at hconvolves
  | some type => simpa [htype] using hconvolves

namespace FlatNet

variable {loading : LoadOptions} {options : LoweringOptions} {predict init : Net} {net : FlatNet}
  {graph : Graph} {id : OperandId} {operand : Operand} {value : Buffer}

theorem exists_operator_of_join (hjoin : join loading predict init = .ok net) {flat : FlatOp}
    (hflat : flat ∈ net.operators) :
    ∃ operator ∈ predict.operators,
      FlatOp.ofOperator net.predictLayout net.initializers operator = .ok flat := by
  simp only [join, bind_eq_ok_iff, pure_eq_ok_iff] at hjoin
  obtain ⟨initLayout, -, predictLayout, -, initializers, -, operators, hoperators, rfl⟩ := hjoin
  exact exists_read_of_mapM hoperators hflat

/-- A tensor with values that an operator reads has been loaded from an initializer. -/
theorem exists_initializer_of_join (hjoin : join loading predict init = .ok net)
    {operator : NetOperator} {flat : FlatOp} {place : Nat} {tensor : Tensor} {values : Buffer}
    (hread : FlatOp.ofOperator net.predictLayout net.initializers operator = .ok flat)
    (hlisted : flat.inputs[place]? = some tensor) (hdata : tensor.data? = some values) :
    operator.inputs[place]? = some tensor.name ∧
      ∃ initializer ∈ init.operators,
        Tensor.ofInitializer loading net.initLayout initializer = .ok tensor := by
  rw [(FlatOp.ofOperator_eq_ok hread).2.1, List.getElem?_map, Option.map_eq_some_iff] at hlisted
  obtain ⟨name, hname, htensor⟩ := hlisted
  cases hfound : net.initializers.find? name with
  | none =>
      rw [hfound] at htensor
      subst htensor
      cases hdata
  | some found =>
      obtain rfl : found = tensor := by simpa [hfound] using htensor
      obtain ⟨initializer, hinitializer, houtputs, hload⟩ :=
        ((resolves_of_join hjoin).initializers name found).mp hfound
      cases houtputs.symm.trans (Tensor.outputs_of_ofInitializer hload)
      exact ⟨hname, initializer, hinitializer, hload⟩

/-- What is bound to an operand with the code of an image is the filter of a convolution. -/
theorem loadedFrom_of_bound (hjoin : join loading predict init = .ok net)
    (hlower : net.lower options = .ok graph) (hoperand : graph.operand? id = some operand)
    (hbound : graph.values.find? id = some value)
    (hcode : operand.type.code = .tensorQuant8Asymm ∨
      operand.type.code = .tensorQuant8AsymmSigned) :
    ∃ facts, operand.LoadedFrom predict init facts ∧
      (Tensor.remapped loading facts).elemType? = some value.elemType := by
  obtain ⟨flat, hflat, before, param, hbrought, rfl, hparam⟩ := owes_of_lower hlower id value hbound
  cases hoperand.symm.trans hparam
  cases hbrought with
  | int number => simp [Param.operand, Param.int, OperandType.scalar, OperandType.plain] at hcode
  | single number =>
      simp [Param.operand, Param.single, OperandType.scalar, OperandType.plain] at hcode
  | bias _ tensor _ _ hmade =>
      rw [Param.operand, hmade.code] at hcode
      split at hcode <;> simp at hcode
  | filter _ tensor image hconvolves hlisted _ hmade =>
      obtain ⟨operator, hoperator, hread⟩ := exists_operator_of_join hjoin hflat
      obtain ⟨values, hdata, htype⟩ := hmade.elemType
      obtain ⟨hname, initializer, hinitializer, hload⟩ :=
        exists_initializer_of_join hjoin hread hlisted hdata
      obtain ⟨facts, hfacts, -⟩ := bind_eq_ok_iff.mp hload
      have hsame := Tensor.name_ofInitializer hload hfacts
      refine ⟨facts, ⟨hsame ▸ hmade.name, ⟨initializer, hinitializer, hfacts⟩, operator, hoperator,
        FlatOp.type_of_convolves hread hconvolves, hsame ▸ hname⟩, ?_⟩
      rw [← Tensor.elemType?_ofInitializer hload hfacts, Tensor.elemType?, hdata, htype]
      rfl

/-- With signed weights, an operand with a signed code is bound to unsigned bytes just when these
are a filter's around another zero point than 128; without, one with an unsigned code is never bound
to signed bytes. -/
theorem lower_signedness (hjoin : join loading predict init = .ok net)
    (hlower : net.lower options = .ok graph) (hoperand : graph.operand? id = some operand)
    (hbound : graph.values.find? id = some value) :
    if loading.quantized = true ∧ loading.signedRemap = true then
      operand.type.code = .tensorQuant8AsymmSigned → ∃ facts,
        operand.LoadedFrom predict init facts ∧
          (value.elemType = .uint8 ↔
            facts.elemType? = some .uint8 ∧ facts.zeroPoint? ≠ some 128)
    else operand.type.code = .tensorQuant8Asymm → value.elemType ≠ .int8 := by
  split
  · rename_i hsigned
    intro hcode
    obtain ⟨facts, hloaded, htype⟩ := loadedFrom_of_bound hjoin hlower hoperand hbound (.inr hcode)
    refine ⟨facts, hloaded, ?_⟩
    rw [Tensor.elemType?_remapped hsigned, Tensor.elemType?_remapSigned,
      Option.map_eq_some_iff] at htype
    obtain ⟨stated, hstated, htype⟩ := htype
    rw [hstated, ← htype, Option.some_inj]
    split
    · rename_i hbiased
      simp [hbiased.2]
    · rename_i hstays
      exact ⟨fun hbytes => ⟨hbytes, fun hzero => hstays ⟨hbytes, hzero⟩⟩, And.left⟩
  · rename_i hplain
    intro hcode hint8
    obtain ⟨facts, hloaded, htype⟩ := loadedFrom_of_bound hjoin hlower hoperand hbound (.inl hcode)
    obtain ⟨initializer, -, hfacts⟩ := hloaded.initializer
    refine Tensor.elemType?_stated hfacts ?_
    rw [← hint8, ← htype, Tensor.remapped, if_neg (by simpa using hplain)]

/-- A filter of one byte and a bias for it. -/
def byteInit (zeroPoint : Int64) : Net where
  operators := [
    { outputs := ["filter"]
      arguments := [{ name := some "shape", ints := [1, 1, 1, 1] },
        { name := some "values", bytes := some [130] },
        { name := some "Y_scale", float := some .one },
        { name := some "Y_zero_point", int := some zeroPoint }] },
    { outputs := ["bias"]
      arguments := [{ name := some "shape", ints := [1] },
        { name := some "values", ints := [0] },
        { name := some "Y_scale", float := some .one }] }]

def bytePredict : Net where
  operators := [
    { inputs := ["image", "filter", "bias"]
      outputs := ["features"]
      type := some "Int8Conv"
      arguments := [{ name := some "kernel", int := some 1 },
        { name := some "X_scale", float := some .one }] }]

theorem lower_signedness_byte :
    ∃ net graph operand facts,
      join { quantized := true, signedRemap := true } bytePredict (byteInit 128) = .ok net ∧
      net.lower { quantized := true, signedRemap := true, inputSize := [1, 1, 1] } = .ok graph ∧
      graph.operand? (.own 1) = some operand ∧ operand.type.code = .tensorQuant8AsymmSigned ∧
      graph.values.find? (.own 1) = some (.int8 #[2]) ∧
      operand.LoadedFrom bytePredict (byteInit 128) facts ∧
      (facts.elemType? = some .uint8 → facts.zeroPoint? = some 128) := by
  have hjoined : (fun net : FlatNet =>
        (fun graph : Graph => ((graph.operand? (.own 1)).map (·.type.code),
          graph.values.find? (.own 1))) <$>
            net.lower { quantized := true, signedRemap := true, inputSize := [1, 1, 1] }) <$>
      join { quantized := true, signedRemap := true } bytePredict (byteInit 128) =
        .ok (.ok (some .tensorQuant8AsymmSigned, some (.int8 #[2]))) := by
    decide +kernel
  obtain ⟨net, hjoin, hlowered⟩ := map_eq_ok_iff.mp hjoined
  obtain ⟨graph, hlower, hgraph⟩ := map_eq_ok_iff.mp hlowered
  obtain ⟨hcodes, hvalue⟩ := Prod.mk.inj hgraph
  obtain ⟨operand, hoperand, hcode⟩ := Option.map_eq_some_iff.mp hcodes
  have hagree := lower_signedness hjoin hlower hoperand hvalue
  rw [if_pos ⟨rfl, rfl⟩] at hagree
  obtain ⟨facts, hloaded, hbytes⟩ := hagree hcode
  refine ⟨net, graph, operand, facts, hjoin, hlower, hoperand, hcode, hvalue, hloaded, ?_⟩
  intro hstated
  by_contra hzero
  cases hbytes.mpr ⟨hstated, hzero⟩

/-- Bytes around 7 stay unsigned under a signed code. -/
theorem lower_unsigned_byte :
    ∃ net graph operand,
      join { quantized := true, signedRemap := true } bytePredict (byteInit 7) = .ok net ∧
      net.lower { quantized := true, signedRemap := true, inputSize := [1, 1, 1] } = .ok graph ∧
      graph.operand? (.own 1) = some operand ∧ operand.type.code = .tensorQuant8AsymmSigned ∧
      graph.values.find? (.own 1) = some (.uint8 #[130]) := by
  have hjoined : (fun net : FlatNet =>
        (fun graph : Graph => ((graph.operand? (.own 1)).map (·.type.code),
          graph.values.find? (.own 1))) <$>
            net.lower { quantized := true, signedRemap := true, inputSize := [1, 1, 1] }) <$>
      join { quantized := true, signedRemap := true } bytePredict (byteInit 7) =
        .ok (.ok (some .tensorQuant8AsymmSigned, some (.uint8 #[130]))) := by
    decide +kernel
  obtain ⟨net, hjoin, hlowered⟩ := map_eq_ok_iff.mp hjoined
  obtain ⟨graph, hlower, hgraph⟩ := map_eq_ok_iff.mp hlowered
  obtain ⟨hcodes, hvalue⟩ := Prod.mk.inj hgraph
  obtain ⟨operand, hoperand, hcode⟩ := Option.map_eq_some_iff.mp hcodes
  exact ⟨net, graph, operand, hjoin, hlower, hoperand, hcode, hvalue⟩

end FlatNet

end NetLowering
