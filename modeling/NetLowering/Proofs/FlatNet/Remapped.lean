import NetLowering.Proofs.FlatNet.SignedWeights
import NetLowering.Proofs.Lowering.Signedness

/-!
# A joined net beside the same net with signed weights

With signed weights a net has the same operators, but for the tensors that they
read: each of them is the plain one, remapped (`FlatNet.exists_join_signed`).
Which of them changes by this can be told from the initializer net
(`FlatNet.statesBytes_iff`).
-/

namespace NetLowering

open Checked

namespace Tensor

variable {plain signed tensor relaid facts : Tensor}

theorem Remaps.eq_remapSigned (hremaps : plain.Remaps signed) : signed = plain.remapSigned := by
  by_cases hbiased : ∃ bytes, plain.Biased bytes
  · obtain ⟨bytes, hbiased⟩ := hbiased
    obtain ⟨lowered, hvalues, hzero, hsize, hlowered⟩ := hremaps.lowered bytes hbiased
    have hbytes : lowered = bytes.map toSigned := by
      refine Array.ext (by rw [hsize, Array.size_map]) fun place hplace _ => ?_
      have hbyte := Array.getElem?_eq_getElem (hsize ▸ hplace)
      obtain ⟨number, hnumber, hint⟩ := hlowered place _ hbyte
      rw [Array.getElem?_eq_getElem hplace] at hnumber
      rw [Array.getElem_map, Option.some.inj hnumber, ← Int8.toInt_inj, hint, toInt_toSigned]
    rw [remapSigned_of_biased hbiased, hremaps.kept, hvalues, hzero, hbytes, signedAs]
  · have hnone : ∀ bytes, ¬plain.Biased bytes := fun bytes hbytes => hbiased ⟨bytes, hbytes⟩
    rw [remapSigned_of_not_biased hnone, hremaps.same hnone]

/-- Relaid or not, bytes around 128 are bytes around 128. -/
theorem biased_channelLast_iff (hrelaid : tensor.channelLast = .ok relaid) :
    (∃ bytes, relaid.Biased bytes) ↔ ∃ bytes, tensor.Biased bytes := by
  refine ⟨fun ⟨bytes, hbiased⟩ => biased_of_channelLast hrelaid hbiased, ?_⟩
  rintro ⟨bytes, hvalues, hzero⟩
  rcases channelLast_eq_ok hrelaid with rfl | ⟨n, c, h, w, values, moved, hfound, hmoved, rfl⟩
  · exact ⟨bytes, hvalues, hzero⟩
  · obtain ⟨buffer, shape, rfl, -, hrearranged⟩ := valuesToChannelLast_eq_ok hmoved
    cases hvalues.symm.trans hfound
    have htype := Buffer.elemType_rearrange hrearranged
    cases moved with
    | uint8 after => exact ⟨after, rfl, hzero⟩
    | _ => cases htype

theorem biased_ofInitializer_iff {layout : Layout} {initializer : NetOperator}
    (hload : ofInitializer { quantized := true } layout initializer = .ok tensor)
    (hfacts : stated initializer = .ok facts) :
    (∃ bytes, tensor.Biased bytes) ↔ ∃ bytes, facts.Biased bytes := by
  rw [ofInitializer, hfacts] at hload
  cases layout with
  | channelLast =>
      cases hload
      rfl
  | channelFirst => exact biased_channelLast_iff (mapError_eq_ok_iff.mp hload)

end Tensor

def FlatOp.remapSigned (operator : FlatOp) : FlatOp :=
  { operator with inputs := operator.inputs.map Tensor.remapSigned }

theorem FlatOp.Remaps.eq_remapSigned {plain signed : FlatOp} (hremaps : plain.Remaps signed) :
    signed = plain.remapSigned := by
  have hinputs : signed.inputs = plain.inputs.map Tensor.remapSigned := by
    rw [← List.forall₂_eq_eq_eq, List.forall₂_map_right_iff]
    exact hremaps.inputs.flip.imp fun _ _ => Tensor.Remaps.eq_remapSigned
  rw [hremaps.kept, hinputs, remapSigned]

/-- An initializer of this name states unsigned bytes around 128. -/
def Net.StatesBytes (net : Net) (name : String) : Prop :=
  ∃ initializer ∈ net.operators, ∃ facts bytes, Tensor.stated initializer = .ok facts ∧
    facts.name = name ∧ facts.Biased bytes

namespace FlatNet

variable {predict init : Net} {net : FlatNet}

theorem exists_join_signed (hjoin : join { quantized := true } predict init = .ok net) :
    ∃ signed, join { quantized := true, signedRemap := true } predict init = .ok signed ∧
      signed.operators = net.operators.map FlatOp.remapSigned := by
  rw [join_of_plain (by simp)] at hjoin
  have hrelated : Related Remaps (join {} predict init)
      (join { quantized := true, signedRemap := true } predict init) :=
    related_join rfl rfl predict init
  rw [hjoin] at hrelated
  cases hsigned : join { quantized := true, signedRemap := true } predict init with
  | error error =>
      rw [hsigned] at hrelated
      cases hrelated
  | ok signed =>
      rw [hsigned] at hrelated
      cases hrelated with
      | done hremaps =>
          refine ⟨signed, rfl, ?_⟩
          rw [← List.forall₂_eq_eq_eq, List.forall₂_map_right_iff]
          exact hremaps.operators.flip.imp fun _ _ => FlatOp.Remaps.eq_remapSigned

theorem input_eq_of_join (hjoin : join { quantized := true } predict init = .ok net)
    {operator : FlatOp} (hoperator : operator ∈ net.operators) {tensor : Tensor}
    (htensor : tensor ∈ operator.inputs) :
    tensor = (net.initializers.find? tensor.name).getD (.named tensor.name) := by
  obtain ⟨netOperator, -, hread⟩ := exists_operator_of_join hjoin hoperator
  rw [(FlatOp.ofOperator_eq_ok hread).2.1] at htensor
  obtain ⟨name, -, rfl⟩ := List.mem_map.mp htensor
  have hname : ((net.initializers.find? name).getD (.named name)).name = name := by
    cases hfound : net.initializers.find? name with
    | none => rfl
    | some found =>
        obtain ⟨initializer, -, houtputs, hload⟩ :=
          ((resolves_of_join hjoin).initializers name found).mp hfound
        cases houtputs.symm.trans (Tensor.outputs_of_ofInitializer hload)
        rfl
  rw [hname]

/-- An input has bytes around 128 just when the initializer of its name states them. -/
theorem statesBytes_iff (hjoin : join { quantized := true } predict init = .ok net)
    {operator : FlatOp} (hoperator : operator ∈ net.operators) {tensor : Tensor}
    (htensor : tensor ∈ operator.inputs) :
    init.StatesBytes tensor.name ↔ ∃ bytes, tensor.Biased bytes := by
  constructor
  · rintro ⟨initializer, hinitializer, facts, bytes, hfacts, hname, hbiased⟩
    obtain ⟨loaded, hload, hfound⟩ := (joins_of_join hjoin).initializers initializer hinitializer
    rw [Tensor.name_ofInitializer hload hfacts, hname] at hfound
    rw [input_eq_of_join hjoin hoperator htensor, hfound]
    exact (Tensor.biased_ofInitializer_iff hload hfacts).mpr ⟨bytes, hbiased⟩
  · rintro ⟨bytes, hbiased⟩
    obtain ⟨place, hplace⟩ := List.mem_iff_getElem?.mp htensor
    obtain ⟨netOperator, -, hread⟩ := exists_operator_of_join hjoin hoperator
    have hdata : tensor.data? = some (.uint8 bytes) := Tensor.data?_eq_some_iff.mpr hbiased.1
    obtain ⟨-, initializer, hinitializer, hload⟩ :=
      exists_initializer_of_join hjoin hread hplace hdata
    obtain ⟨facts, hfacts, -⟩ := bind_eq_ok_iff.mp hload
    obtain ⟨stated, hstated⟩ := (Tensor.biased_ofInitializer_iff hload hfacts).mp ⟨bytes, hbiased⟩
    exact ⟨initializer, hinitializer, facts, stated, hfacts,
      (Tensor.name_ofInitializer hload hfacts).symm, hstated⟩

end FlatNet

end NetLowering
