import NetLowering.FlatNet
import NetLowering.Proofs.FlatNet.Initializers
import NetLowering.Proofs.Table

/-!
# Signed weights

A net that is asked for signed weights is the net without this request, but for
the weights themselves: unsigned bytes around 128 have become signed bytes
around 0, in the initializers and in every copy that an operator reads.  Each
element stays as far from the zero point as it was.  Nothing else shows the
request, refusals included, and half of the request is none.
-/

namespace NetLowering

open Checked

/-! ## What changes -/

def Element.byte? : Element → Option Int
  | .uint8 byte => some byte.toNat
  | .int8 byte => some byte.toInt
  | _ => none

namespace Tensor

/-- How far an element of a quantized tensor lies from its zero point. -/
def offset? (tensor : Tensor) (place : Nat) : Option Int :=
  tensor.zeroPoint?.bind fun zeroPoint =>
    (tensor.data?.bind (·.element? place)).bind fun element =>
      element.byte?.map (· - zeroPoint.toInt)

/-- The second tensor is the first one with signed weights. -/
structure Remaps (plain signed : Tensor) : Prop where
  kept : signed = { plain with values := signed.values, zeroPoint := signed.zeroPoint }
  lowered : ∀ bytes, plain.Biased bytes → ∃ lowered : Array Int8,
    signed.values = some (.numbers (.int8 lowered)) ∧
    signed.zeroPoint = some (.numbers (.int32 #[0])) ∧
    lowered.size = bytes.size ∧
    ∀ (place : Nat) (byte : UInt8), bytes[place]? = some byte →
      ∃ number, lowered[place]? = some number ∧ number.toInt = byte.toNat - 128
  same : (∀ bytes, ¬plain.Biased bytes) → signed = plain
  offset : ∀ place, signed.offset? place = plain.offset? place

end Tensor

structure FlatOp.Remaps (plain signed : FlatOp) : Prop where
  kept : signed = { plain with inputs := signed.inputs }
  inputs : List.Forall₂ Tensor.Remaps plain.inputs signed.inputs

structure FlatNet.Remaps (plain signed : FlatNet) : Prop where
  operators : List.Forall₂ FlatOp.Remaps plain.operators signed.operators
  initializers : ∀ name, Option.Rel Tensor.Remaps (plain.initializers.find? name)
    (signed.initializers.find? name)
  initLayout : signed.initLayout = plain.initLayout
  predictLayout : signed.predictLayout = plain.predictLayout

/-! ## Tensors -/

namespace Tensor

theorem offset?_signedAs {tensor : Tensor} {bytes : Array UInt8} (hbiased : tensor.Biased bytes)
    (place : Nat) : (tensor.signedAs bytes).offset? place = tensor.offset? place := by
  have hbefore : tensor.offset? place =
      (bytes[place]?.map Element.uint8).bind fun element => element.byte?.map (· - 128) := by
    rw [offset?, zeroPoint?_eq_some_iff.mpr hbiased.2, data?, hbiased.1]
    rfl
  have hafter : (tensor.signedAs bytes).offset? place =
      (bytes[place]?.map (Element.int8 ∘ toSigned)).bind fun element =>
        element.byte?.map (· - 0) := by
    rw [← Option.map_map, ← Array.getElem?_map]
    rfl
  rw [hbefore, hafter]
  cases bytes[place]? with
  | none => rfl
  | some byte => simp [Element.byte?, toInt_toSigned]

theorem remaps_remapSigned (tensor : Tensor) : tensor.Remaps tensor.remapSigned := by
  by_cases hbiased : ∃ bytes, tensor.Biased bytes
  · obtain ⟨bytes, hbiased⟩ := hbiased
    rw [remapSigned_of_biased hbiased]
    refine ⟨rfl, ?_, fun hnone => absurd hbiased (hnone bytes), offset?_signedAs hbiased⟩
    intro others hothers
    cases hbiased.1.symm.trans hothers.1
    refine ⟨bytes.map toSigned, rfl, rfl, Array.size_map, ?_⟩
    intro place byte hbyte
    exact ⟨toSigned byte, by simp [hbyte], toInt_toSigned byte⟩
  · have hnone : ∀ bytes, ¬tensor.Biased bytes := fun bytes hbytes => hbiased ⟨bytes, hbytes⟩
    rw [remapSigned_of_not_biased hnone]
    exact ⟨rfl, fun bytes hbytes => absurd hbytes (hnone bytes), fun _ => rfl, fun _ => rfl⟩

end Tensor

/-! ## Initializers -/

namespace FlatNet

/-- The second table holds the tensors of the first one with signed weights. -/
def SignedTable (plain signed : Table String Tensor) : Prop :=
  ∀ name, signed.find? name = (plain.find? name).map Tensor.remapSigned

variable {options : LoadOptions} {plain signed : Table String Tensor}

theorem related_addInitializer (hquantized : options.quantized = true)
    (hsigned : options.signedRemap = true) (layout : Layout) (operator : NetOperator)
    (htables : SignedTable plain signed) :
    Related SignedTable (addInitializer {} layout plain operator)
      (addInitializer options layout signed operator) := by
  rw [addInitializer, addInitializer, Tensor.ofInitializer_of_signed hquantized hsigned]
  have htensors : Related (fun tensor other => other = tensor.remapSigned)
      (Tensor.ofInitializer {} layout operator)
      ((Tensor.ofInitializer {} layout operator).map Tensor.remapSigned) :=
    related_map _ fun _ => rfl
  refine htensors.bind ?_
  rintro tensor _ rfl
  rw [Tensor.name_remapSigned]
  have hcontains : signed.contains tensor.name = plain.contains tensor.name := by
    rw [Table.contains, Table.contains, htables, Option.isSome_map]
  rw [hcontains]
  by_cases htwice : plain.contains tensor.name = true
  · rw [if_pos htwice, if_pos htwice]
    exact .refused _
  · rw [if_neg htwice, if_neg htwice]
    refine .done fun name => ?_
    rw [Table.find?_insert, Table.find?_insert, htables]
    split <;> rfl

/-! ## Operators -/

theorem remaps_input (htables : SignedTable plain signed) (name : String) :
    Tensor.Remaps ((plain.find? name).getD (.named name))
      ((signed.find? name).getD (.named name)) := by
  have hinput : (signed.find? name).getD (.named name) =
      ((plain.find? name).getD (.named name)).remapSigned := by
    rw [htables]
    cases plain.find? name <;> rfl
  rw [hinput]
  exact Tensor.remaps_remapSigned _

theorem related_ofOperator (htables : SignedTable plain signed) (layout : Layout)
    (operator : NetOperator) :
    Related FlatOp.Remaps (FlatOp.ofOperator layout plain operator)
      (FlatOp.ofOperator layout signed operator) := by
  rw [FlatOp.ofOperator, FlatOp.ofOperator]
  refine (related_self _).bind ?_
  rintro arguments _ rfl
  refine .done ⟨rfl, ?_⟩
  rw [List.forall₂_map_left_iff, List.forall₂_map_right_iff, List.forall₂_same]
  exact fun name _ => remaps_input htables name

/-! ## Nets -/

theorem related_join (hquantized : options.quantized = true) (hsigned : options.signedRemap = true)
    (predict init : Net) : Related Remaps (join {} predict init) (join options predict init) := by
  rw [join, join]
  refine (related_self init.layout).bind ?_
  rintro initLayout _ rfl
  refine (related_self predict.layout).bind ?_
  rintro predictLayout _ rfl
  have hinitializers : Related SignedTable
      (init.operators.foldlM (addInitializer {} initLayout) ∅)
      (init.operators.foldlM (addInitializer options initLayout) ∅) :=
    related_foldlM (fun _ _ operator => related_addInitializer hquantized hsigned _ operator)
      (fun _ => rfl) _
  refine hinitializers.bind fun plain signed htables => ?_
  refine (related_mapM (related_ofOperator htables predictLayout) predict.operators).bind ?_
  intro operators others hoperators
  refine .done ⟨hoperators, fun name => ?_, rfl, rfl⟩
  rw [htables]
  cases plain.find? name with
  | none => exact .none
  | some tensor => exact .some tensor.remaps_remapSigned

theorem join_of_plain (hplain : ¬(options.quantized = true ∧ options.signedRemap = true))
    (predict init : Net) : join options predict init = join {} predict init := by
  have hstep : addInitializer options = addInitializer {} := by
    funext layout initializers operator
    rw [addInitializer, addInitializer, Tensor.ofInitializer_of_plain hplain]
  rw [join, join, hstep]

/-- A request for signed weights changes unsigned weights around 128 and nothing else. -/
theorem join_signed (options : LoadOptions) (predict init : Net) :
    if options.quantized = true ∧ options.signedRemap = true then
      Related Remaps (join {} predict init) (join options predict init)
    else join options predict init = join {} predict init := by
  split
  · rename_i hboth
    exact related_join hboth.1 hboth.2 predict init
  · rename_i hplain
    exact join_of_plain hplain predict init

end FlatNet

end NetLowering
