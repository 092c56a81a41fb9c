import NetLowering.Table
import NetLowering.Value

/-!
# Tensors

What is known of a tensor besides its name: its shape, its values and how they
are quantized.  Every fact is a value as it was given; the readers below give
it a meaning, or none.
-/

namespace NetLowering

structure Tensor where
  name : String
  shape : Option Value := none
  values : Option Value := none
  zeroPoint : Option Value := none
  scale : Option Value := none
  extra : Table String Value := ∅
deriving DecidableEq

namespace Tensor

def named (name : String) : Tensor := { name := name }

def data? (tensor : Tensor) : Option Buffer := tensor.values.bind Value.buffer?

def dim? (size : Int32) : Option UInt32 :=
  if 0 ≤ size.toInt then some size.toUInt32 else none

/-- The shape as dimensions, if it is a list of integers and none is negative. -/
def dims? (tensor : Tensor) : Option (List UInt32) :=
  (tensor.shape.bind Value.ints?).bind fun sizes => sizes.toList.mapM dim?

def scales? (tensor : Tensor) : Option (List Single) :=
  (tensor.scale.bind Value.buffer?).map Buffer.singles

def zeroPoint? (tensor : Tensor) : Option Int32 := tensor.zeroPoint.bind Value.int?

/-- Adds a fact under the name it is given by.  One scale goes by `Y_scale`, a
list of them by `Y_scales`; facts with any other name are kept as they are. -/
def learn (tensor : Tensor) (fact : String) (value : Value) : Tensor :=
  if fact = "shape" then { tensor with shape := some value }
  else if fact = "values" then { tensor with values := some value }
  else if fact = "Y_zero_point" then { tensor with zeroPoint := some value }
  else if fact = "Y_scale" ∨ fact = "Y_scales" then { tensor with scale := some value }
  else { tensor with extra := tensor.extra.insert fact value }

@[simp] theorem name_learn (tensor : Tensor) (fact : String) (value : Value) :
    (tensor.learn fact value).name = tensor.name := by
  unfold learn
  split
  · rfl
  split
  · rfl
  split
  · rfl
  split <;> rfl

/-! ## Signed weights -/

/-- The byte lowered by 128, which fits a signed byte. -/
def toSigned (byte : UInt8) : Int8 := .ofInt (byte.toNat - 128)

theorem toInt_toSigned (byte : UInt8) : (toSigned byte).toInt = byte.toNat - 128 := by
  have := byte.toNat_lt
  rw [toSigned, Int8.toInt_ofInt_of_le] <;> omega

/-- Moves unsigned bytes around the zero point 128 to signed bytes around 0;
any other tensor stays as it is. -/
def remapSigned (tensor : Tensor) : Tensor :=
  match tensor.zeroPoint?, tensor.values with
  | some 128, some (.numbers (.uint8 bytes)) =>
    { tensor with
      values := some (.numbers (.int8 (bytes.map toSigned)))
      zeroPoint := some (.numbers (.int32 #[0])) }
  | _, _ => tensor

end Tensor

end NetLowering
