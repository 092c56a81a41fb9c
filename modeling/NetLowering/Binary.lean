/-!
# Binary interchange formats

A number in a binary format is a word: a sign bit over a magnitude.  Magnitudes
count upwards through zero, the subnormal and normal numbers and infinity, so
rounding a value to its nearest magnitude is one rounding of an integer
quotient, with every carry already in its place.
-/

namespace NetLowering

/-- How many significant bits a format keeps and how wide its exponent is. -/
structure BinaryFormat where
  precision : Nat
  exponentBits : Nat
deriving DecidableEq, Repr

namespace BinaryFormat

def single : BinaryFormat := ⟨24, 8⟩

def double : BinaryFormat := ⟨53, 11⟩

def fractionBits (format : BinaryFormat) : Nat := format.precision - 1

/-- How many magnitudes share an exponent. -/
def binade (format : BinaryFormat) : Nat := 1 <<< format.fractionBits

/-- The exponent of the finest step, that of the subnormal numbers. -/
def finest (format : BinaryFormat) : Int :=
  3 - (1 <<< (format.exponentBits - 1) : Nat) - format.precision

/-- The magnitude of infinity; larger magnitudes are no numbers. -/
def infinity (format : BinaryFormat) : Nat :=
  (1 <<< format.exponentBits - 1) * format.binade

def signBit (format : BinaryFormat) : Nat :=
  1 <<< (format.exponentBits + format.fractionBits)

/-- The word of the quiet number that is none. -/
def notANumber (format : BinaryFormat) : Nat :=
  format.infinity + 1 <<< (format.fractionBits - 1)

def isNegative (format : BinaryFormat) (word : Nat) : Bool := format.signBit ≤ word

def magnitude (format : BinaryFormat) (word : Nat) : Nat := word % format.signBit

/-- A finite magnitude as `significand * 2 ^ exponent`. -/
def significand (format : BinaryFormat) (magnitude : Nat) : Nat :=
  if magnitude < format.binade then magnitude
  else magnitude % format.binade + format.binade

def exponent (format : BinaryFormat) (magnitude : Nat) : Int :=
  format.finest + (magnitude / format.binade - 1 : Nat)

/-- Whether the gap to the next magnitude below is half the gap to the one above. -/
def narrowBelow (format : BinaryFormat) (magnitude : Nat) : Bool :=
  magnitude % format.binade == 0 && 2 ≤ magnitude / format.binade

/-- A quotient to the nearest integer, a tie to the even one. -/
def roundQuotient (numerator denominator : Nat) : Nat :=
  let floor := numerator / denominator
  let doubled := 2 * (numerator % denominator)
  if doubled < denominator then floor
  else if denominator < doubled then floor + 1
  else floor + floor % 2

/-- The magnitude nearest to `significand * 2 ^ exponent`, a tie to the even one. -/
def nearest (format : BinaryFormat) (significand : Nat) (exponent : Int) : Nat :=
  if significand = 0 then 0
  else
    let step := max (exponent + significand.log2 - format.fractionBits) format.finest
    let steps :=
      roundQuotient (significand <<< (exponent - step).toNat) (1 <<< (step - exponent).toNat)
    min ((step - format.finest).toNat * format.binade + steps) format.infinity

def signed (format : BinaryFormat) (negative : Bool) (magnitude : Nat) : Nat :=
  if negative then format.signBit + magnitude else magnitude

def ofInt (format : BinaryFormat) (value : Int) : Nat :=
  format.signed (value < 0) (format.nearest value.natAbs 0)

/-- The word of one format in another, rounded where the other is coarser. -/
def convert (source target : BinaryFormat) (word : Nat) : Nat :=
  let magnitude := source.magnitude word
  if source.infinity < magnitude then target.notANumber
  else if magnitude = source.infinity then target.signed (source.isNegative word) target.infinity
  else
    target.signed (source.isNegative word)
      (target.nearest (source.significand magnitude) (source.exponent magnitude))

end BinaryFormat

/-! ## Single and double precision -/

/-- A single-precision number, by its word. -/
structure Single where
  bits : UInt32
deriving DecidableEq, Repr, Inhabited

/-- A double-precision number, by its word. -/
structure Double where
  bits : UInt64
deriving DecidableEq, Repr, Inhabited

namespace Single

def ofInt (value : Int) : Single := ⟨.ofNat (BinaryFormat.single.ofInt value)⟩

def zero : Single := ⟨0⟩

def one : Single := ⟨0x3f800000⟩

def isNaN (number : Single) : Bool :=
  BinaryFormat.single.infinity < BinaryFormat.single.magnitude number.bits.toNat

def isZero (number : Single) : Bool :=
  BinaryFormat.single.magnitude number.bits.toNat == 0

/-- Equality of the numbers: the two zeros are equal, and what is no number equals nothing. -/
def sameNumber (left right : Single) : Bool :=
  !left.isNaN && !right.isNaN && (left == right || (left.isZero && right.isZero))

end Single

namespace Double

def ofInt (value : Int) : Double := ⟨.ofNat (BinaryFormat.double.ofInt value)⟩

def ofSingle (number : Single) : Double :=
  ⟨.ofNat (BinaryFormat.single.convert .double number.bits.toNat)⟩

end Double

end NetLowering
