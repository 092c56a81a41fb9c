import NetLowering.Binary
import NetLowering.Decimal.Shortest

/-!
# Decimal text

A style says which numbers are written out positionally and whether a whole
number keeps a fraction; all others get one leading digit and an exponent.
-/

namespace NetLowering.Decimal

structure Style where
  /-- Whether a number whose leading digit has this exponent is written positionally. -/
  positional : Int → Bool
  /-- Whether a whole number ends in `.0`. -/
  pointZero : Bool

private def zeros (count : Nat) : List Char := List.replicate count '0'

private def withPoint (whole fraction : List Char) : List Char :=
  if fraction.isEmpty then whole else whole ++ '.' :: fraction

/-- Digits at their places, the last one at `10 ^ exponent`. -/
def positionalText (style : Style) (digits : List Char) (exponent : Int) : List Char :=
  if 0 ≤ exponent then
    digits ++ zeros exponent.toNat ++ if style.pointZero then ['.', '0'] else []
  else
    let places := (-exponent).toNat
    let padded := zeros (places + 1 - digits.length) ++ digits
    withPoint (padded.take (padded.length - places)) (padded.drop (padded.length - places))

def exponentText (digits : List Char) (leading : Int) : List Char :=
  withPoint (digits.take 1) (digits.drop 1) ++ 'e' :: (toString leading).toList

def render (style : Style) (decimal : Decimal) : List Char :=
  let digits := Nat.toDigits 10 decimal.digits
  let leading := decimal.exponent + (digits.length - 1 : Nat)
  if style.positional leading then positionalText style digits decimal.exponent
  else exponentText digits leading

/-! ## Characters -/

variable {style : Style} {digits : List Char} {char : Char}

private theorem mem_withPoint {whole fraction : List Char}
    (hchar : char ∈ withPoint whole fraction) :
    char ∈ whole ∨ char ∈ fraction ∨ char = '.' := by
  rw [withPoint] at hchar
  split at hchar
  · exact .inl hchar
  · rcases List.mem_append.mp hchar with hwhole | hfraction
    · exact .inl hwhole
    · exact .inr (List.mem_cons.mp hfraction).symm

private theorem mem_zeros {count : Nat} (hchar : char ∈ zeros count) : char ∈ ['.', '0'] := by
  simp [List.eq_of_mem_replicate hchar]

theorem mem_positionalText {exponent : Int} (hchar : char ∈ positionalText style digits exponent) :
    char ∈ digits ∨ char ∈ ['.', '0'] := by
  rw [positionalText] at hchar
  split at hchar
  · rcases List.mem_append.mp hchar with hwhole | hpoint
    · exact (List.mem_append.mp hwhole).imp_right mem_zeros
    · split at hpoint
      · exact .inr hpoint
      · cases hpoint
  · have hpadded (hmem : char ∈ zeros ((-exponent).toNat + 1 - digits.length) ++ digits) :
        char ∈ digits ∨ char ∈ ['.', '0'] :=
      (List.mem_append.mp hmem).symm.imp_right mem_zeros
    rcases mem_withPoint hchar with hwhole | hfraction | hpoint
    · exact hpadded (List.mem_of_mem_take hwhole)
    · exact hpadded (List.mem_of_mem_drop hfraction)
    · exact .inr (by simp [hpoint])

theorem mem_exponentText {leading : Int} (hchar : char ∈ exponentText digits leading) :
    char ∈ digits ∨ char ∈ ['.', 'e'] ∨ char ∈ (toString leading).toList := by
  rcases List.mem_append.mp hchar with hdigits | hexponent
  · rcases mem_withPoint hdigits with hwhole | hfraction | hpoint
    · exact .inl (List.mem_of_mem_take hwhole)
    · exact .inl (List.mem_of_mem_drop hfraction)
    · exact .inr (.inl (by simp [hpoint]))
  · rcases List.mem_cons.mp hexponent with hmark | hleading
    · exact .inr (.inl (by simp [hmark]))
    · exact .inr (.inr hleading)

end NetLowering.Decimal

namespace NetLowering.Single

open Decimal in
/-- The shortest decimal that reads back as the number, with its sign. -/
def render (style : Style) (number : Single) : String :=
  let format := BinaryFormat.single
  let magnitude := format.magnitude number.bits.toNat
  if number.isNaN then "NaN"
  else
    let unsigned :=
      if magnitude = format.infinity then ['i', 'n', 'f']
      else if magnitude = 0 then positionalText style ['0'] 0
      else
        Decimal.render style (Interval.ofBinary (format.significand magnitude)
          (format.exponent magnitude) (format.narrowBelow magnitude)).shortest
    String.ofList (if format.isNegative number.bits.toNat then '-' :: unsigned else unsigned)

end NetLowering.Single
