import Mathlib.Data.List.Nodup
import NetLowering.Net.Payload
import NetLowering.Proofs.Checked

/-!
# What arguments are read as

An argument is read if it has one payload, of a kind that has numbers or bytes, and if the
integers in it fit 32 bits.  Its value has the elements of the payload, so two arguments that
read the same have the same elements, in payloads of the same kind or in a scalar and a list
of one (`value_outcome`).
-/

namespace NetLowering

open Checked

/-! ## Payloads -/

/-- An optional field is filled once it is present, a repeated one once it has an element. -/
inductive Argument.Fills (argument : Argument) : PayloadKind → Prop
  | int {number : Int64} (present : argument.int = some number) : Fills argument .int
  | float {number : Single} (present : argument.float = some number) : Fills argument .float
  | bytes {content : Bytes} (present : argument.bytes = some content) : Fills argument .bytes
  | tensor {content : Bytes} (present : argument.tensor = some content) : Fills argument .tensor
  | net {content : Bytes} (present : argument.net = some content) : Fills argument .net
  | ints (present : argument.ints ≠ []) : Fills argument .ints
  | floats (present : argument.floats ≠ []) : Fills argument .floats
  | strings (present : argument.strings ≠ []) : Fills argument .strings
  | tensors (present : argument.tensors ≠ []) : Fills argument .tensors
  | nets (present : argument.nets ≠ []) : Fills argument .nets
  | qtensors (present : argument.qtensors ≠ []) : Fills argument .qtensors

/-- The elements of a payload, each as the schema has it. -/
inductive Elements where
  | integers (numbers : List Int64)
  | floats (numbers : List Single)
  | bytes (content : Bytes)

def FitsInt32 (number : Int64) : Prop :=
  -2147483648 ≤ number.toInt ∧ number.toInt ≤ 2147483647

instance : DecidablePred FitsInt32 := fun number =>
  inferInstanceAs (Decidable (-2147483648 ≤ number.toInt ∧ number.toInt ≤ 2147483647))

namespace Elements

def Fits : Elements → Prop
  | integers numbers => ∀ number ∈ numbers, FitsInt32 number
  | floats _ | bytes _ => True

/-- The buffer has these elements in their order, as numbers of 32 bits or as bytes. -/
inductive Carried : Elements → Buffer → Prop
  | integers {numbers : List Int64} {values : Array Int32}
      (same : numbers.map Int64.toInt = values.toList.map Int32.toInt) :
      Carried (.integers numbers) (.int32 values)
  | floats (values : Array Single) : Carried (.floats values.toList) (.float32 values)
  | bytes (values : Array UInt8) : Carried (.bytes values.toList) (.uint8 values)

/-- A payload of this kind can have such elements. -/
inductive OfKind : Elements → PayloadKind → Prop
  | int (number : Int64) : OfKind (.integers [number]) .int
  | ints (numbers : List Int64) : OfKind (.integers numbers) .ints
  | float (number : Single) : OfKind (.floats [number]) .float
  | floats (numbers : List Single) : OfKind (.floats numbers) .floats
  | bytes (content : Bytes) : OfKind (.bytes content) .bytes

/-- A payload of the first kind has these elements as a scalar, one of the second kind as a list. -/
inductive Lists : Elements → PayloadKind → PayloadKind → Prop
  | integers (number : Int64) : Lists (.integers [number]) .int .ints
  | floats (number : Single) : Lists (.floats [number]) .float .floats

variable {elements otherElements : Elements} {buffer otherBuffer : Buffer}
  {kind otherKind : PayloadKind}

theorem carried_floats_iff {numbers : List Single} :
    (Elements.floats numbers).Carried buffer ↔ buffer = .float32 numbers.toArray := by
  constructor
  · rintro ⟨⟩
    rfl
  · rintro rfl
    exact .floats numbers.toArray

theorem carried_bytes_iff {content : Bytes} :
    (Elements.bytes content).Carried buffer ↔ buffer = .uint8 content.toArray := by
  constructor
  · rintro ⟨⟩
    rfl
  · rintro rfl
    exact .bytes content.toArray

theorem carried_inj (hcarried : elements.Carried buffer)
    (hother : otherElements.Carried otherBuffer) :
    buffer = otherBuffer ↔ elements = otherElements := by
  have hnumbers : Function.Injective (List.map Int64.toInt) :=
    List.map_injective_iff.mpr fun _ _ => Int64.toInt_inj.mp
  have hvalues : Function.Injective (List.map Int32.toInt) :=
    List.map_injective_iff.mpr fun _ _ => Int32.toInt_inj.mp
  cases hcarried with
  | integers hsame =>
      cases hother with
      | integers hotherSame =>
          rw [Elements.integers.injEq, Buffer.int32.injEq, ← hnumbers.eq_iff, hsame, hotherSame,
            hvalues.eq_iff, Array.toList_inj]
      | floats | bytes => simp
  | floats values => cases hother <;> simp
  | bytes values => cases hother <;> simp

/-- The same elements come in one kind of payload, unless there is only one of them. -/
theorem kinds_of_elements (hkind : elements.OfKind kind) (hother : elements.OfKind otherKind) :
    kind = otherKind ∨ elements.Lists kind otherKind ∨ elements.Lists otherKind kind := by
  cases hkind with
  | int number =>
      cases hother with
      | int => exact .inl rfl
      | ints => exact .inr (.inl (.integers number))
  | ints =>
      cases hother with
      | int number => exact .inr (.inr (.integers number))
      | ints => exact .inl rfl
  | float number =>
      cases hother with
      | float => exact .inl rfl
      | floats => exact .inr (.inl (.floats number))
  | floats =>
      cases hother with
      | float number => exact .inr (.inr (.floats number))
      | floats => exact .inl rfl
  | bytes =>
      cases hother with
      | bytes => exact .inl rfl

end Elements

/-- The kinds of payload that an argument is read from. -/
def PayloadKind.supported : List PayloadKind := [.int, .float, .bytes, .ints, .floats]

namespace Argument

/-- The elements that the payload of a supported kind has. -/
def elements? (argument : Argument) : PayloadKind → Option Elements
  | .int => argument.int.map fun number => .integers [number]
  | .ints => some (.integers argument.ints)
  | .float => argument.float.map fun number => .floats [number]
  | .floats => some (.floats argument.floats)
  | .bytes => argument.bytes.map .bytes
  | _ => none

/-- The one payload of the argument is of this kind and has these elements. -/
structure States (argument : Argument) (kind : PayloadKind) (elements : Elements) : Prop where
  filled : argument.populated = [kind]
  elements : argument.elements? kind = some elements

/-- What reading an argument ends in. -/
inductive Outcome (argument : Argument) : Except LoadError Value → Prop
  | read {kind : PayloadKind} {elements : Elements} {buffer : Buffer}
      (states : argument.States kind elements) (carried : elements.Carried buffer) :
      Outcome argument (.ok (.numbers buffer))
  | malformed (filled : argument.populated.length ≠ 1) :
      Outcome argument (.error (.malformedArgument argument.label argument.populated.length))
  | unsupported {kind : PayloadKind} (filled : argument.populated = [kind])
      (unread : kind ∉ PayloadKind.supported) :
      Outcome argument (.error (.unsupportedPayload argument.label kind))
  | overflow {kind : PayloadKind} {before after : List Int64} {number : Int64}
      (states : argument.States kind (.integers (before ++ number :: after)))
      (fit : ∀ earlier ∈ before, FitsInt32 earlier) (unfit : ¬FitsInt32 number) :
      Outcome argument (.error (.integerOverflow argument.label number))

variable {argument : Argument} {kind : PayloadKind} {elements : Elements} {buffer : Buffer}
  {error : LoadError}

/-! ## What is filled -/

theorem holds_iff_fills : argument.holds kind = true ↔ argument.Fills kind := by
  constructor
  · intro hholds
    cases kind with
    | int | float | bytes | tensor | net =>
        obtain ⟨content, hcontent⟩ := Option.isSome_iff_exists.mp hholds
        constructor
        exact hcontent
    | ints | floats | strings | tensors | nets | qtensors =>
        constructor
        simpa [holds] using hholds
  · rintro (hpresent | hpresent | hpresent | hpresent | hpresent | hpresent | hpresent | hpresent |
      hpresent | hpresent | hpresent) <;> simp [holds, hpresent]

theorem nodup_populated (argument : Argument) : argument.populated.Nodup :=
  List.Nodup.filter _ (by decide)

/-! ## Narrowing -/

theorem narrow_eq_ok_iff {number : Int64} {narrowed : Int32} :
    argument.narrow number = .ok narrowed ↔ number.toInt = narrowed.toInt := by
  have hmin : Int32.minValue.toInt = -2147483648 := rfl
  have hmax : Int32.maxValue.toInt = 2147483647 := rfl
  have hlow := Int32.minValue_le_toInt narrowed
  have hhigh := Int32.toInt_le narrowed
  rw [narrow]
  split
  · have hkept : number.toInt.bmod (2 ^ 32) = number.toInt :=
      Int.bmod_eq_of_le_mul_two (by omega) (by omega)
    rw [Except.ok.injEq, ← Int32.toInt_inj, Int64.toInt_toInt32, hkept]
  · refine iff_of_false (by simp) fun hsame => ?_
    omega

theorem narrow_eq_error_iff {number : Int64} :
    argument.narrow number = .error error ↔
      ¬FitsInt32 number ∧ error = .integerOverflow argument.label number := by
  have hfits : Int32.minValue.toInt ≤ number.toInt ∧ number.toInt ≤ Int32.maxValue.toInt ↔
      FitsInt32 number := Iff.rfl
  rw [narrow, ← hfits]
  split <;> simp_all [eq_comm]

theorem exists_narrow_iff {number : Int64} :
    (∃ narrowed, argument.narrow number = .ok narrowed) ↔ FitsInt32 number := by
  cases hnarrow : argument.narrow number with
  | ok narrowed =>
      refine iff_of_true ⟨narrowed, rfl⟩ (by_contra fun hunfit => ?_)
      cases (narrow_eq_error_iff.mpr ⟨hunfit, rfl⟩).symm.trans hnarrow
  | error error =>
      exact iff_of_false (by simp) (narrow_eq_error_iff.mp hnarrow).1

theorem narrowAll_eq_ok_iff {numbers : List Int64} :
    argument.narrowAll numbers = .ok buffer ↔ (Elements.integers numbers).Carried buffer := by
  have hrun (narrowed : List Int32) : numbers.mapM argument.narrow = .ok narrowed ↔
      numbers.map Int64.toInt = narrowed.map Int32.toInt := by
    rw [mapM_eq_ok_iff, ← List.forall₂_eq_eq_eq, List.forall₂_map_left_iff,
      List.forall₂_map_right_iff]
    simp only [narrow_eq_ok_iff]
  simp only [narrowAll, bind_eq_ok_iff, pure_eq_ok_iff, hrun]
  constructor
  · rintro ⟨narrowed, hsame, rfl⟩
    exact .integers hsame
  · rintro ⟨hsame⟩
    exact ⟨_, hsame, rfl⟩

theorem narrowAll_eq_error_iff {numbers : List Int64} :
    argument.narrowAll numbers = .error error ↔
      ∃ before number after, numbers = before ++ number :: after ∧
        (∀ earlier ∈ before, FitsInt32 earlier) ∧ ¬FitsInt32 number ∧
        error = .integerOverflow argument.label number := by
  rw [narrowAll, ← map_eq_pure_bind, map_eq_error_iff, mapM_eq_error_iff]
  simp only [exists_narrow_iff, narrow_eq_error_iff]

/-! ## Reading -/

theorem payload_eq_ok_iff (hfills : argument.Fills kind) :
    argument.payload kind = .ok buffer ↔
      ∃ elements, argument.elements? kind = some elements ∧ elements.Carried buffer := by
  cases hfills with
  | int hpresent => simp [payload, elements?, hpresent, narrowAll_eq_ok_iff]
  | ints => simp [payload, elements?, narrowAll_eq_ok_iff]
  | float hpresent => simp [payload, elements?, hpresent, Elements.carried_floats_iff, eq_comm]
  | floats => simp [payload, elements?, Elements.carried_floats_iff, eq_comm]
  | bytes hpresent => simp [payload, elements?, hpresent, Elements.carried_bytes_iff, eq_comm]
  | tensor | net | strings | tensors | nets | qtensors => simp [payload, elements?]

theorem payload_eq_error_iff (hfills : argument.Fills kind) :
    argument.payload kind = .error error ↔
      (kind ∉ PayloadKind.supported ∧ error = .unsupportedPayload argument.label kind) ∨
      ∃ before number after,
        argument.elements? kind = some (.integers (before ++ number :: after)) ∧
        (∀ earlier ∈ before, FitsInt32 earlier) ∧ ¬FitsInt32 number ∧
        error = .integerOverflow argument.label number := by
  cases hfills with
  | int hpresent =>
      simp [payload, elements?, hpresent, narrowAll_eq_error_iff, PayloadKind.supported]
  | ints => simp [payload, elements?, narrowAll_eq_error_iff, PayloadKind.supported]
  | float hpresent => simp [payload, elements?, hpresent, PayloadKind.supported]
  | floats => simp [payload, elements?, PayloadKind.supported]
  | bytes hpresent => simp [payload, elements?, hpresent, PayloadKind.supported]
  | tensor | net | strings | tensors | nets | qtensors =>
      simp [payload, elements?, PayloadKind.supported, eq_comm]

theorem fills_of_populated (hfilled : argument.populated = [kind]) : argument.Fills kind := by
  rw [← holds_iff_fills, ← mem_populated, hfilled]
  exact List.mem_singleton_self kind

theorem value_of_populated (hfilled : argument.populated = [kind]) :
    argument.value = Value.numbers <$> argument.payload kind := by
  rw [value, hfilled]

theorem value_of_malformed (hfilled : argument.populated.length ≠ 1) :
    argument.value = .error (.malformedArgument argument.label argument.populated.length) := by
  rw [value]
  split
  · rename_i kind hkind
    rw [hkind] at hfilled
    exact absurd rfl hfilled
  · rfl

theorem outcome_value (argument : Argument) : argument.Outcome argument.value := by
  by_cases hfilled : argument.populated.length = 1
  · obtain ⟨kind, hkind⟩ := List.length_eq_one_iff.mp hfilled
    have hfills := fills_of_populated hkind
    rw [value_of_populated hkind]
    cases hpayload : argument.payload kind with
    | ok buffer =>
        obtain ⟨elements, helements, hcarried⟩ := (payload_eq_ok_iff hfills).mp hpayload
        exact .read ⟨hkind, helements⟩ hcarried
    | error error =>
        rcases (payload_eq_error_iff hfills).mp hpayload with
          ⟨hunread, rfl⟩ | ⟨before, number, after, helements, hfit, hunfit, rfl⟩
        · exact .unsupported hkind hunread
        · exact .overflow ⟨hkind, helements⟩ hfit hunfit
  · rw [value_of_malformed hfilled]
    exact .malformed hfilled

theorem value_eq_of_outcome {outcome : Except LoadError Value}
    (houtcome : argument.Outcome outcome) : argument.value = outcome := by
  cases houtcome with
  | read hstates hcarried =>
      have hfills := fills_of_populated hstates.filled
      rw [value_of_populated hstates.filled,
        (payload_eq_ok_iff hfills).mpr ⟨_, hstates.elements, hcarried⟩]
      rfl
  | malformed hfilled => exact value_of_malformed hfilled
  | unsupported hfilled hunread =>
      rw [value_of_populated hfilled,
        (payload_eq_error_iff (fills_of_populated hfilled)).mpr (.inl ⟨hunread, rfl⟩)]
      rfl
  | overflow hstates hfit hunfit =>
      have hfills := fills_of_populated hstates.filled
      rw [value_of_populated hstates.filled, (payload_eq_error_iff hfills).mpr
        (.inr ⟨_, _, _, hstates.elements, hfit, hunfit, rfl⟩)]
      rfl

theorem value_eq_iff {outcome : Except LoadError Value} :
    argument.value = outcome ↔ argument.Outcome outcome := by
  constructor
  · rintro rfl
    exact outcome_value argument
  · exact value_eq_of_outcome

theorem value_eq_ok_iff {value : Value} (hstates : argument.States kind elements) :
    argument.value = .ok value ↔ ∃ buffer, value = .numbers buffer ∧ elements.Carried buffer := by
  rw [value_eq_iff]
  constructor
  · rintro ⟨hother, hcarried⟩
    have hkind := List.cons.inj (hother.filled.symm.trans hstates.filled)
    have helements := hother.elements
    rw [hkind.1, hstates.elements] at helements
    cases helements
    exact ⟨_, rfl, hcarried⟩
  · rintro ⟨buffer, rfl, hcarried⟩
    exact .read hstates hcarried

/-! ## Which arguments are read -/

theorem exists_carried_iff (elements : Elements) :
    (∃ buffer, elements.Carried buffer) ↔ elements.Fits := by
  cases elements with
  | integers numbers =>
      simp only [← @narrowAll_eq_ok_iff {}, narrowAll]
      rw [← map_eq_pure_bind, exists_map_ok_iff, exists_mapM_ok_iff]
      exact forall₂_congr fun number _ => exists_narrow_iff
  | floats numbers => exact iff_of_true ⟨_, .floats numbers.toArray⟩ trivial
  | bytes content => exact iff_of_true ⟨_, .bytes content.toArray⟩ trivial

theorem exists_value_iff :
    (∃ value, argument.value = .ok value) ↔
      ∃ kind elements, argument.States kind elements ∧ elements.Fits := by
  constructor
  · rintro ⟨value, hvalue⟩
    obtain ⟨hstates, hcarried⟩ := value_eq_iff.mp hvalue
    exact ⟨_, _, hstates, (exists_carried_iff _).mp ⟨_, hcarried⟩⟩
  · rintro ⟨kind, elements, hstates, hfits⟩
    obtain ⟨buffer, hcarried⟩ := (exists_carried_iff elements).mpr hfits
    exact ⟨_, value_eq_of_outcome (.read hstates hcarried)⟩

/-! ## Arguments that read the same -/

theorem ofKind_of_elements? (helements : argument.elements? kind = some elements) :
    elements.OfKind kind := by
  cases kind with
  | int | float | bytes =>
      obtain ⟨content, -, rfl⟩ := Option.map_eq_some_iff.mp helements
      constructor
  | ints | floats =>
      cases helements
      constructor
  | strings | tensor | net | tensors | nets | qtensors => cases helements

/-- An argument is read if it has one payload, of a supported kind and of integers that fit.  What
else it ends in is for too many payloads or none, then for the kind of the one payload, then for the
first integer that does not fit.  Arguments have the same value if their payloads have the same
elements, and then the payloads are of the same kind or a scalar and a list of one element. -/
theorem value_outcome (argument : Argument) :
    (argument.populated.Nodup ∧ ∀ kind, kind ∈ argument.populated ↔ argument.Fills kind) ∧
    (∀ outcome, argument.value = outcome ↔ argument.Outcome outcome) ∧
    ((∃ value, argument.value = .ok value) ↔
      ∃ kind elements, argument.States kind elements ∧ elements.Fits) ∧
    ∀ (other : Argument) kind elements otherKind otherElements value otherValue,
      argument.States kind elements → other.States otherKind otherElements →
      argument.value = .ok value → other.value = .ok otherValue →
      (value = otherValue ↔ elements = otherElements) ∧
      (elements = otherElements →
        kind = otherKind ∨ elements.Lists kind otherKind ∨ elements.Lists otherKind kind) := by
  refine ⟨⟨nodup_populated argument, fun kind => ?_⟩, fun outcome => value_eq_iff,
    exists_value_iff, ?_⟩
  · rw [mem_populated, holds_iff_fills]
  · intro other kind elements otherKind otherElements value otherValue hstates hother hvalue
      hotherValue
    obtain ⟨buffer, rfl, hcarried⟩ := (value_eq_ok_iff hstates).mp hvalue
    obtain ⟨otherBuffer, rfl, hotherCarried⟩ := (value_eq_ok_iff hother).mp hotherValue
    constructor
    · rw [Value.numbers.injEq]
      exact Elements.carried_inj hcarried hotherCarried
    · rintro rfl
      exact Elements.kinds_of_elements (ofKind_of_elements? hstates.elements)
        (ofKind_of_elements? hother.elements)

/-- Two of its integers fit, and the two after them do not. -/
def tooLarge : Argument where
  name := some "shape"
  ints := [-2147483648, 2147483647, 2147483648, -2147483649]

def oneScalar : Argument where
  int := some (-7)

def oneListed : Argument where
  ints := [-7]

theorem value_outcome_tooLarge :
    tooLarge.value = .error (.integerOverflow "shape" 2147483648) ∧
      ∃ value, oneScalar.value = .ok value ∧ oneListed.value = .ok value := by
  obtain ⟨-, htooLarge, -, -⟩ := value_outcome tooLarge
  obtain ⟨-, -, hread, hsame⟩ := value_outcome oneScalar
  have hscalar : oneScalar.States .int (.integers [-7]) := ⟨by decide, rfl⟩
  have hlisted : oneListed.States .ints (.integers [-7]) := ⟨by decide, rfl⟩
  obtain ⟨value, hvalue⟩ := hread.mpr ⟨.int, _, hscalar, by simp [Elements.Fits, FitsInt32]⟩
  obtain ⟨hvalues, -⟩ := hsame oneListed _ _ _ _ value (.numbers (.int32 #[-7])) hscalar hlisted
    hvalue (by decide)
  refine ⟨(htooLarge _).mpr ?_, value, hvalue, by rw [hvalues.mpr rfl]; decide⟩
  exact @Outcome.overflow tooLarge .ints [-2147483648, 2147483647] [-2147483649] 2147483648
    ⟨by decide, rfl⟩ (by simp [FitsInt32]) (by simp [FitsInt32])

end Argument

end NetLowering
