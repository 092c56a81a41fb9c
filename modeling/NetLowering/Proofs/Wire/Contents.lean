import Mathlib.Data.List.Forall2
import NetLowering.Proofs.Wire.Spelling

/-!
# What payloads carry

A payload carries a text, bytes, an integer in two's complement or the word of a
number, its lowest byte first.  Integers and numbers also come packed, one after the
other in one payload.  Each reader of a payload accepts what carries a value of its
kind and answers that value.
-/

namespace NetLowering

/-- The bytes of the number's word, the lowest first. -/
def Single.littleEndian (number : Single) : Bytes :=
  (List.range 4).map fun place => .ofNat (number.bits.toNat / 256 ^ place)

namespace Wire

variable {α β : Type}

/-! ## Packed payloads -/

/-- The spellings of the items stand one after the other. -/
def Packs (Spells : α → Bytes → Prop) (items : List α) (bytes : Bytes) : Prop :=
  ∃ parts, List.Forall₂ Spells items parts ∧ bytes = parts.flatten

theorem packed_eq_some_iff {read : Bytes → Option (α × Bytes)} {Spells : α → Bytes → Prop}
    (hreads : Reads read Spells) (hpositive : ∀ item first, Spells item first → first ≠ [])
    {bytes : Bytes} {items : List α} :
    packed read bytes = some items ↔ Packs Spells items bytes := by
  constructor
  · intro hread
    fun_induction packed read bytes generalizing items with
    | case1 bytes hbytes =>
        cases hread
        exact ⟨[], .nil, List.isEmpty_iff.mp hbytes⟩
    | case3 bytes _ item rest hitem _ ih =>
        obtain ⟨others, hothers, rfl⟩ := Option.map_eq_some_iff.mp hread
        obtain ⟨first, hfirst, rfl⟩ := (hreads _ _ _).mp hitem
        obtain ⟨parts, hparts, rfl⟩ := ih hothers
        exact ⟨first :: parts, .cons hfirst hparts, rfl⟩
    | case2 | case4 => cases hread
  · rintro ⟨parts, hparts, rfl⟩
    induction hparts with
    | nil =>
        rw [packed]
        rfl
    | @cons item first items parts hfirst _ ih =>
        have hempty : List.isEmpty (first ++ parts.flatten) = false := by
          simp [hpositive item first hfirst]
        rw [List.flatten_cons, packed, hempty, hreads.read_append hfirst]
        simp [ih, hpositive item first hfirst]

/-- Items that are made of what is read are packed as what they are made of. -/
theorem map_packed_eq_some_iff {read : Bytes → Option (α × Bytes)} {Spells : α → Bytes → Prop}
    {SpellsResult : β → Bytes → Prop} {f : α → β} (hreads : Reads read Spells)
    (hpositive : ∀ item first, Spells item first → first ≠ [])
    (hresult : ∀ result first,
      SpellsResult result first ↔ ∃ item, Spells item first ∧ f item = result)
    {bytes : Bytes} {results : List β} :
    (packed read bytes).map (List.map f) = some results ↔ Packs SpellsResult results bytes := by
  simp only [Option.map_eq_some_iff, packed_eq_some_iff hreads hpositive]
  constructor
  · rintro ⟨items, ⟨parts, hparts, hbytes⟩, rfl⟩
    refine ⟨parts, List.forall₂_map_left_iff.mpr ?_, hbytes⟩
    exact hparts.imp fun item first hitem => (hresult _ _).mpr ⟨item, hitem, rfl⟩
  · rintro ⟨parts, hparts, rfl⟩
    induction hparts with
    | nil => exact ⟨[], ⟨[], .nil, rfl⟩, rfl⟩
    | cons hfirst _ ih =>
        obtain ⟨item, hitem, rfl⟩ := (hresult _ _).mp hfirst
        obtain ⟨items, ⟨parts, hparts, hbytes⟩, rfl⟩ := ih
        exact ⟨item :: items, ⟨_ :: parts, .cons hitem hparts, by simp [hbytes]⟩, rfl⟩

theorem SpellsVarint.ne_nil {number : Nat} {bytes : Bytes} (hspells : SpellsVarint number bytes) :
    bytes ≠ [] := by
  rintro rfl
  cases hspells.groups

/-! ## Payloads -/

namespace Payload

/-- A payload has the size that its form gives it. -/
def Fits : Payload → Prop
  | varint number => number < 2 ^ 64
  | fixed64 content => content.length = 8
  | fixed32 content => content.length = 4
  | delimited _ | group => True

def CarriesText (payload : Payload) (text : String) : Prop :=
  payload = .delimited text.toUTF8.data.toList

def CarriesBytes (payload : Payload) (content : Bytes) : Prop := payload = .delimited content

/-- An integer in two's complement. -/
def CarriesInt (payload : Payload) (number : Int64) : Prop :=
  payload = .varint number.toUInt64.toNat

def CarriesSingle (payload : Payload) (number : Single) : Prop :=
  payload = .fixed32 number.littleEndian

/-- One integer, or any number of them packed. -/
def CarriesInts (payload : Payload) (numbers : List Int64) : Prop :=
  (∃ number, payload.CarriesInt number ∧ numbers = [number]) ∨
    ∃ content, payload = .delimited content ∧
      Packs (fun number first => SpellsVarint number.toUInt64.toNat first) numbers content

/-- One number, or any number of them packed. -/
def CarriesSingles (payload : Payload) (numbers : List Single) : Prop :=
  (∃ number, payload.CarriesSingle number ∧ numbers = [number]) ∨
    ∃ content, payload = .delimited content ∧
      Packs (fun number first => first = number.littleEndian) numbers content

variable {payload : Payload}

theorem bytes?_eq_some_iff {content : Bytes} :
    payload.bytes? = some content ↔ payload.CarriesBytes content := by
  cases payload <;> simp [bytes?, CarriesBytes]

theorem text?_eq_some_iff {text : String} :
    payload.text? = some text ↔ payload.CarriesText text := by
  simp only [text?, Option.bind_eq_some_iff, bytes?_eq_some_iff, CarriesBytes, CarriesText,
    Text.ofBytes?_eq_some_iff]
  exact exists_eq_right

theorem int64_eq_iff {number : Nat} (hfits : number < 2 ^ 64) {value : Int64} :
    int64 number = value ↔ number = value.toUInt64.toNat := by
  constructor
  · rintro rfl
    rw [int64, UInt64.toUInt64_toInt64, UInt64.toNat_ofNat', Nat.mod_eq_of_lt hfits]
  · rintro rfl
    rw [int64, UInt64.ofNat_toNat, Int64.toInt64_toUInt64]

/-- Four bytes are the ones of the number that they are read as. -/
theorem single_eq_iff {content : Bytes} (hlength : content.length = 4) {number : Single} :
    single content = number ↔ content = number.littleEndian := by
  obtain ⟨word⟩ := number
  have hword := word.toNat_lt
  match content, hlength with
  | [a, b, c, d], _ =>
      have ha := a.toNat_lt
      have hb := b.toNat_lt
      have hc := c.toNat_lt
      have hd := d.toNat_lt
      simp only [single, littleEndian, Single.littleEndian, Single.mk.injEq, List.foldr_cons,
        List.foldr_nil, List.range, List.range.loop, List.map_cons, List.map_nil, List.cons.injEq,
        and_true, ← UInt32.toNat_inj, ← UInt8.toNat_inj, UInt8.toNat_ofNat',
        UInt32.toNat_ofNat', Nat.reducePow]
      omega

theorem int?_eq_some_iff (hfits : payload.Fits) {number : Int64} :
    payload.int? = some number ↔ payload.CarriesInt number := by
  cases payload with
  | varint found => simpa [int?, CarriesInt] using int64_eq_iff hfits
  | fixed64 | delimited | group | fixed32 => simp [int?, CarriesInt]

theorem single?_eq_some_iff (hfits : payload.Fits) {number : Single} :
    payload.single? = some number ↔ payload.CarriesSingle number := by
  cases payload with
  | fixed32 content => simpa [single?, CarriesSingle] using single_eq_iff hfits
  | varint | fixed64 | delimited | group => simp [single?, CarriesSingle]

theorem ints?_eq_some_iff (hfits : payload.Fits) {numbers : List Int64} :
    payload.ints? = some numbers ↔ payload.CarriesInts numbers := by
  have hspells (number : Int64) (first : Bytes) : SpellsVarint number.toUInt64.toNat first ↔
      ∃ found, SpellsVarint found first ∧ int64 found = number := by
    constructor
    · exact fun hspells => ⟨_, hspells, (int64_eq_iff hspells.fits).mpr rfl⟩
    · rintro ⟨found, hspells, hnumber⟩
      exact (int64_eq_iff hspells.fits).mp hnumber ▸ hspells
  cases payload with
  | varint found => simp [ints?, CarriesInts, CarriesInt, ← int64_eq_iff hfits, eq_comm]
  | delimited content =>
      rw [ints?, map_packed_eq_some_iff reads_varint (fun _ _ => SpellsVarint.ne_nil) hspells]
      simp [CarriesInts, CarriesInt]
  | fixed64 | group | fixed32 => simp [ints?, CarriesInts, CarriesInt]

theorem singles?_eq_some_iff (hfits : payload.Fits) {numbers : List Single} :
    payload.singles? = some numbers ↔ payload.CarriesSingles numbers := by
  have hspells (number : Single) (first : Bytes) : first = number.littleEndian ↔
      ∃ found, (first = found ∧ found.length = 4) ∧ single found = number := by
    constructor
    · rintro rfl
      exact ⟨_, ⟨rfl, rfl⟩, (single_eq_iff rfl).mpr rfl⟩
    · rintro ⟨found, ⟨rfl, hlength⟩, hnumber⟩
      exact (single_eq_iff hlength).mp hnumber
  have hpositive (content first : Bytes) (hspells : first = content ∧ content.length = 4) :
      first ≠ [] := by
    rintro rfl
    simp [← hspells.1] at hspells
  cases payload with
  | fixed32 content =>
      simp [singles?, CarriesSingles, CarriesSingle, ← single_eq_iff hfits, eq_comm]
  | delimited content =>
      rw [singles?, map_packed_eq_some_iff (reads_split? 4) hpositive hspells]
      simp [CarriesSingles, CarriesSingle]
  | varint | fixed64 | group => simp [singles?, CarriesSingles, CarriesSingle]

end Payload

theorem Spells.fits {budget : Nat} {fields : List Field} {bytes : Bytes}
    (hspells : Spells budget fields bytes) : ∀ field ∈ fields, field.payload.Fits := by
  induction hspells with
  | done => simp
  | field _ hpayload _ ih =>
      refine List.forall_mem_cons.mpr ⟨?_, ih⟩
      cases hpayload with
      | varint hnumber => exact hnumber.fits
      | fixed64 hlength => exact hlength
      | delimited => trivial
      | fixed32 hlength => exact hlength
  | group _ _ _ _ _ ih => exact List.forall_mem_cons.mpr ⟨trivial, ih⟩

end Wire

end NetLowering
