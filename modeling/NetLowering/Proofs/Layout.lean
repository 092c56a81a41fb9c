import Mathlib.Tactic.Ring
import NetLowering.Layout
import NetLowering.Operand
import NetLowering.Proofs.Checked

/-!
# Where relayouts put the elements

A cell of an image tensor has one place in each layout.  A relayout moves every
element from its place in the one layout to its place in the other, whatever
the elements are: it has the same effect before and after a change of every
element (`toChannelLast_map`), and so for buffers of every type
(`Buffer.element?_rearrange`).
-/

namespace NetLowering

open Checked

/-! ## Places -/

structure ImageShape where
  images : Nat
  channels : Nat
  rows : Nat
  columns : Nat
deriving DecidableEq, Repr

structure Cell where
  image : Nat
  channel : Nat
  row : Nat
  column : Nat
deriving DecidableEq, Repr

structure ImageShape.Has (shape : ImageShape) (cell : Cell) : Prop where
  image : cell.image < shape.images
  channel : cell.channel < shape.channels
  row : cell.row < shape.rows
  column : cell.column < shape.columns

namespace Layout

def dims (layout : Layout) (shape : ImageShape) : List Nat :=
  match layout with
  | .channelFirst => [shape.images, shape.channels, shape.rows, shape.columns]
  | .channelLast => [shape.images, shape.rows, shape.columns, shape.channels]

/-- Where a cell stands in a buffer of this layout. -/
def place (layout : Layout) (shape : ImageShape) (cell : Cell) : Nat :=
  match layout with
  | .channelFirst =>
      cell.image * shape.channels * shape.rows * shape.columns +
        cell.channel * shape.rows * shape.columns + cell.row * shape.columns + cell.column
  | .channelLast =>
      cell.image * shape.rows * shape.columns * shape.channels +
        cell.row * shape.columns * shape.channels + cell.column * shape.channels + cell.channel

theorem span_dims (layout : Layout) (shape : ImageShape) :
    span (layout.dims shape) = shape.images * shape.channels * shape.rows * shape.columns := by
  cases layout <;>
    (simp only [dims, span, List.foldr_cons, List.foldr_nil]
     ring)

end Layout

theorem digits_lt {count base high low : Nat} (hhigh : high < count) (hlow : low < base) :
    high * base + low < count * base :=
  calc high * base + low
      < (high + 1) * base := by rw [Nat.succ_mul]; omega
    _ ≤ count * base := Nat.mul_le_mul_right _ hhigh

/-- Where a cell of a single-channel shape stands, channels last, once its image counts as a
channel. -/
def ImageShape.planePlace (shape : ImageShape) (cell : Cell) : Nat :=
  Layout.channelLast.place ⟨1, shape.images, shape.rows, shape.columns⟩
    ⟨0, cell.image, cell.row, cell.column⟩

theorem ImageShape.Has.plane_lt {shape : ImageShape} {cell : Cell} (hcell : shape.Has cell) :
    cell.row * shape.columns + cell.column < shape.rows * shape.columns :=
  digits_lt hcell.row hcell.column

/-- A cell of the shape has its place within the buffer. -/
theorem Layout.place_lt (layout : Layout) {shape : ImageShape} {cell : Cell}
    (hcell : shape.Has cell) : layout.place shape cell < span (layout.dims shape) := by
  rw [span_dims]
  cases layout with
  | channelFirst =>
      calc place .channelFirst shape cell
          = ((cell.image * shape.channels + cell.channel) * shape.rows + cell.row) *
              shape.columns + cell.column := by rw [place]; ring
        _ < shape.images * shape.channels * shape.rows * shape.columns :=
          digits_lt (digits_lt (digits_lt hcell.image hcell.channel) hcell.row) hcell.column
  | channelLast =>
      calc place .channelLast shape cell
          = ((cell.image * shape.rows + cell.row) * shape.columns + cell.column) *
              shape.channels + cell.channel := by rw [place]; ring
        _ < shape.images * shape.rows * shape.columns * shape.channels :=
          digits_lt (digits_lt (digits_lt hcell.image hcell.row) hcell.column) hcell.channel
        _ = shape.images * shape.channels * shape.rows * shape.columns := by ring

/-! ## Axes -/

/-- What a check of the axes asks for. -/
def FillsSpan (count : Nat) (axes : List Nat) : Prop :=
  count = span axes ∧ span (axes.filter (· ≠ 0)) ≤ maxSpan

theorem exists_checkAxes_iff {count : Nat} {axes : List Nat} :
    (∃ filled, checkAxes count axes = .ok filled) ↔ FillsSpan count axes := by
  constructor
  · rintro ⟨filled, hchecked⟩
    refine ⟨filled.down, ?_⟩
    by_contra hspan
    rw [checkAxes] at hchecked
    by_cases hword : count = wordSpan axes
    · rw [dif_pos hword, dif_neg hspan] at hchecked
      cases hchecked
    · rw [dif_neg hword] at hchecked
      cases hchecked
  · rintro ⟨hfilled, hspan⟩
    have hword : count = wordSpan axes := by rw [wordSpan_eq hspan, hfilled]
    exact ⟨⟨hfilled⟩, by rw [checkAxes, dif_pos hword, dif_pos hspan]⟩

theorem wordSpan_plane {h w : Nat} (hplane : h * w < 2 ^ 64) : wordSpan [h, w] = h * w := by
  simpa [wordSpan, span] using Nat.mod_eq_of_lt hplane

/-- The elements of an operand are its span as a machine word counts it. -/
theorem OperandType.elements_eq (type : OperandType) :
    type.elements = wordSpan (type.dims.map UInt32.toNat) := by
  suffices hfold : ∀ (dims : List UInt32) (count : UInt64),
      (dims.foldl (fun count dim => count * dim.toUInt64) count).toNat =
        count.toNat * span (dims.map UInt32.toNat) % 2 ^ 64 by
    simpa [elements, wordSpan] using hfold type.dims 1
  intro dims
  induction dims with
  | nil =>
      intro count
      have := count.toNat_lt
      simp [span, Nat.mod_eq_of_lt this]
  | cons dim dims ih =>
      intro count
      rw [List.foldl_cons, ih, UInt64.toNat_mul, UInt32.toNat_toUInt64, Nat.mod_mul_mod,
        Nat.mul_assoc]
      rfl

theorem OperandType.elements_of_lt {type : OperandType}
    (hsmall : span (type.dims.map UInt32.toNat) < 2 ^ 64) :
    type.elements = span (type.dims.map UInt32.toNat) := by
  rw [elements_eq]
  exact Nat.mod_eq_of_lt hsmall

/-! ## Relayouts of arrays -/

section Arrays

variable {α β : Type} {values relaid : Array α}

theorem exists_toChannelLast_iff {n c h w : Nat} :
    (∃ relaid, toChannelLast n c h w values = .ok relaid) ↔
      FillsSpan values.size [n, c, h, w] := by
  rw [toChannelLast, exists_bind_ok_iff, ← exists_checkAxes_iff]
  exact exists_congr fun filled => and_iff_left ⟨_, rfl⟩

theorem size_of_toChannelLast {n c h w : Nat}
    (hrelaid : toChannelLast n c h w values = .ok relaid) :
    values.size = n * c * h * w ∧ relaid.size = values.size := by
  obtain ⟨filled, -, hrelaid⟩ := bind_eq_ok_iff.mp hrelaid
  obtain rfl := pure_eq_ok_iff.mp hrelaid
  exact ⟨by simpa [span, Nat.mul_assoc] using filled.down, size_transposeBlocks _ _ _ _ _⟩

theorem getElem?_toChannelLast {shape : ImageShape}
    (hrelaid : toChannelLast shape.images shape.channels shape.rows shape.columns values =
      .ok relaid) {cell : Cell} (hcell : shape.Has cell) :
    relaid[Layout.channelLast.place shape cell]? =
      values[Layout.channelFirst.place shape cell]? := by
  obtain ⟨filled, -, hrelaid⟩ := bind_eq_ok_iff.mp hrelaid
  obtain rfl := pure_eq_ok_iff.mp hrelaid
  have hlaw := getElem?_transposeBlocks values
    (by simpa [span, Nat.mul_assoc] using filled.down) hcell.image hcell.channel hcell.plane_lt
  have htarget : Layout.channelLast.place shape cell =
      cell.image * (shape.channels * (shape.rows * shape.columns)) +
        ((cell.row * shape.columns + cell.column) * shape.channels + cell.channel) := by
    rw [Layout.place]
    ring
  have hsource : Layout.channelFirst.place shape cell =
      cell.image * (shape.channels * (shape.rows * shape.columns)) +
        (cell.channel * (shape.rows * shape.columns) +
          (cell.row * shape.columns + cell.column)) := by
    rw [Layout.place]
    ring
  rw [htarget, hsource]
  exact hlaw

theorem size_of_planesToChannels {n h w : Nat} (hplane : h * w < 2 ^ 64)
    (hrepacked : planesToChannels n h w values = .ok relaid) :
    values.size = n * h * w ∧ relaid.size = values.size := by
  obtain ⟨filled, -, hrepacked⟩ := bind_eq_ok_iff.mp hrepacked
  obtain rfl := pure_eq_ok_iff.mp hrepacked
  refine ⟨?_, size_transposeBlocks _ _ _ _ _⟩
  have hfilled : values.size = n * wordSpan [h, w] := by simpa [span] using filled.down
  rw [hfilled, wordSpan_plane hplane, Nat.mul_assoc]

theorem getElem?_planesToChannels {shape : ImageShape} (hsingle : shape.channels = 1)
    (hplane : shape.rows * shape.columns < 2 ^ 64)
    (hrepacked : planesToChannels shape.images shape.rows shape.columns values = .ok relaid)
    {cell : Cell} (hcell : shape.Has cell) :
    relaid[shape.planePlace cell]? = values[Layout.channelLast.place shape cell]? := by
  obtain ⟨filled, -, hrepacked⟩ := bind_eq_ok_iff.mp hrepacked
  obtain rfl := pure_eq_ok_iff.mp hrepacked
  have hword := wordSpan_plane hplane
  have hlaw := getElem?_transposeBlocks values (by simpa [span] using filled.down)
    Nat.one_pos hcell.image (hword ▸ hcell.plane_lt)
  simp only [hword] at hlaw ⊢
  have hchannel : cell.channel = 0 := Nat.lt_one_iff.mp (hsingle ▸ hcell.channel)
  have htarget : shape.planePlace cell =
      0 * (shape.images * (shape.rows * shape.columns)) +
        ((cell.row * shape.columns + cell.column) * shape.images + cell.image) := by
    rw [ImageShape.planePlace, Layout.place]
    ring
  have hsource : Layout.channelLast.place shape cell =
      0 * (shape.images * (shape.rows * shape.columns)) +
        (cell.image * (shape.rows * shape.columns) +
          (cell.row * shape.columns + cell.column)) := by
    rw [Layout.place, hsingle, hchannel]
    ring
  rw [htarget, hsource]
  exact hlaw

private theorem transposeBlocks_map (f : α → β) {blocks rows columns : Nat}
    (whole : values.size = blocks * (rows * columns))
    (mapped : (values.map f).size = blocks * (rows * columns)) :
    transposeBlocks (values.map f) blocks rows columns mapped =
      (transposeBlocks values blocks rows columns whole).map f := by
  apply Array.ext
  · simp
  · simp [transposeBlocks]

/-- A relayout does not look at the elements. -/
private theorem relayout_map (f : α → β) (values : Array α) {axes : List Nat}
    {blocks rows columns : Nat}
    (whole : ∀ size, size = span axes → size = blocks * (rows * columns)) :
    (do
      let filled ← checkAxes (values.map f).size axes
      return transposeBlocks (values.map f) blocks rows columns (whole _ filled.down)) =
    (do
      let filled ← checkAxes values.size axes
      return transposeBlocks values blocks rows columns (whole _ filled.down) :
        Except ShapeError (Array α)).map (Array.map f) := by
  rw [checkAxes, checkAxes]
  by_cases hfilled : values.size = wordSpan axes
  · have hmapped : (values.map f).size = wordSpan axes := by rwa [Array.size_map]
    rw [dif_pos hfilled, dif_pos hmapped]
    by_cases hspan : span (axes.filter (· ≠ 0)) ≤ maxSpan
    · rw [dif_pos hspan, dif_pos hspan]
      exact congrArg Except.ok (transposeBlocks_map f _ _)
    · rw [dif_neg hspan, dif_neg hspan]
      rfl
  · have hmapped : ¬(values.map f).size = wordSpan axes := by rwa [Array.size_map]
    rw [dif_neg hfilled, dif_neg hmapped]
    rfl

theorem toChannelLast_map (f : α → β) (n c h w : Nat) (values : Array α) :
    toChannelLast n c h w (values.map f) = (toChannelLast n c h w values).map (Array.map f) :=
  relayout_map f values fun size filled => by simpa [span, Nat.mul_assoc] using filled

theorem planesToChannels_map (f : α → β) (n h w : Nat) (values : Array α) :
    planesToChannels n h w (values.map f) = (planesToChannels n h w values).map (Array.map f) :=
  relayout_map f values fun size filled => by simpa [span] using filled

end Arrays

/-! ## Relayouts of buffers -/

/-- One number of a buffer, with its type. -/
inductive Element where
  | float32 (value : Single)
  | int32 (value : Int32)
  | uint8 (value : UInt8)
  | int8 (value : Int8)
deriving DecidableEq

namespace Buffer

def element? (buffer : Buffer) (place : Nat) : Option Element :=
  match buffer with
  | .float32 values => values[place]?.map .float32
  | .int32 values => values[place]?.map .int32
  | .uint8 values => values[place]?.map .uint8
  | .int8 values => values[place]?.map .int8

variable {ε : Type} {arrange : {α : Type} → Array α → Except ε (Array α)} {buffer relaid : Buffer}

theorem element?_rearrange {place source : Nat}
    (harrange : ∀ {α : Type} {values arranged : Array α}, arrange values = .ok arranged →
      arranged[place]? = values[source]?)
    (hrelaid : buffer.rearrange arrange = .ok relaid) :
    relaid.element? place = buffer.element? source := by
  cases buffer <;>
    (obtain ⟨arranged, harranged, rfl⟩ := map_eq_ok_iff.mp hrelaid
     simp only [element?, harrange harranged])

theorem size_rearrange {size : Nat}
    (harrange : ∀ {α : Type} {values arranged : Array α}, arrange values = .ok arranged →
      values.size = size ∧ arranged.size = values.size)
    (hrelaid : buffer.rearrange arrange = .ok relaid) :
    buffer.size = size ∧ relaid.size = buffer.size := by
  cases buffer <;>
    (obtain ⟨arranged, harranged, rfl⟩ := map_eq_ok_iff.mp hrelaid
     exact harrange harranged)

theorem elemType_rearrange (hrelaid : buffer.rearrange arrange = .ok relaid) :
    relaid.elemType = buffer.elemType := by
  cases buffer <;>
    (obtain ⟨arranged, harranged, rfl⟩ := map_eq_ok_iff.mp hrelaid
     rfl)

end Buffer

theorem Buffer.exists_toChannelLast_iff {n c h w : Nat} {buffer : Buffer} :
    (∃ relaid, buffer.rearrange (toChannelLast n c h w) = .ok relaid) ↔
      FillsSpan buffer.size [n, c, h, w] := by
  cases buffer <;> exact exists_map_ok_iff.trans NetLowering.exists_toChannelLast_iff

end NetLowering
