import Mathlib.Algebra.BigOperators.Group.List.Basic
import NetLowering.Proofs.Layout

/-!
# Relayouts undo each other

A block that has been transposed is as it was once it is transposed back.  The two
changes of layout transpose the same blocks, the one the rows and the other the
columns of them, and both are refused for the same axes, so each of them undoes the
other (`relayouts_inverse`).
-/

namespace NetLowering

open Checked

variable {α : Type} {values relaid : Array α}

/-! ## Transposing back -/

private theorem exists_cell {rows columns place : Nat} (hplace : place < rows * columns) :
    ∃ row column, row < rows ∧ column < columns ∧ place = row * columns + column := by
  have hcolumns : 0 < columns := Nat.pos_of_mul_pos_left (Nat.zero_lt_of_lt hplace)
  refine ⟨place / columns, place % columns, ?_, Nat.mod_lt _ hcolumns, ?_⟩
  · exact Nat.div_lt_of_lt_mul (Nat.mul_comm rows columns ▸ hplace)
  · rw [Nat.mul_comm, Nat.div_add_mod]

theorem transposeBlocks_transposeBlocks {blocks rows columns : Nat}
    (whole : values.size = blocks * (rows * columns))
    (turned : (transposeBlocks values blocks rows columns whole).size =
      blocks * (columns * rows)) :
    transposeBlocks (transposeBlocks values blocks rows columns whole) blocks columns rows turned =
      values := by
  apply Array.ext_getElem?
  intro place
  by_cases hplace : place < values.size
  · obtain ⟨block, within, hblock, hwithin, rfl⟩ := exists_cell (whole ▸ hplace)
    obtain ⟨row, column, hrow, hcolumn, rfl⟩ := exists_cell hwithin
    have hback := getElem?_transposeBlocks _ turned hblock hcolumn hrow
    rw [Nat.mul_comm columns rows] at hback
    exact hback.trans (getElem?_transposeBlocks values whole hblock hrow hcolumn)
  · rw [Array.getElem?_eq_none (by simpa using hplace),
      Array.getElem?_eq_none (Nat.not_lt.mp hplace)]

/-! ## Changes of layout -/

theorem FillsSpan.of_perm {count : Nat} {axes others : List Nat} (hfills : FillsSpan count axes)
    (hperm : axes.Perm others) : FillsSpan count others := by
  obtain ⟨hcount, haddressable⟩ := hfills
  refine ⟨hcount.trans hperm.prod_eq, ?_⟩
  exact (hperm.filter _).prod_eq.symm.trans_le haddressable

theorem fillsSpan_channels_iff {count n c h w : Nat} :
    FillsSpan count [n, h, w, c] ↔ FillsSpan count [n, c, h, w] := by
  have hcommutes : ([h, w] ++ [c]).Perm ([c] ++ [h, w]) := List.perm_append_comm
  have hperm : [n, h, w, c].Perm [n, c, h, w] := hcommutes.cons n
  exact ⟨fun hfills => hfills.of_perm hperm, fun hfills => hfills.of_perm hperm.symm⟩

theorem fillsSpan_image_iff {count n c h w : Nat} :
    FillsSpan count [n, c, h, w] ↔
      count = n * c * h * w ∧ ([n, c, h, w].filter (· ≠ 0)).prod ≤ 2 ^ 63 - 1 := by
  have hspan : span [n, c, h, w] = n * c * h * w := by simp [span, Nat.mul_assoc]
  rw [FillsSpan, hspan]
  rfl

theorem toChannelLast_eq_ok_iff {n c h w : Nat} :
    toChannelLast n c h w values = .ok relaid ↔
      FillsSpan values.size [n, c, h, w] ∧
        ∃ whole, transposeBlocks values n c (h * w) whole = relaid := by
  rw [← exists_checkAxes_iff, toChannelLast, bind_eq_ok_iff]
  constructor
  · rintro ⟨filled, hchecked, hrelaid⟩
    exact ⟨⟨filled, hchecked⟩, _, (pure_eq_ok_iff.mp hrelaid).symm⟩
  · rintro ⟨⟨filled, hchecked⟩, whole, hrelaid⟩
    exact ⟨filled, hchecked, pure_eq_ok_iff.mpr hrelaid.symm⟩

theorem toChannelFirst_eq_ok_iff {n c h w : Nat} :
    toChannelFirst n h w c values = .ok relaid ↔
      FillsSpan values.size [n, c, h, w] ∧
        ∃ whole, transposeBlocks values n (h * w) c whole = relaid := by
  rw [← fillsSpan_channels_iff, ← exists_checkAxes_iff, toChannelFirst, bind_eq_ok_iff]
  constructor
  · rintro ⟨filled, hchecked, hrelaid⟩
    exact ⟨⟨filled, hchecked⟩, _, (pure_eq_ok_iff.mp hrelaid).symm⟩
  · rintro ⟨⟨filled, hchecked⟩, whole, hrelaid⟩
    exact ⟨filled, hchecked, pure_eq_ok_iff.mpr hrelaid.symm⟩

theorem exists_toChannelFirst_iff {n c h w : Nat} :
    (∃ relaid, toChannelFirst n h w c values = .ok relaid) ↔
      FillsSpan values.size [n, c, h, w] := by
  rw [toChannelFirst, exists_bind_ok_iff, ← fillsSpan_channels_iff, ← exists_checkAxes_iff]
  exact exists_congr fun filled => and_iff_left ⟨_, rfl⟩

/-- What is relaid channels last is what was relaid channels first from it. -/
theorem toChannelLast_iff_toChannelFirst {n c h w : Nat} :
    toChannelLast n c h w values = .ok relaid ↔ toChannelFirst n h w c relaid = .ok values := by
  rw [toChannelLast_eq_ok_iff, toChannelFirst_eq_ok_iff]
  constructor
  · rintro ⟨hfills, whole, rfl⟩
    have hsize := size_transposeBlocks values n c (h * w) whole
    refine ⟨by rwa [hsize], ?_, transposeBlocks_transposeBlocks whole ?_⟩
    all_goals rw [hsize, whole, Nat.mul_comm c]
  · rintro ⟨hfills, whole, rfl⟩
    have hsize := size_transposeBlocks relaid n (h * w) c whole
    refine ⟨by rwa [hsize], ?_, transposeBlocks_transposeBlocks whole ?_⟩
    all_goals rw [hsize, whole, Nat.mul_comm c]

/-- Every cell of the image has the same element in both layouts. -/
theorem getElem_of_toChannelLast {n c h w : Nat}
    (hrelaid : toChannelLast n c h w values = .ok relaid) {i k y x : Nat} (hi : i < n) (hk : k < c)
    (hy : y < h) (hx : x < w) :
    ∃ (target : i * h * w * c + y * w * c + x * c + k < relaid.size)
      (source : i * c * h * w + k * h * w + y * w + x < values.size),
      relaid[i * h * w * c + y * w * c + x * c + k] =
        values[i * c * h * w + k * h * w + y * w + x] := by
  have hcell : ImageShape.Has ⟨n, c, h, w⟩ ⟨i, k, y, x⟩ := ⟨hi, hk, hy, hx⟩
  obtain ⟨hfilled, hsize⟩ := size_of_toChannelLast hrelaid
  have htarget := Layout.channelLast.place_lt hcell
  have hsource := Layout.channelFirst.place_lt hcell
  rw [Layout.span_dims, ← hfilled] at htarget hsource
  refine ⟨hsize ▸ htarget, hsource, ?_⟩
  have hplaced : relaid[Layout.channelLast.place ⟨n, c, h, w⟩ ⟨i, k, y, x⟩]? =
      values[Layout.channelFirst.place ⟨n, c, h, w⟩ ⟨i, k, y, x⟩]? :=
    getElem?_toChannelLast hrelaid hcell
  rw [Array.getElem?_eq_getElem (hsize ▸ htarget), Array.getElem?_eq_getElem hsource] at hplaced
  exact Option.some.inj hplaced

/-- What a change of layout asks of a buffer, where it puts the elements, and that the other one
undoes it. -/
theorem relayouts_inverse {α : Type} (n c h w : Nat) :
    channelsLast #[n, c, h, w] = #[n, h, w, c] ∧
    (∀ values : Array α,
      ((∃ relaid, toChannelLast n c h w values = .ok relaid) ↔
        values.size = n * c * h * w ∧ ([n, c, h, w].filter (· ≠ 0)).prod ≤ 2 ^ 63 - 1) ∧
      ((∃ relaid, toChannelFirst n h w c values = .ok relaid) ↔
        values.size = n * c * h * w ∧ ([n, c, h, w].filter (· ≠ 0)).prod ≤ 2 ^ 63 - 1)) ∧
    (∀ values relaid : Array α, toChannelLast n c h w values = .ok relaid →
      relaid.size = values.size ∧
      ∀ i < n, ∀ k < c, ∀ y < h, ∀ x < w,
        ∃ (target : i * h * w * c + y * w * c + x * c + k < relaid.size)
          (source : i * c * h * w + k * h * w + y * w + x < values.size),
          relaid[i * h * w * c + y * w * c + x * c + k] =
            values[i * c * h * w + k * h * w + y * w + x]) ∧
    ∀ values relaid : Array α,
      toChannelLast n c h w values = .ok relaid ↔ toChannelFirst n h w c relaid = .ok values := by
  refine ⟨rfl, fun values => ⟨?_, ?_⟩, fun values relaid hrelaid => ⟨?_, ?_⟩,
    fun values relaid => ?_⟩
  · exact exists_toChannelLast_iff.trans fillsSpan_image_iff
  · exact exists_toChannelFirst_iff.trans fillsSpan_image_iff
  · exact (size_of_toChannelLast hrelaid).2
  · exact fun i hi k hk y hy x hx => getElem_of_toChannelLast hrelaid hi hk hy hx
  · exact toChannelLast_iff_toChannelFirst

/-- An image without elements is refused if its other dimensions are too large together. -/
example : toChannelLast 0 (2 ^ 32) (2 ^ 32) 1 (#[] : Array Nat) = .error .overflow := rfl

end NetLowering
