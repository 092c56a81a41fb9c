import Mathlib.Data.Set.Card
import NetLowering.Lowering.Window

/-!
# How often a window fits

`windowCount` works on 64-bit integers.  Nothing that it computes leaves their range,
so it counts as over the unbounded integers: a window has a place for every number of
strides after which it still ends inside the padded line.  `windowCount_counts` says so
for all arguments, of which paddings may be negative.
-/

namespace NetLowering

/-! ## Places -/

/-- The numbers of strides after which a window of this size still ends inside a line of this
length. -/
def windowPlaces (length kernel stride : Int) : Set ℕ :=
  {strides | strides * stride + kernel ≤ length}

theorem windowPlaces_eq_Iio {length kernel stride : Int} (hstride : 0 < stride) :
    windowPlaces length kernel stride = Set.Iio ((length - kernel) / stride + 1).toNat := by
  ext strides
  rw [windowPlaces, Set.mem_ofPred_eq, Set.mem_Iio, Int.lt_toNat, Int.lt_add_one_iff,
    Int.le_ediv_iff_mul_le hstride]
  omega

theorem encard_windowPlaces {length kernel stride : Int} (hstride : 0 < stride) :
    (windowPlaces length kernel stride).encard = ((length - kernel) / stride + 1).toNat := by
  rw [windowPlaces_eq_Iio hstride, ← Finset.coe_range, Set.encard_coe_eq_coe_finsetCard,
    Finset.card_range]

/-! ## Exactness -/

/-- The cells of a line and of its paddings. -/
def paddedLength (extent : UInt32) (padBegin padEnd : Int32) : Int :=
  extent.toNat + padBegin.toInt + padEnd.toInt

/-- What `windowCount` divides by the stride: the cells that one window leaves over. -/
def windowSpan (extent : UInt32) (kernel padBegin padEnd : Int32) : Int64 :=
  extent.toUInt64.toInt64 - kernel.toInt64 + padBegin.toInt64 + padEnd.toInt64

theorem windowCount_eq (extent : UInt32) (kernel padBegin padEnd stride : Int32) :
    windowCount extent kernel padBegin padEnd stride =
      if stride ≤ 0 ∨ kernel ≤ 0 then none
      else if windowSpan extent kernel padBegin padEnd < 0 then none
      else if (windowSpan extent kernel padBegin padEnd / stride.toInt64 + 1).toInt < UInt32.size
        then some
          (.ofNat (windowSpan extent kernel padBegin padEnd / stride.toInt64 + 1).toInt.toNat)
      else none := rfl

private theorem bmod_of_fits {value : Int} (hlow : -2 ^ 63 ≤ value) (hhigh : value < 2 ^ 63) :
    value.bmod (2 ^ 64) = value := by
  apply Int.bmod_eq_of_le_mul_two
  · omega
  · omega

variable {extent : UInt32} {kernel padBegin padEnd stride : Int32}

theorem toInt_toInt64_extent (extent : UInt32) :
    extent.toUInt64.toInt64.toInt = extent.toNat := by
  have hlt := extent.toNat_lt
  rw [Int64.toInt, UInt64.toBitVec_toInt64, BitVec.toInt_eq_toNat_bmod, UInt64.toNat_toBitVec,
    UInt32.toNat_toUInt64]
  exact bmod_of_fits (by omega) (by omega)

theorem toInt_extent_sub_kernel (extent : UInt32) (kernel : Int32) :
    (extent.toUInt64.toInt64 - kernel.toInt64).toInt = extent.toNat - kernel.toInt := by
  have hextent := extent.toNat_lt
  have hlow := kernel.le_toInt
  have hhigh := kernel.toInt_lt
  rw [Int64.toInt_sub, toInt_toInt64_extent, Int32.toInt_toInt64]
  exact bmod_of_fits (by omega) (by omega)

theorem toInt_extent_sub_kernel_add (extent : UInt32) (kernel padBegin : Int32) :
    (extent.toUInt64.toInt64 - kernel.toInt64 + padBegin.toInt64).toInt =
      extent.toNat - kernel.toInt + padBegin.toInt := by
  have hextent := extent.toNat_lt
  have hkernel := And.intro kernel.le_toInt kernel.toInt_lt
  have hbegin := And.intro padBegin.le_toInt padBegin.toInt_lt
  rw [Int64.toInt_add, toInt_extent_sub_kernel, Int32.toInt_toInt64]
  exact bmod_of_fits (by omega) (by omega)

/-- Four numbers of 32 bits have a sum of no more than 35. -/
private theorem span_fits (extent : UInt32) (kernel padBegin padEnd : Int32) :
    -2 ^ 34 ≤ paddedLength extent padBegin padEnd - kernel.toInt ∧
      paddedLength extent padBegin padEnd - kernel.toInt < 2 ^ 34 := by
  have hextent := extent.toNat_lt
  have hkernel := And.intro kernel.le_toInt kernel.toInt_lt
  have hbegin := And.intro padBegin.le_toInt padBegin.toInt_lt
  have hend := And.intro padEnd.le_toInt padEnd.toInt_lt
  rw [paddedLength]
  omega

theorem toInt_windowSpan (extent : UInt32) (kernel padBegin padEnd : Int32) :
    (windowSpan extent kernel padBegin padEnd).toInt =
      paddedLength extent padBegin padEnd - kernel.toInt := by
  obtain ⟨hlow, hhigh⟩ := span_fits extent kernel padBegin padEnd
  have hsum : (extent.toNat - kernel.toInt + padBegin.toInt + padEnd.toInt : Int) =
      paddedLength extent padBegin padEnd - kernel.toInt := by
    rw [paddedLength]
    omega
  rw [windowSpan, Int64.toInt_add, toInt_extent_sub_kernel_add, Int32.toInt_toInt64, hsum]
  exact bmod_of_fits (by omega) (by omega)

theorem windowSpan_nonneg_iff :
    0 ≤ windowSpan extent kernel padBegin padEnd ↔
      kernel.toInt ≤ paddedLength extent padBegin padEnd := by
  rw [Int64.le_iff_toInt_le, toInt_windowSpan, Int64.toInt_zero, Int.sub_nonneg]

/-- A window that fits at all moves on by no more than the cells that it leaves over. -/
private theorem strides_fit (hstride : 0 < stride)
    (hfits : kernel.toInt ≤ paddedLength extent padBegin padEnd) :
    0 ≤ (paddedLength extent padBegin padEnd - kernel.toInt) / stride.toInt ∧
      (paddedLength extent padBegin padEnd - kernel.toInt) / stride.toInt < 2 ^ 34 := by
  have hstride : 0 < stride.toInt := Int32.lt_iff_toInt_lt.mp hstride
  have hnonneg : 0 ≤ paddedLength extent padBegin padEnd - kernel.toInt := by omega
  have hdivided := Int.ediv_le_self stride.toInt hnonneg
  have hhigh := (span_fits extent kernel padBegin padEnd).2
  exact ⟨Int.ediv_nonneg hnonneg hstride.le, by omega⟩

theorem toInt_windowSpan_div (hstride : 0 < stride)
    (hfits : kernel.toInt ≤ paddedLength extent padBegin padEnd) :
    (windowSpan extent kernel padBegin padEnd / stride.toInt64).toInt =
      (paddedLength extent padBegin padEnd - kernel.toInt) / stride.toInt := by
  obtain ⟨hlow, hhigh⟩ := strides_fit hstride hfits
  rw [Int64.toInt_div, toInt_windowSpan, Int32.toInt_toInt64,
    Int.tdiv_eq_ediv_of_nonneg (Int.sub_nonneg.mpr hfits)]
  exact bmod_of_fits (by omega) (by omega)

theorem toInt_windowSpan_div_add_one (hstride : 0 < stride)
    (hfits : kernel.toInt ≤ paddedLength extent padBegin padEnd) :
    (windowSpan extent kernel padBegin padEnd / stride.toInt64 + 1).toInt =
      (paddedLength extent padBegin padEnd - kernel.toInt) / stride.toInt + 1 := by
  obtain ⟨hlow, hhigh⟩ := strides_fit hstride hfits
  rw [Int64.toInt_add, toInt_windowSpan_div hstride hfits, Int64.toInt_one]
  exact bmod_of_fits (by omega) (by omega)

/-- Whatever `windowCount` computes is what it would be over the unbounded integers. -/
structure WindowExact (extent : UInt32) (kernel padBegin padEnd stride : Int32) : Prop where
  widened : extent.toUInt64.toInt64.toInt = extent.toNat
  shortened : (extent.toUInt64.toInt64 - kernel.toInt64).toInt = extent.toNat - kernel.toInt
  begun : (extent.toUInt64.toInt64 - kernel.toInt64 + padBegin.toInt64).toInt =
    extent.toNat - kernel.toInt + padBegin.toInt
  span : (windowSpan extent kernel padBegin padEnd).toInt =
    paddedLength extent padBegin padEnd - kernel.toInt
  strides : 0 < stride → 0 ≤ windowSpan extent kernel padBegin padEnd →
    (windowSpan extent kernel padBegin padEnd / stride.toInt64).toInt =
      (paddedLength extent padBegin padEnd - kernel.toInt) / stride.toInt
  count : 0 < stride → 0 ≤ windowSpan extent kernel padBegin padEnd →
    (windowSpan extent kernel padBegin padEnd / stride.toInt64 + 1).toInt =
      (paddedLength extent padBegin padEnd - kernel.toInt) / stride.toInt + 1

theorem windowExact (extent : UInt32) (kernel padBegin padEnd stride : Int32) :
    WindowExact extent kernel padBegin padEnd stride where
  widened := toInt_toInt64_extent extent
  shortened := toInt_extent_sub_kernel extent kernel
  begun := toInt_extent_sub_kernel_add extent kernel padBegin
  span := toInt_windowSpan extent kernel padBegin padEnd
  strides hstride hspan := toInt_windowSpan_div hstride (windowSpan_nonneg_iff.mp hspan)
  count hstride hspan := toInt_windowSpan_div_add_one hstride (windowSpan_nonneg_iff.mp hspan)

/-! ## Counts -/

/-- The count is one more than the strides that the cells left over are enough for. -/
theorem windowCount_eq_some_iff {count : UInt32} :
    windowCount extent kernel padBegin padEnd stride = some count ↔
      0 < kernel ∧ 0 < stride ∧ kernel.toInt ≤ paddedLength extent padBegin padEnd ∧
        (paddedLength extent padBegin padEnd - kernel.toInt) / stride.toInt + 1 = count.toNat := by
  rw [windowCount_eq]
  by_cases hpositive : 0 < kernel ∧ 0 < stride
  · obtain ⟨hkernel, hstride⟩ := hpositive
    rw [if_neg (by simp [hkernel, hstride])]
    by_cases hfits : kernel.toInt ≤ paddedLength extent padBegin padEnd
    · rw [if_neg (Int64.not_lt.mpr (windowSpan_nonneg_iff.mpr hfits)),
        toInt_windowSpan_div_add_one hstride hfits]
      obtain ⟨hnonneg, -⟩ := strides_fit hstride hfits
      have hcount := count.toNat_lt
      simp only [hkernel, hstride, hfits, true_and]
      split
      · rename_i hsmall
        rw [Option.some.injEq, ← UInt32.toNat_inj, UInt32.toNat_ofNat_of_lt']
        · omega
        · omega
      · rename_i hlarge
        simp only [UInt32.size] at hlarge
        simp only [reduceCtorEq, false_iff]
        omega
    · rw [if_pos (Int64.not_le.mp (mt windowSpan_nonneg_iff.mp hfits))]
      simp [hfits]
  · rw [if_pos (by simpa [or_comm, Int32.not_lt, imp_iff_not_or] using hpositive)]
    simp only [reduceCtorEq, false_iff]
    exact fun hall => hpositive ⟨hall.1, hall.2.1⟩

theorem map_windowCount_eq_some_iff {count : ℕ} :
    (windowCount extent kernel padBegin padEnd stride).map UInt32.toNat = some count ↔
      0 < kernel ∧ 0 < stride ∧ 1 ≤ count ∧ count ≤ 2 ^ 32 - 1 ∧
        (windowPlaces (paddedLength extent padBegin padEnd) kernel.toInt stride.toInt).encard =
          count := by
  simp only [Option.map_eq_some_iff, windowCount_eq_some_iff]
  constructor
  · rintro ⟨count, ⟨hkernel, hstride, hfits, hcount⟩, rfl⟩
    have hlt := count.toNat_lt
    have hnonneg := (strides_fit hstride hfits).1
    refine ⟨hkernel, hstride, by omega, by omega, ?_⟩
    rw [encard_windowPlaces (Int32.lt_iff_toInt_lt.mp hstride), hcount, Int.toNat_natCast]
  · rintro ⟨hkernel, hstride, hpositive, hsmall, hplaces⟩
    have hstrideInt : 0 < stride.toInt := Int32.lt_iff_toInt_lt.mp hstride
    rw [encard_windowPlaces hstrideInt, Nat.cast_inj] at hplaces
    have hsize : count < UInt32.size := by
      rw [UInt32.size]
      omega
    have hcount : (UInt32.ofNat count).toNat = count := UInt32.toNat_ofNat_of_lt' hsize
    -- There is a place, so the first of them is one: the window fits.
    have hfits : 0 ≤ paddedLength extent padBegin padEnd - kernel.toInt := by
      rw [← Int.ediv_nonneg_iff_of_pos hstrideInt]
      omega
    exact ⟨.ofNat count, ⟨hkernel, hstride, by omega, by omega⟩, hcount⟩

theorem windowCount_mono {larger : UInt32} {smaller begun ended : Int32} {fewer more : UInt32}
    (hextent : extent ≤ larger) (hkernel : smaller ≤ kernel) (hbegin : padBegin ≤ begun)
    (hend : padEnd ≤ ended) (hfewer : windowCount extent kernel padBegin padEnd stride = some fewer)
    (hmore : windowCount larger smaller begun ended stride = some more) : fewer ≤ more := by
  obtain ⟨-, hstride, -, hfewer⟩ := windowCount_eq_some_iff.mp hfewer
  obtain ⟨-, -, -, hmore⟩ := windowCount_eq_some_iff.mp hmore
  rw [UInt32.le_iff_toNat_le] at hextent
  rw [Int32.le_iff_toInt_le] at hkernel hbegin hend
  have hspan : paddedLength extent padBegin padEnd - kernel.toInt ≤
      paddedLength larger begun ended - smaller.toInt := by
    simp only [paddedLength]
    omega
  have hstrides := Int.ediv_le_ediv (Int32.lt_iff_toInt_lt.mp hstride) hspan
  rw [UInt32.le_iff_toNat_le]
  omega

/-- There is a count just when there are places and 32 bits hold their number, and it is that
number.  It is computed exactly, and grows with the line and its paddings and as the window
shrinks. -/
theorem windowCount_counts (extent : UInt32) (kernel padBegin padEnd stride : Int32) :
    WindowExact extent kernel padBegin padEnd stride ∧
    (∀ count : ℕ,
      (windowCount extent kernel padBegin padEnd stride).map UInt32.toNat = some count ↔
        0 < kernel ∧ 0 < stride ∧ 1 ≤ count ∧ count ≤ 2 ^ 32 - 1 ∧
          (windowPlaces (paddedLength extent padBegin padEnd) kernel.toInt stride.toInt).encard =
            count) ∧
    ∀ larger smaller begun ended fewer more,
      extent ≤ larger → smaller ≤ kernel → padBegin ≤ begun → padEnd ≤ ended →
      windowCount extent kernel padBegin padEnd stride = some fewer →
      windowCount larger smaller begun ended stride = some more → fewer ≤ more :=
  ⟨windowExact extent kernel padBegin padEnd stride, fun _ => map_windowCount_eq_some_iff,
    fun _ _ _ _ _ _ => windowCount_mono⟩

/-- A window of 3 cells has 4 places on 7 cells with one more on either side, 2 cells apart. -/
theorem windowCount_counts_seven :
    (windowPlaces 9 3 2).encard = 4 ∧
      ∀ more, windowCount 8 2 1 1 2 = some more → (4 : UInt32) ≤ more := by
  obtain ⟨-, hcounts, hmono⟩ := windowCount_counts 7 3 1 1 2
  obtain ⟨-, -, -, -, hplaces⟩ := (hcounts 4).mp (by decide)
  exact ⟨hplaces, fun more =>
    hmono 8 2 1 1 4 more (by decide) (by decide) (by decide) (by decide) (by decide)⟩

end NetLowering
