/-!
# Transposing blocks

An array can hold a run of matrices of one shape, each row after row.
Transposing every one of them in place of itself is the one rearrangement
behind all changes of memory order: `getElem?_transposeBlocks` gives it as
an index formula.
-/

namespace NetLowering

/-- Where the element now at `place` stood before every `rows × columns` block
was transposed. -/
def blockSource (rows columns place : Nat) : Nat :=
  let within := place % (rows * columns)
  place / (rows * columns) * (rows * columns) + (within % rows * columns + within / rows)

private theorem cell_lt {rows columns row column : Nat} (rowInside : row < rows)
    (columnInside : column < columns) : row * columns + column < rows * columns :=
  calc
    row * columns + column < row * columns + columns := by omega
    _ = (row + 1) * columns := by rw [Nat.succ_mul]
    _ ≤ rows * columns := Nat.mul_le_mul_right _ rowInside

private theorem entry_lt {blocks area block cell : Nat} (blockInside : block < blocks)
    (cellInside : cell < area) : block * area + cell < blocks * area :=
  cell_lt blockInside cellInside

theorem blockSource_lt {blocks rows columns place : Nat}
    (inside : place < blocks * (rows * columns)) :
    blockSource rows columns place < blocks * (rows * columns) := by
  have area : 0 < rows * columns := Nat.pos_of_ne_zero fun zero => by simp [zero] at inside
  have within := Nat.mod_lt place area
  refine entry_lt (Nat.div_lt_of_lt_mul (by rwa [Nat.mul_comm])) (cell_lt ?_ ?_)
  · exact Nat.mod_lt _ (Nat.pos_of_mul_pos_right area)
  · exact Nat.div_lt_of_lt_mul within

/-- The element of block `block` at `column`, `row` of the transposed block
stood at `row`, `column` of the block. -/
theorem blockSource_entry {rows columns block row column : Nat} (rowInside : row < rows)
    (columnInside : column < columns) :
    blockSource rows columns (block * (rows * columns) + (column * rows + row)) =
      block * (rows * columns) + (row * columns + column) := by
  have cell : column * rows + row < rows * columns :=
    Nat.mul_comm columns rows ▸ cell_lt columnInside rowInside
  have area : 0 < rows * columns := Nat.zero_lt_of_lt cell
  have rowsPositive : 0 < rows := Nat.zero_lt_of_lt rowInside
  have blockOf : (block * (rows * columns) + (column * rows + row)) / (rows * columns) = block := by
    rw [Nat.mul_comm block, Nat.mul_add_div area, Nat.div_eq_of_lt cell, Nat.add_zero]
  have cellOf : (block * (rows * columns) + (column * rows + row)) % (rows * columns) =
      column * rows + row := by
    rw [Nat.mul_comm block, Nat.mul_add_mod, Nat.mod_eq_of_lt cell]
  simp only [blockSource, blockOf, cellOf]
  rw [Nat.mul_comm column rows, Nat.mul_add_mod, Nat.mod_eq_of_lt rowInside,
    Nat.mul_add_div rowsPositive, Nat.div_eq_of_lt rowInside, Nat.add_zero]

/-- Transposes each of the `blocks` matrices of `rows` rows and `columns` columns. -/
def transposeBlocks (values : Array α) (blocks rows columns : Nat)
    (whole : values.size = blocks * (rows * columns)) : Array α :=
  Array.ofFn fun place : Fin values.size =>
    have inside : blockSource rows columns place < values.size :=
      Nat.lt_of_lt_of_eq (blockSource_lt (Nat.lt_of_lt_of_eq place.isLt whole)) whole.symm
    values[blockSource rows columns place]

@[simp] theorem size_transposeBlocks (values : Array α) (blocks rows columns : Nat)
    (whole : values.size = blocks * (rows * columns)) :
    (transposeBlocks values blocks rows columns whole).size = values.size := by
  simp [transposeBlocks]

theorem getElem?_transposeBlocks (values : Array α) {blocks rows columns : Nat}
    (whole : values.size = blocks * (rows * columns)) {block row column : Nat}
    (blockInside : block < blocks) (rowInside : row < rows) (columnInside : column < columns) :
    (transposeBlocks values blocks rows columns whole)[block * (rows * columns) +
        (column * rows + row)]? =
      values[block * (rows * columns) + (row * columns + column)]? := by
  have target : block * (rows * columns) + (column * rows + row) < values.size := by
    rw [whole]
    exact entry_lt blockInside (Nat.mul_comm columns rows ▸ cell_lt columnInside rowInside)
  have source : block * (rows * columns) + (row * columns + column) < values.size := by
    rw [whole]
    exact entry_lt blockInside (cell_lt rowInside columnInside)
  rw [Array.getElem?_eq_getElem (by simpa using target), Array.getElem?_eq_getElem source]
  simp only [transposeBlocks, Array.getElem_ofFn, blockSource_entry rowInside columnInside]

end NetLowering
