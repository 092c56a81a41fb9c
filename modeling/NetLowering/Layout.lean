import NetLowering.Layout.Transpose
import NetLowering.Net.Payload

/-!
# Memory layouts

A tensor with four axes keeps its channels first, `(N, C, H, W)`, or last,
`(N, H, W, C)`.  A net states its layout by an argument `order` of any of its
operators; nets that state none are channel-last.  Changing the layout of a
buffer transposes the channels with the plane in every image.
-/

namespace NetLowering

inductive Layout where
  | channelFirst
  | channelLast
deriving DecidableEq, Repr

namespace Layout

/-- The first order that reads `NCHW` decides; an order before it that cannot
be read is an error. -/
def ofOrders : List Argument → Except LoadError Layout
  | [] => .ok .channelLast
  | argument :: rest => do
    let value ← argument.value
    if value.latin? = some "NCHW" then return .channelFirst
    ofOrders rest

end Layout

def Net.orders (net : Net) : List Argument :=
  net.operators.flatMap fun operator =>
    operator.arguments.filter fun argument => argument.name == some "order"

def Net.layout (net : Net) : Except LoadError Layout :=
  Layout.ofOrders net.orders

/-! ## Axes -/

/-- Four elements in the order `N, C, H, W` put into the order `N, H, W, C`;
other arrays stay as they are. -/
def channelsLast (axes : Array α) : Array α :=
  match axes with
  | #[n, c, h, w] => #[n, h, w, c]
  | other => other

/-- How many elements the axes span. -/
def span (axes : List Nat) : Nat := axes.foldr (· * ·) 1

/-- The span as a machine word counts it, cut to 64 bits. -/
def wordSpan (axes : List Nat) : Nat := span axes % UInt64.size

/-- The largest product of axes that a buffer can be given. -/
def maxSpan : Nat := 0x7fffffffffffffff

/-- Empty axes aside, the axes span at least as much. -/
theorem span_le_filter (axes : List Nat) : span axes ≤ span (axes.filter (· ≠ 0)) := by
  induction axes with
  | nil => exact Nat.le_refl _
  | cons axis axes ih =>
    by_cases empty : axis = 0
    · simp [span, empty]
    · rw [List.filter_cons_of_pos (by simpa using empty)]
      exact Nat.mul_le_mul_left axis ih

/-- Nothing is cut off the span of a buffer. -/
theorem wordSpan_eq {axes : List Nat} (small : span (axes.filter (· ≠ 0)) ≤ maxSpan) :
    wordSpan axes = span axes :=
  Nat.mod_eq_of_lt
    (Nat.lt_of_le_of_lt (Nat.le_trans (span_le_filter axes) small) (by decide))

/-- Checks that `size` elements fill these axes exactly.  Empty axes do not
count towards the largest span, so a buffer of no elements can still be too large. -/
def checkAxes (size : Nat) (axes : List Nat) : Except ShapeError (PLift (size = span axes)) :=
  if filled : size = wordSpan axes then
    if small : span (axes.filter (· ≠ 0)) ≤ maxSpan then
      .ok ⟨filled.trans (wordSpan_eq small)⟩
    else .error .overflow
  else .error .incompatible

/-! ## Changes of layout -/

/-- A `(N, C, H, W)` array as `(N, H, W, C)`. -/
def toChannelLast (n c h w : Nat) (values : Array α) : Except ShapeError (Array α) := do
  let filled ← checkAxes values.size [n, c, h, w]
  return transposeBlocks values n c (h * w) (by simpa [span, Nat.mul_assoc] using filled.down)

/-- A `(N, H, W, C)` array as `(N, C, H, W)`. -/
def toChannelFirst (n h w c : Nat) (values : Array α) : Except ShapeError (Array α) := do
  let filled ← checkAxes values.size [n, h, w, c]
  return transposeBlocks values n (h * w) c (by simpa [span, Nat.mul_assoc] using filled.down)

/-- A depthwise filter `(N, H, W, 1)` as `(1, H, W, N)`: its planes turn into channels. -/
def planesToChannels (n h w : Nat) (values : Array α) : Except ShapeError (Array α) := do
  let plane := wordSpan [h, w]
  let filled ← checkAxes values.size [n, plane]
  return transposeBlocks values 1 n plane (by simpa [span] using filled.down)

end NetLowering
