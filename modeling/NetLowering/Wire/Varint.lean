import NetLowering.Net

/-!
# Varints

A varint holds a number of up to 64 bits in groups of seven, the lowest first;
the top bit of a byte says that another one follows.  There are at most ten
bytes, and the tenth has room for one bit only, so a number may be padded with
groups of zeros but not exceed its width.
-/

namespace NetLowering.Wire

/-- Reads a varint of at most `room` bytes and returns the number and the bytes after it. -/
def varintWithin : Nat → Bytes → Option (Nat × Bytes)
  | 0, _ => none
  | _ + 1, [] => none
  | room + 1, byte :: rest =>
    if room = 0 ∧ 1 < byte.toNat then none
    else if byte.toNat < 128 then some (byte.toNat, rest)
    else
      match varintWithin room rest with
      | some (high, after) => some (byte.toNat - 128 + 128 * high, after)
      | none => none

def varint (bytes : Bytes) : Option (Nat × Bytes) := varintWithin 10 bytes

theorem length_varintWithin {room : Nat} {bytes rest : Bytes} {number : Nat}
    (read : varintWithin room bytes = some (number, rest)) : rest.length < bytes.length := by
  induction room generalizing bytes number with
  | zero => simp [varintWithin] at read
  | succ room ih =>
    cases bytes with
    | nil => simp [varintWithin] at read
    | cons byte others =>
      rw [varintWithin] at read
      split at read
      · cases read
      split at read
      · cases read
        simp
      split at read
      case h_1 high after inner =>
        cases read
        have := ih inner
        simp only [List.length_cons]
        omega
      case h_2 => cases read

theorem length_varint {bytes rest : Bytes} {number : Nat}
    (read : varint bytes = some (number, rest)) : rest.length < bytes.length :=
  length_varintWithin read

end NetLowering.Wire
