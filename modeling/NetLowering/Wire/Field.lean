import NetLowering.Wire.Varint

/-!
# Fields

A message is a run of fields.  Each starts with a key, which holds the field's
tag and the form of its payload; groups hold fields of their own up to an end
with the same tag.  Groups are only ever skipped, so of a group no more than
its tag is kept, and it may nest as deep as a budget allows.
-/

namespace NetLowering.Wire

inductive Payload where
  | varint (number : Nat)
  | fixed64 (content : Bytes)
  | delimited (content : Bytes)
  | group
  | fixed32 (content : Bytes)
deriving DecidableEq, Repr

structure Field where
  tag : Nat
  payload : Payload
deriving DecidableEq, Repr

/-! ## Keys and payloads -/

inductive Form where
  | varint
  | fixed64
  | delimited
  | startGroup
  | endGroup
  | fixed32
deriving DecidableEq, Repr

def Form.ofNumber? : Nat → Option Form
  | 0 => some .varint
  | 1 => some .fixed64
  | 2 => some .delimited
  | 3 => some .startGroup
  | 4 => some .endGroup
  | 5 => some .fixed32
  | _ => none

/-- A key fits 32 bits: the form in the lowest three, above them a tag other than 0. -/
def splitKey (key : Nat) : Option (Nat × Form) :=
  if key < UInt32.size ∧ key / 8 ≠ 0 then (Form.ofNumber? (key % 8)).map (key / 8, ·) else none

/-- Exactly so many bytes, and those after them. -/
def split? (count : Nat) (bytes : Bytes) : Option (Bytes × Bytes) :=
  if count ≤ bytes.length then some (bytes.take count, bytes.drop count) else none

/-- Reads what follows the key of a field that is no end of a group. -/
def payload (form : Form) (bytes : Bytes) : Option (Payload × Bytes) :=
  match form with
  | .varint => (varint bytes).map fun (number, rest) => (.varint number, rest)
  | .fixed64 => (split? 8 bytes).map fun (content, rest) => (.fixed64 content, rest)
  | .fixed32 => (split? 4 bytes).map fun (content, rest) => (.fixed32 content, rest)
  | .delimited => do
    let (length, after) ← varint bytes
    let (content, rest) ← split? length after
    return (.delimited content, rest)
  | .startGroup => some (.group, bytes)
  | .endGroup => none

theorem length_split? {count : Nat} {bytes content rest : Bytes}
    (read : split? count bytes = some (content, rest)) : rest.length ≤ bytes.length := by
  rw [split?] at read
  split at read
  · cases read
    simp
  · cases read

theorem length_payload {form : Form} {bytes rest : Bytes} {content : Payload}
    (read : payload form bytes = some (content, rest)) : rest.length ≤ bytes.length := by
  cases form <;> simp only [payload, Option.map_eq_some_iff, Prod.exists, Prod.mk.injEq,
    Option.bind_eq_bind, Option.bind_eq_some_iff, Option.pure_def, Option.some.injEq,
    reduceCtorEq] at read
  case varint =>
    obtain ⟨number, after, found, -, rfl⟩ := read
    exact Nat.le_of_lt (length_varint found)
  case fixed64 =>
    obtain ⟨bits, after, found, -, rfl⟩ := read
    exact length_split? found
  case fixed32 =>
    obtain ⟨bits, after, found, -, rfl⟩ := read
    exact length_split? found
  case delimited =>
    obtain ⟨length, after, found, part, later, cut, -, rfl⟩ := read
    exact Nat.le_trans (length_split? cut) (Nat.le_of_lt (length_varint found))
  case startGroup =>
    obtain ⟨-, rfl⟩ := read
    exact Nat.le_refl _

/-! ## Messages -/

/-- The fields of a message, with the tags of the groups that are still open,
the innermost first.  Fields inside a group are read and dropped; each needs
one level of the budget for every group around it, and one for itself. -/
def fieldsWithin (budget : Nat) (groups : List Nat) (bytes : Bytes) : Option (List Field) :=
  if bytes.isEmpty then
    if groups.isEmpty then some [] else none
  else
    match keyRead : varint bytes with
    | none => none
    | some (key, afterKey) =>
      match splitKey key with
      | none => none
      | some (tag, .endGroup) =>
        have := length_varint keyRead
        match groups with
        | [] => none
        | innermost :: outer =>
          if tag = innermost then fieldsWithin budget outer afterKey else none
      | some (tag, form) =>
        if budget ≤ groups.length then none
        else
          match contentRead : payload form afterKey with
          | none => none
          | some (content, rest) =>
            have := Nat.lt_of_le_of_lt (length_payload contentRead) (length_varint keyRead)
            let inner := if content = .group then tag :: groups else groups
            let field : List Field := if groups.isEmpty then [⟨tag, content⟩] else []
            (fieldsWithin budget inner rest).map (field ++ ·)
termination_by bytes.length

def fields (budget : Nat) (bytes : Bytes) : Option (List Field) := fieldsWithin budget [] bytes

/-! ## Reading payloads -/

/-- The number whose bytes these are, the lowest first. -/
def littleEndian (bytes : Bytes) : Nat :=
  bytes.foldr (fun byte high => byte.toNat + 256 * high) 0

/-- Packed payloads stand one after the other without keys. -/
def packed (read : Bytes → Option (α × Bytes)) (bytes : Bytes) : Option (List α) :=
  if bytes.isEmpty then some []
  else
    match read bytes with
    | none => none
    | some (item, rest) =>
      if rest.length < bytes.length then (packed read rest).map (item :: ·) else none
termination_by bytes.length

namespace Payload

def bytes? : Payload → Option Bytes
  | delimited content => some content
  | _ => none

/-- Text has to be well-formed UTF-8. -/
def text? (payload : Payload) : Option String :=
  payload.bytes?.bind Text.ofBytes?

def int64 (number : Nat) : Int64 := (UInt64.ofNat number).toInt64

def single (bytes : Bytes) : Single := ⟨.ofNat (littleEndian bytes)⟩

def int? : Payload → Option Int64
  | varint number => some (int64 number)
  | _ => none

def single? : Payload → Option Single
  | fixed32 content => some (single content)
  | _ => none

def ints? : Payload → Option (List Int64)
  | varint number => some [int64 number]
  | delimited content => (packed Wire.varint content).map (List.map int64)
  | _ => none

def singles? : Payload → Option (List Single)
  | fixed32 content => some [single content]
  | delimited content => (packed (split? 4) content).map (List.map single)
  | _ => none

end Payload

end NetLowering.Wire
