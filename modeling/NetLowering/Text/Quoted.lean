import NetLowering.Text.Printable
import NetLowering.Text.Utf8

/-!
# Quoted text and bracketed lists

Text stands between double quotes on one line: quotes, backslashes, line breaks
and whatever does not stand for itself are escaped.  Lists stand between
brackets, and a long list shows only its two ends.
-/

namespace NetLowering.Text

def escapeChar (char : Char) : List Char :=
  match char with
  | '\x00' => ['\\', '0']
  | '\t' => ['\\', 't']
  | '\n' => ['\\', 'n']
  | '\r' => ['\\', 'r']
  | '"' => ['\\', '"']
  | '\\' => ['\\', '\\']
  | other =>
    if '\x20' ≤ other ∧ other < '\x7f' ∨ standsForItself other then [other]
    else ['\\', 'u', '\x7b'] ++ Nat.toDigits 16 other.toNat ++ ['\x7d']

def quoted (text : String) : String :=
  String.ofList ('"' :: text.toList.flatMap escapeChar ++ ['"'])

/-- A byte that is no part of a character, by its two digits. -/
def escapeByte (byte : UInt8) : List Char :=
  ['\\', 'x', (Nat.digitChar (byte.toNat / 16)).toUpper, (Nat.digitChar (byte.toNat % 16)).toUpper]

def escapeBytes : Bytes → List Char
  | [] => []
  | byte :: rest =>
    match firstChar? (byte :: rest) with
    | some char => escapeChar char ++ escapeBytes (rest.drop (char.utf8Size - 1))
    | none => escapeByte byte ++ escapeBytes rest
termination_by content => content.length

/-- Bytes are quoted as the text that they are, as far as they are text. -/
def quotedBytes (content : Bytes) : String := String.ofList ('"' :: escapeBytes content ++ ['"'])

theorem escapeBytes_encode (char : Char) (rest : Bytes) :
    escapeBytes (String.utf8EncodeChar char ++ rest) = escapeChar char ++ escapeBytes rest := by
  have hsize := String.length_utf8EncodeChar char
  have hfirst := firstChar?_encode char rest
  cases hencode : String.utf8EncodeChar char with
  | nil => exact absurd hencode String.utf8EncodeChar_ne_nil
  | cons byte others =>
      rw [hencode] at hsize hfirst
      have hothers : char.utf8Size - 1 = others.length := by
        rw [← hsize, List.length_cons, Nat.add_sub_cancel]
      rw [List.cons_append] at hfirst ⊢
      rw [escapeBytes, hfirst]
      dsimp only
      rw [hothers, List.drop_left]

/-- Bytes that are text are quoted as this text. -/
theorem quotedBytes_bytes (text : String) : quotedBytes (bytes text) = quoted text := by
  have hescape (chars : List Char) :
      escapeBytes (chars.flatMap String.utf8EncodeChar) = chars.flatMap escapeChar := by
    induction chars with
    | nil => rw [List.flatMap_nil, List.flatMap_nil, escapeBytes]
    | cons char chars ih => rw [List.flatMap_cons, escapeBytes_encode, ih, List.flatMap_cons]
  rw [quotedBytes, quoted, ← hescape, ← bytes_eq_flatMap]

def bracketed (items : List String) : String :=
  "[" ++ ", ".intercalate items ++ "]"

/-- Lists with more items than this show their ends only. -/
def fullListing : Nat := 10

/-- All items, or the first and the last half of `fullListing` of them. -/
def listing (items : List α) (render : α → String) : String :=
  if items.length ≤ fullListing then bracketed (items.map render)
  else
    bracketed ((items.take (fullListing / 2)).map render ++ "..." ::
      (items.drop (items.length - fullListing / 2)).map render)

end NetLowering.Text
