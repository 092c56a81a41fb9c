/-!
# Text as bytes

Text goes by its UTF-8 bytes.  Not all bytes are text, and those that are belong
to one text only (`ofBytes?_eq_some_iff`).
-/

namespace NetLowering

abbrev Bytes := List UInt8

namespace Text

def bytes (text : String) : Bytes := text.toUTF8.data.toList

/-- The text that has these bytes, if they are well-formed UTF-8. -/
def ofBytes? (content : Bytes) : Option String := String.fromUTF8? ⟨content.toArray⟩

/-- The character that the bytes begin with, if they begin with one. -/
def firstChar? (content : Bytes) : Option Char := ByteArray.utf8DecodeChar? ⟨content.toArray⟩ 0

theorem ofBytes?_eq_some_iff {content : Bytes} {text : String} :
    ofBytes? content = some text ↔ content = bytes text := by
  constructor
  · intro hread
    rw [ofBytes?, String.fromUTF8?] at hread
    split at hread
    · cases hread
      rfl
    · cases hread
  · rintro rfl
    exact dif_pos text.isValidUTF8

@[simp] theorem ofBytes?_bytes (text : String) : ofBytes? (bytes text) = some text :=
  ofBytes?_eq_some_iff.mpr rfl

theorem bytes_eq_flatMap (text : String) :
    bytes text = text.toList.flatMap String.utf8EncodeChar := by
  conv => lhs; rw [← String.ofList_toList (s := text)]
  rw [bytes, String.toUTF8_eq_toByteArray, String.toByteArray_ofList, List.utf8Encode,
    List.data_toByteArray, List.toList_toArray]

theorem firstChar?_encode (char : Char) (rest : Bytes) :
    firstChar? (String.utf8EncodeChar char ++ rest) = some char := by
  have hbytes : (⟨(String.utf8EncodeChar char ++ rest).toArray⟩ : ByteArray) =
      (String.utf8EncodeChar char).toByteArray ++ rest.toByteArray := by
    rw [← List.toByteArray_append]
    exact ByteArray.ext List.data_toByteArray.symm
  rw [firstChar?, hbytes]
  exact ByteArray.utf8DecodeChar?_utf8EncodeChar_append

end Text

end NetLowering
