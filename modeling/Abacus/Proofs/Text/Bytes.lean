/-!
# Texts as bytes

A position in a text counts characters, and the bytes before it are as many as these characters take
(`Text.byteOffset`).  A text is cut between two characters there (`Text.isValid_byteOffset`), and
the bytes before and after are those of the two parts of the text (`Text.toUTF8_cut`).
-/

namespace Abacus

namespace Text

theorem fromUTF8?_toUTF8 (s : String) : String.fromUTF8? s.toUTF8 = some s := by
  have hvalid : s.toUTF8.IsValidUTF8 := s.isValidUTF8
  rw [String.fromUTF8?, dif_pos hvalid]
  rfl

/-- A beginning of a text goes on up to any later position. -/
theorem take_append_drop_take (cs : List Char) {start stop : Nat} (h : start ≤ stop) :
    cs.take start ++ (cs.take stop).drop start = cs.take stop := by
  have htake : (cs.take stop).take start = cs.take start := by
    rw [List.take_take, Nat.min_eq_left h]
  rw [← htake, List.take_append_drop]

/-- The number of bytes before the character at a position, or of all bytes behind the end. -/
def byteOffset (text : String) (position : Nat) : Nat :=
  (String.ofList (text.toList.take position)).utf8ByteSize

/-- Puts a text in the place of the bytes in a range.  That is not possible if the range is out of
order, reaches over the end or cuts through a character. -/
def replaceRange? (text : String) (start stop : Nat) (key : String) : Option String :=
  if start ≤ stop ∧ String.Pos.Raw.isValid text ⟨start⟩ ∧ String.Pos.Raw.isValid text ⟨stop⟩ then
    String.fromUTF8? (text.toUTF8.extract 0 start ++ key.toUTF8 ++
      text.toUTF8.extract stop text.utf8ByteSize)
  else none

/-- A text is cut between characters at a byte offset. -/
theorem isValid_byteOffset (text : String) (position : Nat) :
    String.Pos.Raw.IsValid text ⟨byteOffset text position⟩ := by
  rw [String.Pos.Raw.isValid_iff_exists_append]
  refine ⟨.ofList (text.toList.take position), .ofList (text.toList.drop position), ?_, ?_⟩
  · rw [← String.ofList_append, List.take_append_drop, String.ofList_toList]
  · rfl

theorem byteOffset_mono (text : String) {start stop : Nat} (h : start ≤ stop) :
    byteOffset text start ≤ byteOffset text stop := by
  rw [byteOffset, byteOffset, ← take_append_drop_take text.toList h, String.ofList_append,
    String.utf8ByteSize_append]
  exact Nat.le_add_right ..

/-- Bytes before and after a position. -/
theorem toUTF8_cut (text : String) (position : Nat) :
    text.toUTF8.extract 0 (byteOffset text position) =
        (String.ofList (text.toList.take position)).toUTF8 ∧
      text.toUTF8.extract (byteOffset text position) text.utf8ByteSize =
        (String.ofList (text.toList.drop position)).toUTF8 := by
  have htext : text =
      String.ofList (text.toList.take position) ++ String.ofList (text.toList.drop position) := by
    rw [← String.ofList_append, List.take_append_drop, String.ofList_toList]
  have hsize : text.utf8ByteSize = (String.ofList (text.toList.take position)).utf8ByteSize +
      (String.ofList (text.toList.drop position)).utf8ByteSize := by
    rw [← String.utf8ByteSize_append, ← htext]
  have hbytes : text.toUTF8 = (String.ofList (text.toList.take position)).toUTF8 ++
      (String.ofList (text.toList.drop position)).toUTF8 :=
    (congrArg String.toUTF8 htext).trans String.toByteArray_append
  rw [hbytes, byteOffset, hsize]
  exact ⟨ByteArray.extract_append_eq_left rfl, ByteArray.extract_append_eq_right rfl rfl⟩

end Text

end Abacus
