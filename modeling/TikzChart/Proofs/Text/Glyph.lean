import TikzChart.Text.Glyph

/-!
Text written as UTF-8 reads back as its characters, with no stray glyph among them.
-/

set_option autoImplicit false

namespace TikzChart.Glyph

/-- The character at the end of other text in a file. -/
theorem decode_after (before rest : List Char) (c : Char) :
    (before.utf8Encode ++ (c :: rest).utf8Encode).utf8DecodeChar? before.utf8Encode.size =
      some c := by
  rw [ByteArray.utf8DecodeChar?_eq_utf8DecodeChar?_extract, ByteArray.size_append,
    ByteArray.extract_append_eq_right rfl rfl]
  exact List.utf8DecodeChar?_utf8Encode_cons

theorem size_utf8Encode_append_singleton (before : List Char) (c : Char) :
    (before ++ [c]).utf8Encode.size = before.utf8Encode.size + c.utf8Size := by
  rw [List.utf8Encode_append, ByteArray.size_append, List.utf8Encode_singleton,
    List.size_toByteArray, String.length_utf8EncodeChar]

theorem readFrom_utf8Encode (before rest : List Char) :
    readFrom (before.utf8Encode ++ rest.utf8Encode) before.utf8Encode.size = rest.map char := by
  induction rest generalizing before with
  | nil =>
      rw [List.utf8Encode_nil, ByteArray.append_empty, readFrom, dif_neg (Nat.lt_irrefl _)]
      rfl
  | cons c rest ih =>
      have next := ih (before ++ [c])
      rw [size_utf8Encode_append_singleton, List.utf8Encode_append, ByteArray.append_assoc,
        ← List.utf8Encode_cons] at next
      have inside : before.utf8Encode.size <
          (before.utf8Encode ++ (c :: rest).utf8Encode).size := by
        have positive : 0 < c.utf8Size := c.utf8Size_pos
        rw [List.utf8Encode_cons, ← ByteArray.append_assoc, ByteArray.size_append,
          ← List.utf8Encode_append, size_utf8Encode_append_singleton]
        omega
      rw [readFrom, dif_pos inside, decode_after, List.map_cons]
      exact congrArg (char c :: ·) next

theorem read_utf8Encode (chars : List Char) : read chars.utf8Encode = chars.map char := by
  have all := readFrom_utf8Encode [] chars
  rw [List.utf8Encode_nil, ByteArray.empty_append] at all
  exact all

theorem read_toUTF8 (text : String) : read text.toUTF8 = text.toList.map char := by
  have bytes : text.toUTF8 = text.toList.utf8Encode := String.utf8Encode_toList.symm
  rw [bytes, read_utf8Encode]

theorem encode_chars (chars : List Char) : encode (chars.map char) = chars.utf8Encode := by
  unfold encode List.utf8Encode
  rw [List.flatMap_map]
  rfl

theorem text_chars (chars : List Char) : text (chars.map char) = .ok chars := by
  induction chars with
  | nil => rfl
  | cons c chars ih => rw [List.map_cons, text, ih]

/-- Characters are what their own bytes say. -/
theorem text_read_encode (chars : List Char) :
    text (read (encode (chars.map char))) = .ok chars := by
  rw [encode_chars, read_utf8Encode, text_chars]

end TikzChart.Glyph
