import GameText.Bytes

namespace GameText.Text

def encodeUtf8 (text : List Char) : Bytes := text.flatMap String.utf8EncodeChar

-- Shortest forms only, no surrogates, nothing above U+10FFFF.
def decodeUtf8 (bytes : Bytes) : Option (List Char) :=
  bytes.toByteArray.utf8Decode?.map Array.toList

@[simp]
theorem decode_encode_utf8 (text : List Char) : decodeUtf8 (encodeUtf8 text) = some text := by
  have same : (encodeUtf8 text).toByteArray = text.utf8Encode := rfl
  rw [decodeUtf8,same,List.utf8Decode?_utf8Encode]
  simp

end GameText.Text
