import GameText.Proofs.Text.Numeral
import GameText.Xml.Charset
import Mathlib.Data.List.Basic

namespace GameText.Xml.Charset
open Text

-- The charsets that documents are written in: each has the ASCII characters, and
-- a character that it lacks stands in the document as a decimal reference.
def isStandard : Charset → Bool
  | utf8 | ascii | latin1 => true
  | _ => false

def has (charset : Charset) (c : Char) : Bool :=
  match charset with
  | ascii => c.toNat < 0x80
  | latin1 => c.toNat < 0x100
  | _ => true

def numbered (c : Char) : List Char := "&#".toList ++ digits c.toNat ++ [';']

def shown (charset : Charset) (c : Char) : List Char := if charset.has c then [c] else numbered c

theorem byteChar_small {c : Char} (small : c.toNat < 0x100) : byteChar (UInt8.ofNat c.toNat) = c := by
  have value : (UInt8.ofNat c.toNat).toNat = c.toNat := UInt8.toNat_ofNat_of_lt' (by simpa using small)
  rw [byteChar,value]
  exact Char.ofNat_toNat c

theorem utf8EncodeChar_ascii {c : Char} (ascii : c.toNat < 0x80) :
    String.utf8EncodeChar c = [UInt8.ofNat c.toNat] := by
  unfold String.utf8EncodeChar
  simp only [Char.toNat] at ascii
  rw [if_pos (by omega)]
  rfl

theorem encodeUtf8_ascii {text : List Char} (ascii : ∀ c ∈ text, c.toNat < 0x80) :
    encodeUtf8 text = text.map fun c => UInt8.ofNat c.toNat := by
  induction text with
  | nil => rfl
  | cons c rest ih =>
    rw [List.forall_mem_cons] at ascii
    rw [encodeUtf8,List.flatMap_cons,utf8EncodeChar_ascii ascii.1]
    exact congrArg _ (ih ascii.2)

theorem numbered_ascii (c : Char) : ∀ d ∈ numbered c, d.toNat < 0x80 := by
  intro d member
  rcases List.mem_append.mp member with front | last
  · rcases List.mem_append.mp front with mark | digit
    · have either : d = '&' ∨ d = '#' := by simpa using mark
      rcases either with rfl | rfl <;> decide
    · have range := ascii_range (digits_ascii _ d digit)
      omega
  · rw [List.mem_singleton.mp last]
    decide

theorem reference_bytes (c : Char) :
    (reference c).map byteChar = numbered c ∧ ∀ byte ∈ reference c, byte < 0x80 := by
  have ascii := numbered_ascii c
  have bytes : reference c = (numbered c).map fun d => UInt8.ofNat d.toNat := encodeUtf8_ascii ascii
  rw [bytes,List.map_map]
  constructor
  · exact (List.map_congr_left fun d member => byteChar_small (by have := ascii d member; omega)).trans
      (List.map_id _)
  · intro byte member
    obtain ⟨d,inside,rfl⟩ := List.mem_map.mp member
    have small := ascii d inside
    rw [UInt8.lt_iff_toNat_lt,UInt8.toNat_ofNat_of_lt' (by simp only [UInt8.size]; omega)]
    exact small

theorem encodeChar_ascii (c : Char) :
    (encodeChar ascii c).map byteChar = shown ascii c ∧ ∀ byte ∈ encodeChar ascii c, byte < 0x80 := by
  simp only [encodeChar,shown,has,decide_eq_true_eq]
  split
  · rename_i small
    refine ⟨congrArg (fun d => [d]) (byteChar_small (by omega)),fun byte member => ?_⟩
    rw [List.mem_singleton.mp member,UInt8.lt_iff_toNat_lt,
      UInt8.toNat_ofNat_of_lt' (by simp only [UInt8.size]; omega)]
    exact small
  · exact reference_bytes c

theorem encodeChar_latin1 (c : Char) : (encodeChar latin1 c).map byteChar = shown latin1 c := by
  simp only [encodeChar,shown,has,decide_eq_true_eq]
  split
  · rename_i small
    exact congrArg (fun d => [d]) (byteChar_small small)
  · exact (reference_bytes c).1

theorem shown_utf8 (text : List Char) : text.flatMap (shown utf8) = text := List.flatMap_singleton' text

theorem decode_encode {charset : Charset} (standard : charset.isStandard = true) (text : List Char) :
    charset.decode (charset.encode text) = some (text.flatMap charset.shown) := by
  match charset,standard with
  | utf8,_ => rw [shown_utf8]; exact decode_encode_utf8 text
  | ascii,_ =>
    have low : (encode ascii text).all (fun byte => byte < 0x80) = true := by
      rw [List.all_eq_true]
      intro byte member
      obtain ⟨c,_,inside⟩ := List.mem_flatMap.mp member
      exact decide_eq_true ((encodeChar_ascii c).2 byte inside)
    rw [decode,if_pos low,encode,List.map_flatMap]
    exact congrArg some (List.flatMap_congr fun c _ => (encodeChar_ascii c).1)
  | latin1,_ =>
    rw [decode,encode,List.map_flatMap]
    exact congrArg some (List.flatMap_congr fun c _ => encodeChar_latin1 c)

theorem byteCount_append (charset : Charset) (left right : List Char) :
    charset.byteCount (left ++ right) = charset.byteCount left + charset.byteCount right := by
  have sizes : ∀ (text : List Char) (start : Nat), text.foldl (fun count c => count + c.utf8Size) start =
      start + text.foldl (fun count c => count + c.utf8Size) 0 := by
    intro text
    induction text with
    | nil => exact fun _ => rfl
    | cons c rest ih =>
      intro start
      rw [List.foldl_cons,List.foldl_cons,ih,ih (0 + c.utf8Size)]
      omega
  cases charset with
  | utf8 =>
    rw [byteCount,List.foldl_append,sizes]
    rfl
  | _ => exact List.length_append

theorem byteCount_length (charset : Charset) (text : List Char) : text.length ≤ charset.byteCount text := by
  cases charset with
  | utf8 =>
    induction text with
    | nil => exact Nat.le_refl _
    | cons c rest ih =>
      have positive := Char.utf8Size_pos c
      have split := byteCount_append utf8 [c] rest
      rw [List.singleton_append] at split
      rw [split,List.length_cons]
      have single : byteCount utf8 [c] = c.utf8Size := Nat.zero_add _
      omega
  | _ => exact Nat.le_refl _

theorem byteCount_encode {charset : Charset} (standard : charset.isStandard = true) (text : List Char) :
    charset.byteCount (text.flatMap charset.shown) = (charset.encode text).length := by
  match charset,standard with
  | utf8,_ =>
    rw [shown_utf8]
    induction text with
    | nil => rfl
    | cons c rest ih =>
      have split := byteCount_append utf8 [c] rest
      rw [List.singleton_append] at split
      rw [split,encode,List.flatMap_cons,List.length_append,ih]
      have single : byteCount utf8 [c] = c.utf8Size := Nat.zero_add _
      rw [single,encodeChar,String.length_utf8EncodeChar]
      rfl
  | ascii,_ =>
    rw [byteCount,encode,List.length_flatMap,List.length_flatMap]
    · refine congrArg _ (List.map_congr_left fun c _ => ?_)
      rw [← (encodeChar_ascii c).1,List.length_map]
    · rintro ⟨⟩
  | latin1,_ =>
    rw [byteCount,encode,List.length_flatMap,List.length_flatMap]
    · refine congrArg _ (List.map_congr_left fun c _ => ?_)
      rw [← encodeChar_latin1 c,List.length_map]
    · rintro ⟨⟩

end GameText.Xml.Charset
