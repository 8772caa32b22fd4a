import GameText.Proofs.Script.Token
import GameText.Proofs.Xml.Charset
import GameText.Xml.Doctype
import GameText.Xml.Write

namespace GameText.Xml
open Script (Identifier cut_exact)

theorem inRanges_of {ranges : List (Nat × Nat)} {c : Char} {low high : Nat} (member : (low,high) ∈ ranges)
    (inside : low ≤ c.toNat ∧ c.toNat ≤ high) : inRanges ranges c = true := by
  rw [inRanges,List.any_eq_true]
  exact ⟨_,member,by simp [inside.1,inside.2]⟩

theorem nameStart_ranges {c : Char} (start : Script.isNameStart c = true) :
    (0x41 ≤ c.toNat ∧ c.toNat ≤ 0x5A) ∨ (0x61 ≤ c.toNat ∧ c.toNat ≤ 0x7A) ∨ c = '_' := by
  simpa [Script.isNameStart,Char.le_def,UInt32.le_iff_toNat_le,or_assoc] using start

theorem nameChar_range {c : Char} (part : Script.isNameChar c = true) : 0x30 ≤ c.toNat ∧ c.toNat < 0x80 := by
  rcases (Bool.or_eq_true _ _).mp part with start | digit
  · rcases nameStart_ranges start with upper | lower | rfl
    · omega
    · omega
    · decide
  · have range := Text.ascii_range digit
    omega

theorem isLetter_start {c : Char} (start : Script.isNameStart c = true) (alphabet : Alphabet) :
    alphabet.isLetter c = true := by
  rw [Alphabet.isLetter,Bool.or_eq_true]
  rcases nameStart_ranges start with upper | lower | rfl
  · exact .inl (inRanges_of (by decide) upper)
  · exact .inl (inRanges_of (by decide) lower)
  · exact .inl (by decide)

theorem isNameChar_part {c : Char} (part : Script.isNameChar c = true) (alphabet : Alphabet) :
    alphabet.isNameChar c = true := by
  rw [Alphabet.isNameChar,Bool.or_eq_true]
  rcases (Bool.or_eq_true _ _).mp part with start | digit
  · exact .inl (isLetter_start start alphabet)
  · exact .inr (inRanges_of (show (0x30,0x39) ∈ nameOnlyRanges by decide) (Text.ascii_range digit))

-- What ends a name in a document that the writer made.
def isStop (c : Char) : Bool := c = ' ' || c = '=' || c = '>' || c = ';'

theorem isNameChar_stop {c : Char} (stop : isStop c = true) (alphabet : Alphabet) :
    alphabet.isNameChar c = false ∧ c ≠ ':' := by
  have cases : c = ' ' ∨ c = '=' ∨ c = '>' ∨ c = ';' := by simpa [isStop,or_assoc] using stop
  cases alphabet <;> rcases cases with rfl | rfl | rfl | rfl <;> decide

theorem simpleName_identifier {word : List Char} (identifier : Identifier word) {stop : Char}
    (stops : isStop stop = true) (alphabet : Alphabet) (rest : List Char) :
    simpleName alphabet (word ++ stop :: rest) = some (word,stop :: rest) := by
  cases word with
  | nil => exact absurd identifier id
  | cons head tail =>
    obtain ⟨front,back⟩ := cut_exact.mpr ⟨rfl,fun c member => isNameChar_part (identifier.2 c member) alphabet,
      (isNameChar_stop stops alphabet).1⟩
    rw [List.cons_append,simpleName,if_pos (isLetter_start identifier.1 alphabet),front,back]

theorem name_identifier {word : List Char} (identifier : Identifier word) {stop : Char}
    (stops : isStop stop = true) (alphabet : Alphabet) (rest : List Char) :
    name alphabet (word ++ stop :: rest) = some (⟨none,word⟩,stop :: rest) := by
  simp only [name,simpleName_identifier identifier stops]
  split
  · rename_i colon
    cases colon
    exact absurd rfl (isNameChar_stop stops alphabet).2
  · rfl

theorem reference_named {word : List Char} (identifier : Identifier word) (alphabet : Alphabet) (rest : List Char) :
    reference alphabet (word ++ ';' :: rest) = some (.entity word,rest) := by
  have start : ∀ tail, word ++ ';' :: rest ≠ '#' :: tail := by
    intro tail same
    cases word with
    | nil => exact identifier
    | cons head more =>
      cases same
      exact absurd identifier.1 (by decide)
  unfold reference
  split
  · rename_i same
    exact absurd same (start _)
  · rename_i same
    exact absurd same (start _)
  · rw [simpleName_identifier identifier (by decide)]
    rfl

theorem legalChar_toNat {c : Char} (legal : isLegal c = true) : legalChar? c.toNat = some c := by
  have valid : c.toNat.isValidChar := c.valid
  rw [legalChar?,dif_pos valid]
  exact if_pos legal

-- A character as the digits of its number say it.
structure Numbers (digits : List Char) (c : Char) : Prop where
  filled : digits ≠ []
  decimal : ∀ d ∈ digits, isDecimalDigit d = true
  value : numberOf 10 digits = c.toNat

theorem reference_numbered {digits : List Char} {c : Char} (numbers : Numbers digits c) (legal : isLegal c = true)
    (alphabet : Alphabet) (rest : List Char) :
    reference alphabet ('#' :: (digits ++ ';' :: rest)) = some (.char c,rest) := by
  obtain ⟨front,back⟩ := (@cut_exact isDecimalDigit _ digits rest ';').mpr ⟨rfl,numbers.decimal,by decide⟩
  have read : numbered 10 isDecimalDigit (digits ++ ';' :: rest) = some (.char c,rest) := by
    have filled : digits.isEmpty = false := List.isEmpty_eq_false_iff.mpr numbers.filled
    simp only [numbered,back,front,filled,numbers.value,legalChar_toNat legal]
    rfl
  unfold reference
  split
  · rename_i same
    cases digits with
    | nil => exact absurd rfl numbers.filled
    | cons head more =>
      cases same
      exact absurd (numbers.decimal 'x' List.mem_cons_self) (by decide)
  · rename_i same
    cases same
    exact read
  · rename_i plain
    exact absurd rfl (plain _)

theorem numbers_digits (c : Char) : Numbers (Text.digits c.toNat) c := by
  have value : ∀ n, numberOf 10 (Text.digits n) = n := by
    intro n
    have digit : ∀ d : Fin 10, Text.hexValue? (Text.digitChar d) = some d.val := by decide
    induction n using Nat.strongRecOn with
    | ind n ih =>
      rw [Text.digits]
      split
      · rename_i small
        simpa [numberOf] using congrArg (fun value => value.getD 0) (digit ⟨n,small⟩)
      · rename_i large
        have high := ih (n / 10) (by omega)
        have low := digit ⟨n % 10,by omega⟩
        unfold numberOf at high ⊢
        rw [List.foldl_append,high]
        simp only [List.foldl_cons,List.foldl_nil,low,Option.getD_some]
        omega
  exact ⟨Text.digits_nonempty _,fun d member => Text.digits_ascii _ d member,value _⟩

-- What stands for a character in the content of an element.
inductive Stands : Char → List Char → Prop where
  | plain {c : Char} (free : c ≠ '&' ∧ c ≠ '<' ∧ c ≠ '>' ∧ c ≠ '\r') : Stands c [c]
  | named {c : Char} {word : List Char} (known : Doctype.predefined? word = some c) (identifier : Identifier word) :
      Stands c ('&' :: (word ++ [';']))
  | numbered {c : Char} {digits : List Char} (numbers : Numbers digits c) (legal : isLegal c = true) :
      Stands c ('&' :: '#' :: (digits ++ [';']))

-- What a written character becomes in the document.
def printed (charset : Charset) (c : Char) : List Char := (protectReturn c).flatMap charset.shown

theorem printed_ascii {charset : Charset} (standard : charset.isStandard = true) {c : Char} (ascii : c.toNat < 0x80)
    (solid : c ≠ '\r') : printed charset c = [c] := by
  have has : charset.has c = true := by
    match charset,standard with
    | .utf8,_ => rfl
    | .ascii,_ => exact decide_eq_true ascii
    | .latin1,_ => exact decide_eq_true (show c.toNat < 0x100 by omega)
  simp only [printed,protectReturn,if_neg solid,List.flatMap_singleton,Charset.shown,has,if_true]

-- The characters that are written as they are read, in every charset.
def Unchanged (text : List Char) : Prop := ∀ c ∈ text, c.toNat < 0x80 ∧ c ≠ '\r'

theorem unchanged_append {left right : List Char} (first : Unchanged left) (second : Unchanged right) :
    Unchanged (left ++ right) := fun c member => (List.mem_append.mp member).elim (first c) (second c)

theorem unchanged_identifier {word : List Char} (identifier : Identifier word) : Unchanged word := by
  intro c member
  have range := nameChar_range (identifier.chars c member)
  refine ⟨range.2,?_⟩
  rintro rfl
  exact absurd range.1 (by decide)

instance : DecidablePred Unchanged := fun text => List.decidableBAll _ text

theorem printed_all {charset : Charset} (standard : charset.isStandard = true) {text : List Char}
    (unchanged : Unchanged text) : text.flatMap (printed charset) = text := by
  have single := List.flatMap_congr fun c member => printed_ascii standard (unchanged c member).1 (unchanged c member).2
  exact single.trans (List.flatMap_singleton' text)

theorem printed_reference {charset : Charset} (standard : charset.isStandard = true) :
    printed charset '\r' = "&#13;".toList := by
  match charset,standard with
  | .utf8,_ => rfl
  | .ascii,_ => decide
  | .latin1,_ => decide

theorem printed_stands {charset : Charset} (standard : charset.isStandard = true) {c : Char}
    (free : c ≠ '&' ∧ c ≠ '<' ∧ c ≠ '>') (legal : isLegal c = true) : Stands c (printed charset c) := by
  by_cases line : c = '\r'
  · subst line
    have shape : printed charset '\r' = '&' :: '#' :: (['1','3'] ++ [';']) :=
      printed_reference standard
    rw [shape]
    exact .numbered ⟨by decide,List.forall_mem_cons.mpr ⟨rfl,List.forall_mem_singleton.mpr rfl⟩,by decide⟩ legal
  · simp only [printed,protectReturn,if_neg line,List.flatMap_singleton,Charset.shown]
    split
    · exact .plain ⟨free.1,free.2.1,free.2.2,line⟩
    · exact .numbered (numbers_digits c) legal

theorem textChar_stands {charset : Charset} (standard : charset.isStandard = true) {c : Char}
    (legal : isLegal c = true) : Stands c ((textChar c).flatMap (printed charset)) := by
  have named : ∀ {word : List Char}, Doctype.predefined? word = some c → Identifier word →
      Stands c (('&' :: (word ++ [';'])).flatMap (printed charset)) := by
    intro word known identifier
    have unchanged : Unchanged ('&' :: (word ++ [';'])) :=
      unchanged_append (show Unchanged ['&'] by decide)
        (unchanged_append (unchanged_identifier identifier) (show Unchanged [';'] by decide))
    rw [printed_all standard unchanged]
    exact .named known identifier
  unfold textChar
  split
  · rename_i same
    subst same
    exact named (show Doctype.predefined? ['a','m','p'] = some '&' by decide) (by decide)
  · rename_i ampersand
    split
    · rename_i same
      subst same
      exact named (show Doctype.predefined? ['l','t'] = some '<' by decide) (by decide)
    · rename_i opening
      split
      · rename_i same
        subst same
        exact named (show Doctype.predefined? ['g','t'] = some '>' by decide) (by decide)
      · rename_i closing
        rw [List.flatMap_singleton]
        exact printed_stands standard ⟨ampersand,opening,closing⟩ legal

end GameText.Xml
