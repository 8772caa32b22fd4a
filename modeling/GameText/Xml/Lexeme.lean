import GameText.Text.Hex
import GameText.Xml.Char

namespace GameText.Xml

-- The parts of markup. A reader takes its part from the front of a text and
-- answers what follows it; none means that the document is malformed here.
structure Name where
  lead : Option (List Char)
  base : List Char
  deriving DecidableEq, Repr

def skipBlank (text : List Char) : List Char := text.dropWhile isBlank

def blank (text : List Char) : Option (List Char) :=
  match text with
  | c :: rest => if isBlank c then some (skipBlank rest) else none
  | [] => none

def simpleName (alphabet : Alphabet) : List Char → Option (List Char × List Char)
  | [] => none
  | c :: rest =>
    if alphabet.isLetter c then
      some (c :: rest.takeWhile alphabet.isNameChar,rest.dropWhile alphabet.isNameChar)
    else none

def name (alphabet : Alphabet) (text : List Char) : Option (Name × List Char) :=
  match simpleName alphabet text with
  | none => none
  | some (first,after) => match after with
    | ':' :: more => match simpleName alphabet more with
      | none => none
      | some (second,after) => some (⟨some first,second⟩,after)
    | _ => some (⟨none,first⟩,after)

def literal : List Char → Option (List Char × List Char)
  | [] => none
  | quote :: rest =>
    if quote = '\x22' ∨ quote = '\x27' then
      match rest.dropWhile fun c => c ≠ quote with
      | [] => none
      | _ :: after => some (rest.takeWhile fun c => c ≠ quote,after)
    else none

def comment : List Char → Option (List Char)
  | [] => none
  | '-' :: '-' :: '>' :: after => some after
  | '-' :: '-' :: _ => none
  | _ :: rest => comment rest

def instructionEnd : List Char → Option (List Char)
  | [] => none
  | '?' :: '>' :: after => some after
  | _ :: rest => instructionEnd rest

def isReservedTarget (target : List Char) : Bool := target.map Char.toLower = ['x','m','l']

def instruction (alphabet : Alphabet) (text : List Char) : Option (List Char) :=
  match simpleName alphabet text with
  | none => none
  | some (target,after) =>
    if isReservedTarget target then none
    else match after with
      | '?' :: '>' :: rest => some rest
      | c :: rest => if isBlank c then instructionEnd rest else none
      | [] => none

def plainSection : List Char → Option (List Char × List Char)
  | [] => none
  | ']' :: ']' :: '>' :: after => some ([],after)
  | c :: rest => (plainSection rest).map fun taken => (c :: taken.1,taken.2)

inductive Reference where
  | char (c : Char)
  | entity (name : List Char)
  deriving DecidableEq, Repr

def legalChar? (number : Nat) : Option Char :=
  if h : number.isValidChar then
    let c := Char.ofNatAux number h
    if isLegal c then some c else none
  else none

def isHexDigit (c : Char) : Bool := (Text.hexValue? c).isSome
def isDecimalDigit (c : Char) : Bool := '0' ≤ c && c ≤ '9'

def numberOf (radix : Nat) (digits : List Char) : Nat :=
  digits.foldl (fun value c => radix * value + (Text.hexValue? c).getD 0) 0

def numbered (radix : Nat) (isDigit : Char → Bool) (text : List Char) :
    Option (Reference × List Char) :=
  match text.dropWhile isDigit with
  | ';' :: after =>
    if (text.takeWhile isDigit).isEmpty then none
    else (legalChar? (numberOf radix (text.takeWhile isDigit))).map fun c => (.char c,after)
  | _ => none

def reference (alphabet : Alphabet) : List Char → Option (Reference × List Char)
  | '#' :: 'x' :: rest => numbered 16 isHexDigit rest
  | '#' :: rest => numbered 10 isDecimalDigit rest
  | text => match simpleName alphabet text with
    | some (target,';' :: after) => some (.entity target,after)
    | _ => none

theorem dropWhile_le (p : Char → Bool) (text : List Char) :
    (text.dropWhile p).length ≤ text.length := (List.dropWhile_sublist p).length_le

theorem blank_le {text after : List Char} (read : blank text = some after) :
    after.length < text.length := by
  cases text with
  | nil => simp [blank] at read
  | cons c rest =>
    simp only [blank] at read
    split at read
    · have le := dropWhile_le isBlank rest
      simp only [skipBlank,Option.some.injEq] at read
      rw [← read,List.length_cons]; omega
    · simp at read

theorem simpleName_le {alphabet : Alphabet} {text taken after : List Char}
    (read : simpleName alphabet text = some (taken,after)) : after.length < text.length := by
  cases text with
  | nil => simp [simpleName] at read
  | cons c rest =>
    simp only [simpleName] at read
    split at read
    · have le := dropWhile_le alphabet.isNameChar rest
      simp only [Option.some.injEq,Prod.mk.injEq] at read
      rw [← read.2,List.length_cons]; omega
    · simp at read

theorem name_le {alphabet : Alphabet} {text after : List Char} {taken : Name}
    (read : name alphabet text = some (taken,after)) : after.length < text.length := by
  unfold name at read
  cases first : simpleName alphabet text with
  | none => simp [first] at read
  | some pair =>
    obtain ⟨base,rest⟩ := pair
    have shorter := simpleName_le first
    simp only [first] at read
    split at read
    · rename_i more
      cases second : simpleName alphabet more with
      | none => simp [second] at read
      | some pair =>
        have inner := simpleName_le second
        simp only [second,Option.some.injEq,Prod.mk.injEq] at read
        rw [← read.2]
        simp only [List.length_cons] at shorter
        omega
    · simp only [Option.some.injEq,Prod.mk.injEq] at read
      rw [← read.2]; exact shorter

theorem literal_le {text taken after : List Char} (read : literal text = some (taken,after)) :
    after.length < text.length := by
  cases text with
  | nil => simp [literal] at read
  | cons quote rest =>
    simp only [literal] at read
    split at read
    · have le := dropWhile_le (fun c => decide (c ≠ quote)) rest
      split at read
      · simp at read
      · rename_i tail found
        rw [found] at le
        simp only [Option.some.injEq,Prod.mk.injEq] at read
        rw [← read.2]
        simp only [List.length_cons] at le ⊢
        omega
    · simp at read

theorem comment_le {text after : List Char} (read : comment text = some after) :
    after.length ≤ text.length := by
  fun_induction comment text with
  | case1 => simp at read
  | case2 rest =>
    simp only [Option.some.injEq] at read
    subst read; simp only [List.length_cons]; omega
  | case3 => simp at read
  | case4 c rest _ _ ih => have := ih read; simp only [List.length_cons]; omega

theorem instructionEnd_le {text after : List Char} (read : instructionEnd text = some after) :
    after.length ≤ text.length := by
  fun_induction instructionEnd text with
  | case1 => simp at read
  | case2 rest =>
    simp only [Option.some.injEq] at read
    subst read; simp only [List.length_cons]; omega
  | case3 c rest _ ih => have := ih read; simp only [List.length_cons]; omega

theorem instruction_le {alphabet : Alphabet} {text after : List Char}
    (read : instruction alphabet text = some after) : after.length ≤ text.length := by
  unfold instruction at read
  cases first : simpleName alphabet text with
  | none => simp [first] at read
  | some pair =>
    obtain ⟨target,rest⟩ := pair
    have shorter := simpleName_le first
    simp only [first] at read
    split at read
    · simp at read
    · split at read
      · simp only [Option.some.injEq] at read
        subst read
        simp only [List.length_cons] at shorter
        omega
      · split at read
        · have := instructionEnd_le read
          simp only [List.length_cons] at shorter
          omega
        · simp at read
      · simp at read

theorem plainSection_le {text taken after : List Char}
    (read : plainSection text = some (taken,after)) : after.length ≤ text.length := by
  fun_induction plainSection text generalizing taken after with
  | case1 => simp at read
  | case2 rest =>
    simp only [Option.some.injEq,Prod.mk.injEq] at read
    rw [← read.2]; simp only [List.length_cons]; omega
  | case3 c rest _ ih =>
    obtain ⟨⟨more,rest'⟩,inner,same⟩ := Option.map_eq_some_iff.mp read
    simp only [Prod.mk.injEq] at same
    have := ih inner
    rw [← same.2]; simp only [List.length_cons]; omega

theorem numbered_le {radix : Nat} {isDigit : Char → Bool} {text after : List Char} {r : Reference}
    (read : numbered radix isDigit text = some (r,after)) : after.length ≤ text.length := by
  have le := dropWhile_le isDigit text
  unfold numbered at read
  split at read
  · rename_i rest found
    rw [found] at le
    split at read
    · simp at read
    · obtain ⟨c,_,same⟩ := Option.map_eq_some_iff.mp read
      simp only [Prod.mk.injEq] at same
      rw [← same.2]
      simp only [List.length_cons] at le
      omega
  · simp at read

theorem reference_le {alphabet : Alphabet} {text after : List Char} {r : Reference}
    (read : reference alphabet text = some (r,after)) : after.length ≤ text.length := by
  unfold reference at read
  split at read
  · have := numbered_le read; simp only [List.length_cons]; omega
  · have := numbered_le read; simp only [List.length_cons]; omega
  · split at read
    · rename_i target rest first
      have shorter := simpleName_le first
      simp only [Option.some.injEq,Prod.mk.injEq] at read
      rw [← read.2]
      simp only [List.length_cons] at shorter
      omega
    · simp at read

end GameText.Xml
