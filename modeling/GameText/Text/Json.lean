import GameText.OrderedMap
import GameText.Text.Fraction
import GameText.Text.Hex

namespace GameText

inductive Json where
  | null
  | bool (value : Bool)
  | integer (value : Int)
  | fraction (value : Text.Fraction)
  | string (value : String)
  | array (items : List Json)
  | object (fields : List (String × Json))
  deriving Inhabited

namespace Json
open Text

-- Malformed text is told from an integer beyond the digit limit and from too many
-- open brackets, because the loaders report only the first as an unreadable file.
-- Half of a surrogate pair is well formed, but no character: texts that hold one
-- are left out.
inductive Refusal where
  | malformed
  | numeralTooLong
  | tooDeep
  | unpaired
  deriving DecidableEq, Repr

def isSpace (c : Char) : Bool := c = ' ' || c = '\t' || c = '\n' || c = '\r'

def skipSpace (text : List Char) : List Char := text.dropWhile isSpace

def word (expected : List Char) (value : Json) (text : List Char) : Except Refusal (Json × List Char) :=
  if expected.isPrefixOf text then .ok (value,text.drop expected.length)
  else .error .malformed

def pointDigits : List Char → List Char × List Char
  | '.' :: rest =>
    if (rest.takeWhile isAsciiDigit).isEmpty then ([],'.' :: rest)
    else (rest.takeWhile isAsciiDigit,rest.dropWhile isAsciiDigit)
  | text => ([],text)

def exponentDigits (negative : Bool) (whole digits : List Char) : Int × List Char :=
  let value : Int := digitsValue (digits.takeWhile isAsciiDigit)
  if (digits.takeWhile isAsciiDigit).isEmpty then (0,whole)
  else (if negative then -value else value,digits.dropWhile isAsciiDigit)

def exponent : List Char → Int × List Char
  | e :: sign :: rest =>
    if e = 'e' ∨ e = 'E' then
      if sign = '+' ∨ sign = '-' then exponentDigits (sign = '-') (e :: sign :: rest) rest
      else exponentDigits false (e :: sign :: rest) (sign :: rest)
    else (0,e :: sign :: rest)
  | text => (0,text)

def integerDigits : List Char → List Char
  | '0' :: _ => ['0']
  | text => text.takeWhile isAsciiDigit

def number (negative : Bool) (text : List Char) : Except Refusal (Json × List Char) :=
  let digits := integerDigits text
  let rest := text.drop digits.length
  if digits.isEmpty then .error .malformed
  else
    let (places,behind) := pointDigits rest
    let (power,after) := exponent behind
    if after.length < rest.length then
      .ok (.fraction (.decimal negative (digitsValue (digits ++ places)) (power - places.length)),after)
    else match readMagnitude digits with
      | none => .error .numeralTooLong
      | some value => .ok (.integer (if negative then -(value : Int) else value),rest)

def hexQuad : List Char → Option (Nat × List Char)
  | a :: b :: c :: d :: rest => do
    let a ← hexValue? a
    let b ← hexValue? b
    let c ← hexValue? c
    let d ← hexValue? d
    some (((a * 16 + b) * 16 + c) * 16 + d,rest)
  | _ => none

def escaped? : Char → Option Char
  | '\x22' => some '\x22'
  | '\\' => some '\\'
  | '/' => some '/'
  | 'b' => some '\x08'
  | 'f' => some '\x0c'
  | 'n' => some '\n'
  | 'r' => some '\r'
  | 't' => some '\t'
  | _ => none

-- Two escapes may form one supplementary character.
def numbered (text : List Char) : Except Refusal (Char × List Char) := do
  let (unit,rest) ← quad text
  if 0xD800 ≤ unit ∧ unit < 0xDC00 then
    match rest with
    | '\\' :: 'u' :: more => do
      let (low,after) ← quad more
      if 0xDC00 ≤ low ∧ low < 0xE000 then
        .ok (Char.ofNat (0x10000 + (unit - 0xD800) * 0x400 + (low - 0xDC00)),after)
      else .error .unpaired
    | _ => .error .unpaired
  else if 0xDC00 ≤ unit ∧ unit < 0xE000 then .error .unpaired
  else .ok (Char.ofNat unit,rest)
where
  quad (text : List Char) : Except Refusal (Nat × List Char) :=
    match hexQuad text with
    | none => .error .malformed
    | some found => .ok found

def stringBody : Nat → List Char → Except Refusal (List Char × List Char)
  | 0, _ => .error .malformed
  | _, [] => .error .malformed
  | fuel + 1, c :: rest =>
    if c = '\x22' then .ok ([],rest)
    else if c = '\\' then
      match rest with
      | 'u' :: more => do
        let (value,after) ← numbered more
        let (tail,after) ← stringBody fuel after
        .ok (value :: tail,after)
      | letter :: more => match escaped? letter with
        | none => .error .malformed
        | some value => do
          let (tail,after) ← stringBody fuel more
          .ok (value :: tail,after)
      | [] => .error .malformed
    else if c.toNat < 0x20 then .error .malformed
    else do
      let (tail,after) ← stringBody fuel rest
      .ok (c :: tail,after)

mutual
-- The first argument only bounds the recursion: two steps for every character of the text are
-- always enough.
def readValue : Nat → Nat → List Char → Except Refusal (Json × List Char)
  | 0, _, _ => .error .malformed
  | _, _, [] => .error .malformed
  | fuel + 1, room, c :: rest =>
    if c = '\x22' then do
      let (chars,after) ← stringBody (fuel + 1) rest
      .ok (.string (String.ofList chars),after)
    else if (c = '[' ∨ c = '\x7b') ∧ room = 0 then .error .tooDeep
    else if c = '[' then
      match skipSpace rest with
      | ']' :: after => .ok (.array [],after)
      | inside => do
        let (items,after) ← readItems fuel (room - 1) inside
        .ok (.array items,after)
    else if c = '\x7b' then
      match skipSpace rest with
      | '\x7d' :: after => .ok (.object [],after)
      | inside => do
        let (fields,after) ← readFields fuel (room - 1) inside
        .ok (.object (OrderedMap.ofList fields).toList,after)
    else if c = 'n' then word ['n','u','l','l'] .null (c :: rest)
    else if c = 't' then word ['t','r','u','e'] (.bool true) (c :: rest)
    else if c = 'f' then word ['f','a','l','s','e'] (.bool false) (c :: rest)
    else if c = 'N' then word ['N','a','N'] (.fraction .undefined) (c :: rest)
    else if c = 'I' then word ['I','n','f','i','n','i','t','y'] (.fraction (.infinite false)) (c :: rest)
    else if c = '-' then
      match rest with
      | 'I' :: _ => word ['I','n','f','i','n','i','t','y'] (.fraction (.infinite true)) rest
      | _ => number true rest
    else number false (c :: rest)

def readItems : Nat → Nat → List Char → Except Refusal (List Json × List Char)
  | 0, _, _ => .error .malformed
  | fuel + 1, room, text => do
    let (head,after) ← readValue fuel room text
    match skipSpace after with
    | ',' :: more => do
      let (tail,after) ← readItems fuel room (skipSpace more)
      .ok (head :: tail,after)
    | ']' :: after => .ok ([head],after)
    | _ => .error .malformed

def readFields : Nat → Nat → List Char → Except Refusal (List (String × Json) × List Char)
  | 0, _, _ => .error .malformed
  | fuel + 1, room, text => match text with
    | '\x22' :: inside => do
      let (key,after) ← stringBody (fuel + 1) inside
      match skipSpace after with
      | ':' :: more => do
        let (item,after) ← readValue fuel room (skipSpace more)
        match skipSpace after with
        | ',' :: more => do
          let (tail,after) ← readFields fuel room (skipSpace more)
          .ok ((String.ofList key,item) :: tail,after)
        | '\x7d' :: after => .ok ([(String.ofList key,item)],after)
        | _ => .error .malformed
      | _ => .error .malformed
    | _ => .error .malformed
end

-- A byte order mark is no blank.
def read (depth : Nat) (text : List Char) : Except Refusal Json := do
  let (result,after) ← readValue (2 * text.length + 2) depth (skipSpace text)
  if (skipSpace after).isEmpty then .ok result else .error .malformed

def writtenChar (c : Char) : List Char :=
  if c = '\x22' ∨ c = '\\' then ['\\',c]
  else if c.toNat < 0x20 then '\\' :: 'u' :: fixedHex 4 c.toNat
  else [c]

def writtenText (text : String) : List Char :=
  '\x22' :: text.toList.flatMap writtenChar ++ ['\x22']

mutual
def written : Json → List Char
  | null => "null".toList
  | bool value => if value then "true".toList else "false".toList
  | integer value => (intText value).toList
  | fraction value => value.text
  | string value => writtenText value
  | array items => '[' :: writtenItems items ++ [']']
  | object fields => '\x7b' :: writtenFields fields ++ ['\x7d']

def writtenItems : List Json → List Char
  | [] => []
  | [item] => written item
  | item :: rest => written item ++ ',' :: writtenItems rest

def writtenFields : List (String × Json) → List Char
  | [] => []
  | [(key,item)] => writtenText key ++ ':' :: written item
  | (key,item) :: rest => writtenText key ++ ':' :: written item ++ ',' :: writtenFields rest
end

end Json
end GameText
