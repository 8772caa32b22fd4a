import GameText.Text.Blank

namespace GameText.Text

-- The digit zero of every decimal digit run of Unicode 14.0; the nine other digits follow in order.
def decimalZeros : List Nat := [
  0x30,0x660,0x6F0,0x7C0,0x966,0x9E6,0xA66,0xAE6,0xB66,0xBE6,0xC66,0xCE6,0xD66,0xDE6,0xE50,
  0xED0,0xF20,0x1040,0x1090,0x17E0,0x1810,0x1946,0x19D0,0x1A80,0x1A90,0x1B50,0x1BB0,0x1C40,
  0x1C50,0xA620,0xA8D0,0xA900,0xA9D0,0xA9F0,0xAA50,0xABF0,0xFF10,0x104A0,0x10D30,0x11066,
  0x110F0,0x11136,0x111D0,0x112F0,0x11450,0x114D0,0x11650,0x116C0,0x11730,0x118E0,0x11950,
  0x11C50,0x11D50,0x11DA0,0x16A60,0x16AC0,0x16B50,0x1D7CE,0x1D7D8,0x1D7E2,0x1D7EC,0x1D7F6,
  0x1E140,0x1E2F0,0x1E950,0x1FBF0]

def digitValue? (c : Char) : Option Nat :=
  (decimalZeros.find? fun start => start ≤ c.toNat && c.toNat < start + 10).map
    fun start => c.toNat - start

def isDigit (c : Char) : Bool := (digitValue? c).isSome

def isDecimal (text : List Char) : Bool := !text.isEmpty && text.all isDigit

def isAsciiDigit (c : Char) : Bool := '0' ≤ c && c ≤ '9'

def digitChar (digit : Nat) : Char := Char.ofNat (48 + digit)

def digits (n : Nat) : List Char :=
  if n < 10 then [digitChar n] else digits (n / 10) ++ [digitChar (n % 10)]
termination_by n

def natText (n : Nat) : String := String.ofList (digits n)

def intText (n : Int) : String :=
  if n < 0 then "-" ++ natText n.natAbs else natText n.natAbs

def digitsValue (text : List Char) : Nat :=
  text.foldl (fun value c => 10 * value + (digitValue? c).getD 0) 0

def digitLimit : Nat := 4300

def numeral? (n : Nat) : Option String :=
  if n < Nat.pow 10 digitLimit then some (natText n) else none

def hasNumeral (n : Int) : Bool := (numeral? n.natAbs).isSome

-- Around a numeral every white space may stand except the four information
-- separators, although these are white space elsewhere.
def isNumeralBlank (c : Char) : Bool := isBlank c && !(0x1C ≤ c.toNat && c.toNat ≤ 0x1F)

def ungrouped : List Char → Option (List Char)
  | [] => none
  | [c] => if isDigit c then some [c] else none
  | c :: '_' :: rest => if isDigit c then (ungrouped rest).map (c :: ·) else none
  | c :: rest => if isDigit c then (ungrouped rest).map (c :: ·) else none

def readMagnitude (text : List Char) : Option Nat := do
  let digits ← ungrouped text
  if digits.length ≤ digitLimit then some (digitsValue digits) else none

def readInteger (text : List Char) : Option Int :=
  match trim isNumeralBlank text with
  | '-' :: rest => (readMagnitude rest).map fun value => -(value : Int)
  | '+' :: rest => (readMagnitude rest).map fun value => (value : Int)
  | rest => (readMagnitude rest).map fun value => (value : Int)

end GameText.Text
