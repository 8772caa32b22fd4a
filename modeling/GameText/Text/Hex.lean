import GameText.Bytes

namespace GameText.Text

def hexDigit (digit : Nat) : Char :=
  if digit < 10 then Char.ofNat (48 + digit) else Char.ofNat (55 + digit)

def lowerHexDigit (digit : Nat) : Char :=
  if digit < 10 then Char.ofNat (48 + digit) else Char.ofNat (87 + digit)

def hexValue? (c : Char) : Option Nat :=
  if '0' ≤ c ∧ c ≤ '9' then some (c.toNat - 48)
  else if 'A' ≤ c ∧ c ≤ 'F' then some (c.toNat - 55)
  else if 'a' ≤ c ∧ c ≤ 'f' then some (c.toNat - 87)
  else none

def fixedHex : Nat → Nat → List Char
  | 0, _ => []
  | width + 1, n => fixedHex width (n / 16) ++ [lowerHexDigit (n % 16)]

def hexDigits (n : Nat) : List Char :=
  if n < 16 then [hexDigit n] else hexDigits (n / 16) ++ [hexDigit (n % 16)]
termination_by n

def hexText (n : Int) : String :=
  let body := hexDigits n.natAbs
  let places := if n < 0 then 1 else 2
  let padded := List.replicate (places - body.length) '0' ++ body
  String.ofList (if n < 0 then '-' :: padded else padded)

def hexByte (byte : UInt8) : List Char :=
  [hexDigit (byte.toNat / 16),hexDigit (byte.toNat % 16)]

def spacedHex (bytes : Bytes) : String :=
  " ".intercalate (bytes.map fun byte => String.ofList (hexByte byte))

def isAsciiBlank (c : Char) : Bool := c = ' ' || (9 ≤ c.toNat && c.toNat ≤ 13)

-- Pairs of hexadecimal digits with ASCII blanks allowed before each pair. A
-- failure is the position of the first character that is no digit where one
-- is due; the text's length, where the text ends inside a pair.
def readHexFrom : Nat → List Char → Except Nat Bytes
  | _, [] => .ok []
  | position, c :: rest =>
    if isAsciiBlank c then readHexFrom (position + 1) rest
    else match hexValue? c, rest with
      | none, _ => .error position
      | some _, [] => .error (position + 1)
      | some high, d :: tail => match hexValue? d with
        | none => .error (position + 1)
        | some low => do
          let bytes ← readHexFrom (position + 2) tail
          .ok (UInt8.ofNat (16 * high + low) :: bytes)

def readHex (text : List Char) : Except Nat Bytes :=
  match text.findIdx? fun c => 128 ≤ c.toNat with
  | some position => .error position
  | none => readHexFrom 0 text

end GameText.Text
