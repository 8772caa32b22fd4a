import GameText.Text.Decimal
import GameText.Text.Utf8
import GameText.Xml.Char

namespace GameText.Xml
open Text

-- A page is given by the characters of its bytes from 0x80 on. Escaped text is ASCII without the
-- character that opens its escapes.
inductive Charset where
  | utf8 | ascii | latin1
  | escaped (opener : Char)
  | page (upper : List Char)
  deriving DecidableEq, Repr

namespace Charset

def byteChar (byte : UInt8) : Char := Char.ofNat byte.toNat

def missing : Char := '\ufffd'

def isPlain (opener : Char) (byte : UInt8) : Bool := byte < 0x80 && byteChar byte ≠ opener

def pageChar? (upper : List Char) (byte : UInt8) : Option Char :=
  if byte < 0x80 then some (byteChar byte)
  else upper[byte.toNat - 0x80]?.filter fun c => c ≠ missing

def pageByte? (upper : List Char) (c : Char) : Option UInt8 :=
  if c.toNat < 0x80 then some (UInt8.ofNat c.toNat)
  else if c = missing then none
  else (upper.findIdx? fun other => other = c).map fun place => UInt8.ofNat (0x80 + place)

def reference (c : Char) : Bytes :=
  encodeUtf8 ("&#".toList ++ digits c.toNat ++ [';'])

def encodeChar (charset : Charset) (c : Char) : Bytes :=
  match charset with
  | utf8 => String.utf8EncodeChar c
  | ascii => if c.toNat < 0x80 then [UInt8.ofNat c.toNat] else reference c
  | latin1 => if c.toNat < 0x100 then [UInt8.ofNat c.toNat] else reference c
  | escaped opener =>
    if c.toNat < 0x80 ∧ c ≠ opener then [UInt8.ofNat c.toNat] else reference c
  | page upper => match pageByte? upper c with
    | some byte => [byte]
    | none => reference c

def encode (charset : Charset) (text : List Char) : Bytes := text.flatMap charset.encodeChar

def decode (charset : Charset) (bytes : Bytes) : Option (List Char) :=
  match charset with
  | utf8 => decodeUtf8 bytes
  | ascii => if bytes.all (fun byte => byte < 0x80) then some (bytes.map byteChar) else none
  | latin1 => some (bytes.map byteChar)
  | escaped opener => if bytes.all (isPlain opener) then some (bytes.map byteChar) else none
  | page upper => bytes.mapM (pageChar? upper)

def byteCount (charset : Charset) (text : List Char) : Nat :=
  match charset with
  | utf8 => text.foldl (fun count c => count + c.utf8Size) 0
  | _ => text.length

end Charset

structure Encoding where
  charset : Charset
  alphabet : Alphabet
  deriving DecidableEq, Repr

end GameText.Xml
