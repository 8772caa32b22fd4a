import GameText.Text.Printable
import GameText.Text.Hex

namespace GameText.Text

-- Quoted text as it stands in messages. The quote is an apostrophe, except
-- around text that holds an apostrophe and no double quote.
def quoteFor (text : List Char) : Char :=
  if text.contains '\x27' && !text.contains '\x22' then '\x22' else '\x27'

def hiddenForm (c : Char) : List Char :=
  if c.toNat < 0x100 then '\\' :: 'x' :: fixedHex 2 c.toNat
  else if c.toNat < 0x10000 then '\\' :: 'u' :: fixedHex 4 c.toNat
  else '\\' :: 'U' :: fixedHex 8 c.toNat

def letterOf? : Char → Option Char
  | '\n' => some 'n'
  | '\r' => some 'r'
  | '\t' => some 't'
  | _ => none

def quotedChar (quote c : Char) : List Char :=
  if c = quote ∨ c = '\\' then ['\\',c]
  else match letterOf? c with
    | some letter => ['\\',letter]
    | none => if isPrintable c then [c] else hiddenForm c

def quotedChars (text : List Char) : List Char :=
  let quote := quoteFor text
  quote :: text.flatMap (quotedChar quote) ++ [quote]

def quoted (text : String) : String := String.ofList (quotedChars text.toList)

def quotedLetter (c : Char) : String := String.ofList (quotedChars [c])

def quotedOption : Option String → String
  | none => "None"
  | some text => quoted text

end GameText.Text
