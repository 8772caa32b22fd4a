import GameText.Fault
import GameText.OrderedMap

namespace GameText

-- Printable characters and their glyph codes. A code is one byte, or an escape
-- prefix followed by the glyph's index on the page of that prefix.
structure CharacterTable where
  id : String
  glyphs : List (Char × Bytes)
  prefixes : List Int
  deriving Repr

structure GlyphRange where
  start : Int
  chars : String
  deriving DecidableEq, Repr

structure EscapedRange where
  lead : Int
  start : Int
  chars : String
  deriving DecidableEq, Repr

namespace CharacterTable

def encodeChar? (table : CharacterTable) (c : Char) : Option Bytes :=
  (table.glyphs.find? fun glyph => glyph.1 = c).map Prod.snd

def decodeCode? (table : CharacterTable) (code : Bytes) : Option Char :=
  (table.glyphs.find? fun glyph => glyph.2 = code).map Prod.fst

def isPrefix (table : CharacterTable) (byte : Int) : Bool := table.prefixes.contains byte

def codeLength (table : CharacterTable) (first : Int) : Nat :=
  if table.isPrefix first then 2 else 1

def hasCode (table : CharacterTable) (code : Bytes) : Bool := (table.decodeCode? code).isSome

def encodeText? (table : CharacterTable) (text : String) : Option Bytes :=
  match text.toList with
  | [c] => table.encodeChar? c
  | _ => none

def checkCode (prefixes : List Int) (glyph : String) (code : Bytes) : Except TableError Unit :=
  match code with
  | [byte] => if prefixes.contains (byte.toNat : Int) then .error (.glyphIsPrefix glyph byte) else .ok ()
  | [lead,_] =>
    if prefixes.contains (lead.toNat : Int) then .ok () else .error (.glyphWithoutPrefix glyph lead)
  | _ => .error (.glyphLength glyph)

-- The checks of one glyph against those accepted before it, in this order: a
-- single character, a code of the right form, a code not yet taken.
def addGlyph (prefixes : List Int) (glyphs : List (Char × Bytes)) (glyph : String × Bytes) :
    Except TableError (List (Char × Bytes)) :=
  match glyph.1.toList with
  | [c] => do
    checkCode prefixes glyph.1 glyph.2
    match glyphs.find? fun other => other.2 = glyph.2 with
    | some (first,_) => .error (.glyphCodeShared glyph.2 first c)
    | none => .ok (glyphs ++ [(c,glyph.2)])
  | _ => .error (.glyphNotSingle glyph.1)

def ofGlyphs (id : String) (glyphs : OrderedMap String Bytes) (prefixes : List Int) :
    Except TableError CharacterTable := do
  let accepted ← glyphs.toList.foldlM (addGlyph prefixes) []
  .ok ⟨id,accepted,prefixes.eraseDups⟩

def addRun (overflow : TableError) (code? : Int → Option Bytes) :
    Int → List Char → OrderedMap String Bytes → Except Fault (OrderedMap String Bytes)
  | _, [], glyphs => .ok glyphs
  | position, c :: rest, glyphs =>
    if 255 < position then .error (.table overflow)
    else match code? position with
      | none => .error (.value (.notAByte position))
      | some code =>
        if glyphs.contains (String.singleton c) then .error (.table (.characterRepeated c))
        else addRun overflow code? (position + 1) rest (glyphs.insert (String.singleton c) code)

def addRange (glyphs : OrderedMap String Bytes) (range : GlyphRange) :
    Except Fault (OrderedMap String Bytes) :=
  addRun (.rangeOverflow range.start) (fun position => (Bytes.byteOf? position).map fun byte => [byte])
    range.start range.chars.toList glyphs

def addEscaped (glyphs : OrderedMap String Bytes) (range : EscapedRange) :
    Except Fault (OrderedMap String Bytes) :=
  addRun (.escapedOverflow range.lead range.start)
    (fun position => do
      let lead ← Bytes.byteOf? range.lead
      let index ← Bytes.byteOf? position
      some [lead,index])
    range.start range.chars.toList glyphs

def ofRanges (id : String) (ranges : List GlyphRange) (escaped : List EscapedRange)
    (prefixes : List Int) : Except Fault CharacterTable := do
  let glyphs ← ranges.foldlM addRange ∅
  let glyphs ← escaped.foldlM addEscaped glyphs
  (ofGlyphs id glyphs prefixes).mapError .table

end CharacterTable
end GameText
