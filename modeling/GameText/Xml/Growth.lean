import GameText.Xml.Charset

namespace GameText.Xml

-- A value that is looked at again after its tag counts with the document; the text of an entity
-- is added whenever it is read.
structure Growth where
  again : Nat
  added : Nat
  deriving DecidableEq, Repr

namespace Growth

def start : Growth := ⟨0,0⟩

def freeSize : Nat := 8 * 1024 * 1024

end Growth

structure Place where
  encoding : Encoding
  size : Nat
  isInside : Bool
  ahead : List Char
  deriving Repr

namespace Place

def charset (place : Place) : Charset := if place.isInside then .utf8 else place.encoding.charset

def alphabet (place : Place) : Alphabet :=
  if place.isInside then .common else place.encoding.alphabet

def inside (place : Place) : Place := { place with isInside := true }

def before (place : Place) (text : List Char) : Place :=
  if place.isInside then place else { place with ahead := text }

-- From eight mebibytes on, the document as far as it was read has to be at least
-- a hundredth of the whole. This is so at any time if the whole stays below that
-- size to the end, or if it reaches it when a hundredth has been read.
def allows (place : Place) (growth : Growth) : Bool :=
  place.size + growth.again + growth.added < Growth.freeSize ||
    100 * growth.added ≤ 99 * Growth.freeSize ||
    growth.added ≤
      99 * (place.size - place.encoding.charset.byteCount place.ahead + growth.again)

def add (place : Place) (growth : Growth) (count : Nat) : Option Growth :=
  let grown := { growth with added := growth.added + count }
  if place.allows grown then some grown else none

def addText (place : Place) (growth : Growth) (text : List Char) : Option Growth :=
  place.add growth (Charset.utf8.byteCount text)

def reread (place : Place) (growth : Growth) (text : List Char) : Option Growth :=
  let count := place.charset.byteCount text
  if place.isInside then place.add growth count
  else
    let grown := { growth with again := growth.again + count }
    if place.allows grown then some grown else none

end Place
end GameText.Xml
