import GameText.Script.Render
import GameText.OrderedMap
import GameText.Xml.Element

namespace GameText.Document
open Text Xml

def messageTag : String := "message"
def catalogTag : String := "messages"
def textTag : String := "text"
def complexTag : String := "complex"
def iconTag : String := "icon"
def newLineTag : String := "newline"
def idName : String := "id"
def valueName : String := "value"

def isUnwritable (c : Char) : Bool :=
  (c.toNat < 0x20 && c ≠ '\t' && c ≠ '\n' && c ≠ '\r') || c = '\ufffe' || c = '\uffff'

def refuse {α : Type} (cause : EncodingCause) (index : Nat) : Except Fault α :=
  .error (.encoding ⟨cause,some index⟩)

def nameOf (tables : TableSet) (index : Nat) (command : Command) : Except Fault String :=
  match (tables.commands.rowFor? command).bind CommandRow.name with
  | none => refuse (.noDocumentName command) index
  | some name => .ok name

-- Icons are written by name only, never by number.
def entryElement (tables : TableSet) (index : Nat) : Entry → Except Fault Element
  | .text content => match content.toList.find? isUnwritable with
    | some c => refuse (.notInXml c) index
    | none => .ok ⟨textTag,[],some content,none,[]⟩
  | .complex key => .ok (.leaf complexTag [(valueName,key)])
  | .lineBreak _ _ => .ok (.leaf newLineTag [])
  | .bare command _ => do
    let name ← nameOf tables index command
    .ok (.leaf name [])
  | .argument command data _ =>
    if command = .printIcon then
      match Script.iconName? tables data with
      | none => refuse (.unnamedIcon data) index
      | some name => .ok (.leaf iconTag [(valueName,name)])
    else do
      let name ← nameOf tables index command
      let argument ← CommandRow.argumentText data
      .ok (.leaf name [(valueName,argument)])

def entryElementsFrom (tables : TableSet) (index : Nat) : List Entry → Except Fault (List Element)
  | [] => .ok []
  | entry :: rest => do
    let head ← entryElement tables index entry
    let tail ← entryElementsFrom tables (index + 1) rest
    .ok (head :: tail)

def serialize (tables : TableSet) (id : Int) (entries : List Entry) : Except Fault Element := do
  let children ← entryElementsFrom tables 0 entries
  .ok ⟨messageTag,[(idName,intText id)],none,none,children⟩

def catalogElement (messages : List Element) : Element := ⟨catalogTag,[],none,none,messages⟩

def serializeCatalog (tables : TableSet) (messages : OrderedMap Int (List Entry)) :
    Except Fault Element := do
  let elements ← messages.toList.mapM fun message => serialize tables message.1 message.2
  .ok (catalogElement elements)

def fail {α : Type} (cause : ParseCause) (token : Option String) : Except Fault α :=
  .error (.parse ⟨cause,none,token⟩)

def expectTag (expected : String) (element : Element) : Except Fault Unit :=
  if element.tag = expected then .ok ()
  else fail (.wrongElement expected element.tag) (some element.tag)

-- A numeral that consists of digits still fails, if it has too many of them or
-- stands between blanks that no numeral allows.
def numeral (text : String) : Except Fault Int :=
  match readInteger text.toList with
  | none => .error (.value (.notANumeral text))
  | some value => .ok value

def readId (element : Element) : Except Fault Int :=
  match element.get? idName with
  | none => fail (.badMessageId none) none
  | some raw =>
    if isDecimal (strip raw.toList) then numeral raw
    else fail (.badMessageId (some raw)) (some raw)

def requiredValue (id : Int) (element : Element) : Except Fault String :=
  match element.get? valueName with
  | none => fail (.missingValue id element.tag) (some element.tag)
  | some value => .ok value

def readArgument (id : Int) (row : CommandRow) (element : Element) : Except Fault Entry := do
  let raw ← requiredValue id element
  if isDecimal raw.toList then do
    let value ← numeral raw
    let bound ← row.argumentBound
    if bound < value then fail (.invalidValue id element.tag raw) (some raw)
    else do
      let data ← row.argumentBytes value
      Entry.build row.command none (some data)
  else fail (.invalidValue id element.tag raw) (some raw)

def readCommand (tables : TableSet) (id : Int) (element : Element) : Except Fault Entry :=
  match tables.commands.byName? element.tag with
  | none => fail (.unknownElement id element.tag) (some element.tag)
  | some row =>
    if row.hasArgument then readArgument id row element
    else if (element.get? valueName).isSome then
      fail (.takesNoValue id element.tag) (some element.tag)
    else Entry.build row.command none none

def readComplex (tables : TableSet) (id : Int) (element : Element) : Except Fault Entry := do
  let key ← requiredValue id element
  if tables.commands.isComplex key then Entry.build .printComplex (some key) none
  else fail (.unknownComplex id key) (some key)

def readIcon (tables : TableSet) (id : Int) (element : Element) : Except Fault Entry := do
  let name ← requiredValue id element
  match tables.commands.iconId? name with
  | none => fail (.unknownIcon id name) (some name)
  | some icon => Entry.icon icon

-- The entry of one element. The four fixed tags come before the names of the
-- table, and only the first text of an element counts: its children and what
-- stands after it are not looked at. An empty text is no entry.
def readEntry (tables : TableSet) (id : Int) (element : Element) : Except Fault (Option Entry) :=
  if element.tag = textTag then
    match element.text with
    | none => .ok none
    | some text => if text.isEmpty then .ok none else .ok (some (.text text))
  else if element.tag = newLineTag then .ok (some .newLine)
  else if element.tag = complexTag then (readComplex tables id element).map some
  else if element.tag = iconTag then (readIcon tables id element).map some
  else (readCommand tables id element).map some

def readEntries (tables : TableSet) (id : Int) : List Element → Except Fault (List Entry)
  | [] => .ok []
  | element :: rest => do
    let head ← readEntry tables id element
    let tail ← readEntries tables id rest
    .ok (head.toList ++ tail)

def deserialize (tables : TableSet) (element : Element) : Except Fault (Int × List Entry) := do
  expectTag messageTag element
  let id ← readId element
  let entries ← readEntries tables id element.children
  .ok (id,entries)

def addMessage (tables : TableSet) (messages : OrderedMap Int (List Entry)) (element : Element) :
    Except Fault (OrderedMap Int (List Entry)) := do
  let (id,entries) ← deserialize tables element
  if messages.contains id then fail (.repeatedMessage id) (some (intText id))
  else .ok (messages.insert id entries)

def deserializeCatalog (tables : TableSet) (root : Element) :
    Except Fault (OrderedMap Int (List Entry)) := do
  expectTag catalogTag root
  root.children.foldlM (addMessage tables) ∅

end GameText.Document
