import GameText.Xml.Element
import GameText.Xml.Event
import GameText.Xml.Label

namespace GameText.Xml

abbrev Scope := List (List Char × List Char)

def xmlSpace : List Char := "http://www.w3.org/XML/1998/namespace".toList
def declarationSpace : List Char := "http://www.w3.org/2000/xmlns/".toList
def xmlLead : List Char := ['x','m','l']
def declarationLead : List Char := ['x','m','l','n','s']

def declaredLead? (name : Name) : Option (List Char) :=
  match name.lead with
  | none => if name.base = declarationLead then some [] else none
  | some lead => if lead = declarationLead then some name.base else none

-- Only the default can be undeclared, the two reserved names and leads belong
-- to each other, and no name may hold the brace that ends it in a tag.
def isAllowed (lead space : List Char) : Bool :=
  (!space.isEmpty || lead.isEmpty) && lead ≠ declarationLead && space ≠ declarationSpace &&
    ((lead = xmlLead) == (space = xmlSpace)) && !space.contains '\x7d'

def declare (scope : Scope) : List (Name × List Char) → Option Scope
  | [] => some scope
  | (name,space) :: rest => match declaredLead? name with
    | none => declare scope rest
    | some lead => if isAllowed lead space then declare ((lead,space) :: scope) rest else none

def expanded (space base : List Char) : List Char := '\x7b' :: space ++ '\x7d' :: base

def spaceOf? (scope : Scope) (lead : List Char) : Option (List Char) :=
  if lead = xmlLead then some xmlSpace else scope.lookup lead

def elementName (scope : Scope) (name : Name) : Option (List Char) :=
  match name.lead with
  | some lead => (spaceOf? scope lead).map fun space => expanded space name.base
  | none => match scope.lookup [] with
    | none => some name.base
    | some space => if space.isEmpty then some name.base else some (expanded space name.base)

def attributeName (scope : Scope) (name : Name) : Option (List Char) :=
  match name.lead with
  | none => some name.base
  | some lead => (spaceOf? scope lead).map fun space => expanded space name.base

def attributeNames (scope : Scope) (pairs : List (Name × List Char)) :
    Option (List (List Char × List Char)) := do
  let pairs := pairs.filter fun pair => (declaredLead? pair.1).isNone
  let named ← pairs.mapM fun pair => do
    let name ← attributeName scope pair.1
    some (name,pair.2)
  let names := named.map Prod.fst
  if names.eraseDups.length = names.length then some named else none

structure Frame where
  name : Name
  tag : List Char
  attributes : List (List Char × List Char)
  scope : Scope
  text : Option String
  children : List Element
  pending : List Char

namespace Frame

def flush (frame : Frame) : Frame :=
  if frame.pending.isEmpty then frame
  else
    let text := some (String.ofList frame.pending.reverse)
    match frame.children with
    | [] => { frame with text := text, pending := [] }
    | last :: older => { frame with children := last.withTail text :: older, pending := [] }

def add (frame : Frame) (child : Element) : Frame :=
  let frame := frame.flush
  { frame with children := child :: frame.children }

def element (frame : Frame) : Element :=
  let frame := frame.flush
  ⟨String.ofList frame.tag,
    frame.attributes.map fun pair => (String.ofList pair.1,String.ofList pair.2),
    frame.text,none,frame.children.reverse⟩

def ofStart (scope : Scope) (name : Name) (pairs : List (Name × List Char)) : Option Frame := do
  let scope ← declare scope pairs
  let tag ← elementName scope name
  let attributes ← attributeNames scope pairs
  some ⟨name,tag,attributes,scope,none,[],[]⟩

end Frame

def build : List Frame → List Event → Option Element
  | _, [] => none
  | [], .start name pairs :: rest => do
    let frame ← Frame.ofStart [] name pairs
    build [frame] rest
  | [], _ :: _ => none
  | frame :: outer, .start name pairs :: rest => do
    let inner ← Frame.ofStart frame.scope name pairs
    build (inner :: frame :: outer) rest
  | frame :: outer, .char c :: rest => build ({ frame with pending := c :: frame.pending } :: outer) rest
  | frame :: outer, .finish name :: rest =>
    if frame.name = name then
      match outer with
      | [] => if rest.isEmpty then some frame.element else none
      | parent :: older => build (parent.add frame.element :: older) rest
    else none

def normalLines : List Char → List Char
  | [] => []
  | '\r' :: '\n' :: rest => '\n' :: normalLines rest
  | c :: rest => (if c = '\r' then '\n' else c) :: normalLines rest

def skipMisc (alphabet : Alphabet) : Nat → List Char → Option (List Char)
  | 0, text => some text
  | fuel + 1, text => match skipBlank text with
    | '<' :: '?' :: rest => do skipMisc alphabet fuel (← instruction alphabet rest)
    | '<' :: '!' :: '-' :: '-' :: rest => do skipMisc alphabet fuel (← comment rest)
    | text => some text

def misc (alphabet : Alphabet) (text : List Char) : Option (List Char) :=
  skipMisc alphabet (text.length + 1) text

def readDocument (doctype : Doctype) (text : List Char) : Option Element := do
  let text ← misc doctype.alphabet text
  let (doctype,text) ← match keyword "<!DOCTYPE" text with
    | some inside => do
      let (doctype,after) ← doctypeDeclaration doctype inside
      some (doctype,← misc doctype.alphabet after)
    | none => some (doctype,text)
  match text with
  | '<' :: rest => do
    let (read,after) ← elementEvents doctype rest
    let after ← misc doctype.alphabet after
    if after.isEmpty then build [] read else none
  | _ => none

structure Declaration where
  encoding : Option (List Char)
  standalone : Bool
  deriving DecidableEq, Repr

def isDeclarationChar (c : Char) : Bool :=
  c.isAlphanum || c = '.' || c = '-' || c = '_'

-- None means malformed; a missing item means that nothing but blanks was left.
def declarationItem (text : List Char) :
    Option (Option (List Char × List Char) × List Char) :=
  match text with
  | [] => some (none,[])
  | _ => do
    let text ← blank text
    if text.isEmpty then some (none,[])
    else
      let word := text.takeWhile fun c => !isBlank c && c ≠ '='
      match skipBlank (text.drop word.length) with
      | '=' :: more => do
        let (value,after) ← literal (skipBlank more)
        if word.isEmpty then none
        else if value.all isDeclarationChar then some (some (word,value),after)
        else none
      | _ => none

def standaloneItem (encoding : Option (List Char)) (item : Option (List Char × List Char))
    (after : List Char) : Option Declaration :=
  match item with
  | none => some ⟨encoding,false⟩
  | some (word,value) =>
    if word = "standalone".toList ∧ (skipBlank after).isEmpty then
      if value = "yes".toList then some ⟨encoding,true⟩
      else if value = "no".toList then some ⟨encoding,false⟩
      else none
    else none

def declarationItems (text : List Char) : Option Declaration := do
  let (version,after) ← declarationItem text
  match version with
  | none => none
  | some (word,_) =>
    if word = "version".toList then do
      let (item,after) ← declarationItem after
      match item with
      | none => some ⟨none,false⟩
      | some (word,value) =>
        if word = "encoding".toList then
          if (value.head?.any Char.isAlpha) then do
            let (item,after) ← declarationItem after
            standaloneItem (some value) item after
          else none
        else standaloneItem none item after
    else none

def upToInstructionEnd : List Char → Option (List Char × List Char)
  | [] => none
  | '?' :: '>' :: after => some ([],after)
  | c :: rest => (upToInstructionEnd rest).map fun taken => (c :: taken.1,taken.2)

def openingDeclaration (bytes : Bytes) : Option (Option (Declaration × Nat)) :=
  let text := bytes.map Charset.byteChar
  match keyword "<?xml" text with
  | none => some none
  | some after =>
    if !after.head?.any isBlank then some none
    else do
      let (inside,rest) ← upToInstructionEnd after
      let found ← declarationItems inside
      some (some (found,text.length - rest.length))

inductive Unreadable where
  | malformed
  | unknownEncoding (name : String)
  | wideEncoding (name : String)
  | notOfTexts (name : String)
  | undecodable (name : String)
  deriving DecidableEq, Repr

-- Sixteen-bit and foreign encodings contradict the bytes of the declaration itself. Of a wide
-- encoding that shares its single bytes with a charset only these are read.
def declaredEncoding (label : List Char) : Except Unreadable Encoding :=
  let name := String.ofList label
  let lower := String.ofList (label.map Char.toLower)
  if lower = "utf-8" then .ok ⟨.utf8,.common⟩
  else if lower = "us-ascii" then .ok ⟨.ascii,.common⟩
  else if lower = "iso-8859-1" then .ok ⟨.latin1,.western⟩
  else if ["utf-16","utf-16be","utf-16le"].contains lower then .error .malformed
  else match Label.coding? name with
    | some (.charset .utf8) => .ok ⟨.ascii,.common⟩
    | some (.charset charset) | some (.sharing charset) => .ok ⟨charset,.common⟩
    | some .wide => .error (.wideEncoding name)
    | some .foreign => .error .malformed
    | some .nameOnly => .error (.undecodable name)
    | some .nothing => .error (.notOfTexts name)
    | none => .error (.unknownEncoding name)

def byteOrderMark : Bytes := [0xEF,0xBB,0xBF]

def withoutMark (bytes : Bytes) : Bytes :=
  if byteOrderMark.isPrefixOf bytes then bytes.drop 3 else bytes

def readText (encoding : Encoding) (standalone : Bool) (size : Nat) (bytes : Bytes) :
    Except Unreadable Element :=
  let element := do
    let text ← encoding.charset.decode bytes
    let doctype := Doctype.empty standalone ⟨encoding,size,false,text⟩
    if text.all isLegal then readDocument doctype (normalLines text) else none
  match element with
  | none => .error .malformed
  | some element => .ok element

def read (file : Bytes) : Except Unreadable Element :=
  let bytes := withoutMark file
  match openingDeclaration bytes with
  | none => .error .malformed
  | some none => readText ⟨.utf8,.common⟩ false file.length bytes
  | some (some (found,length)) => do
    let encoding ← match found.encoding with
      | none => .ok ⟨.utf8,.common⟩
      | some label => declaredEncoding label
    readText encoding found.standalone file.length (bytes.drop length)

end GameText.Xml
