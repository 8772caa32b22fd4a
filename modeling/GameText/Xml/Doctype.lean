import GameText.Xml.Growth
import GameText.Xml.Lexeme

namespace GameText.Xml

inductive EntityBody where
  | text (replacement : List Char)
  | external
  deriving DecidableEq, Repr

structure AttributeRule where
  element : Name
  name : Name
  isPlain : Bool
  default : Option (List Char)
  deriving DecidableEq, Repr

-- Where declarations outside the document may exist that were not read, the document type is
-- open: entities it does not know may be declared there.
structure Doctype where
  entities : List (List Char × EntityBody)
  rules : List AttributeRule
  standalone : Bool
  hasOutside : Bool
  place : Place
  growth : Growth
  deriving Repr

namespace Doctype

def empty (standalone : Bool) (place : Place) : Doctype :=
  ⟨[],[],standalone,false,place,.start⟩

def alphabet (doctype : Doctype) : Alphabet := doctype.place.alphabet

def inside (doctype : Doctype) : Doctype := { doctype with place := doctype.place.inside }

def before (doctype : Doctype) (text : List Char) : Doctype :=
  { doctype with place := doctype.place.before text }

def isOpen (doctype : Doctype) : Bool := doctype.hasOutside && !doctype.standalone

def predefined? (name : List Char) : Option Char :=
  if name = ['l','t'] then some '<'
  else if name = ['g','t'] then some '>'
  else if name = ['a','m','p'] then some '&'
  else if name = ['q','u','o','t'] then some '\x22'
  else if name = ['a','p','o','s'] then some '\x27'
  else none

def entity? (doctype : Doctype) (name : List Char) : Option EntityBody :=
  doctype.entities.lookup name

def isPlain (doctype : Doctype) (element name : Name) : Bool :=
  match doctype.rules.find? fun rule => rule.element = element ∧ rule.name = name with
  | none => true
  | some rule => rule.isPlain

def defaults (doctype : Doctype) (element : Name) : List (Name × List Char) :=
  doctype.rules.filterMap fun rule =>
    if rule.element = element then rule.default.map fun value => (rule.name,value) else none

end Doctype

def collapse : List Char → List Char
  | [] => []
  | c :: rest =>
    let tail := collapse rest
    if c = ' ' ∧ (tail = [] ∨ tail.head? = some ' ') then tail else c :: tail

def tokenized (value : List Char) : List Char := (collapse value).dropWhile fun c => c = ' '

def isReread (value : List Char) : Bool :=
  value.any (fun c => c = '&' || (isBlank c && c ≠ ' ')) || tokenized value ≠ value

-- The depth bounds entities within entities: it is at least the number of those that are declared,
-- so that only an entity that contains itself exhausts it.
def attributeChars (doctype : Doctype) (depth : Nat) (growth : Growth) (text : List Char) :
    Option (List Char × Growth) :=
  match text with
  | [] => some ([],growth)
  | c :: rest =>
    if c = '&' then
      match _found : reference doctype.alphabet rest with
      | none => none
      | some (.char value,after) =>
        (attributeChars doctype depth growth after).map fun more => (value :: more.1,more.2)
      | some (.entity name,after) =>
        match Doctype.predefined? name with
        | some value => do
          let growth ← doctype.place.add growth 1
          let (tail,growth) ← attributeChars doctype depth growth after
          some (value :: tail,growth)
        | none => match doctype.entity? name with
          | none => if doctype.isOpen then attributeChars doctype depth growth after else none
          | some .external => none
          | some (.text replacement) => match depth with
            | 0 => none
            | inner + 1 => do
              let growth ← doctype.place.addText growth replacement
              let (value,growth) ← attributeChars doctype.inside inner growth replacement
              let (tail,growth) ← attributeChars doctype (inner + 1) growth after
              some (value ++ tail,growth)
    else if c = '<' then none
    else (attributeChars doctype depth growth rest).map fun more =>
      ((if isBlank c then ' ' else c) :: more.1,more.2)
termination_by (depth,text.length)
decreasing_by
  all_goals first
    | (apply Prod.Lex.left; omega)
    | (apply Prod.Lex.right
       have := reference_le _found
       simp only [List.length_cons]; omega)
    | (apply Prod.Lex.right; simp only [List.length_cons]; omega)

def attributeValue (doctype : Doctype) (isPlain : Bool) (growth : Growth) (text : List Char) :
    Option (List Char × Growth) :=
  (attributeChars doctype doctype.entities.length growth text).map fun read =>
    (if isPlain then read.1 else tokenized read.1,read.2)

-- A name in a declaration may go on with any character of a name after its colon.
def declaredName (alphabet : Alphabet) (text : List Char) : Option (Name × List Char) :=
  match simpleName alphabet text with
  | none => none
  | some (first,after) => match after with
    | ':' :: more =>
      if (more.takeWhile alphabet.isNameChar).isEmpty then none
      else some (⟨some first,more.takeWhile alphabet.isNameChar⟩,
        more.dropWhile alphabet.isNameChar)
    | _ => some (⟨none,first⟩,after)

def entityText (alphabet : Alphabet) : Nat → List Char → Option (List Char)
  | 0, _ => none
  | _, [] => some []
  | fuel + 1, c :: rest =>
    if c = '&' then
      match reference alphabet rest with
      | none => none
      | some (.char value,after) => (entityText alphabet fuel after).map (value :: ·)
      | some (.entity name,after) =>
        (entityText alphabet fuel after).map fun tail => '&' :: name ++ ';' :: tail
    else if c = '%' then none
    else (entityText alphabet fuel rest).map (c :: ·)

def keyword (word : String) (text : List Char) : Option (List Char) :=
  if word.toList.isPrefixOf text then some (text.drop word.length) else none

def close (text : List Char) : Option (List Char) :=
  match skipBlank text with
  | '>' :: after => some after
  | _ => none

def isPublicChar (c : Char) : Bool :=
  c.isAlphanum || c = ' ' || c = '\n' || c = '\r' || "-'()+,./:=?;!*#@$_%".toList.contains c

def publicLiteral (text : List Char) : Option (List Char) := do
  let (value,after) ← literal text
  if value.all isPublicChar then some after else none

def externalId (text : List Char) : Option (List Char) :=
  match keyword "SYSTEM" text with
  | some after => do
    let after ← blank after
    let (_,after) ← literal after
    some after
  | none => do
    let after ← keyword "PUBLIC" text
    let after ← blank after
    let after ← publicLiteral after
    let after ← blank after
    let (_,after) ← literal after
    some after

def notationName (alphabet : Alphabet) (text : List Char) : Option (List Char) :=
  match close text with
  | some after => some after
  | none => do
    let after ← blank text
    let after ← keyword "NDATA" after
    let after ← blank after
    let (_,after) ← simpleName alphabet after
    close after

-- Declarations count until one may be missing. Those that do not count have to
-- be well formed, but the values in them are not looked at.
structure Subset where
  doctype : Doctype
  counts : Bool

namespace Subset

def alphabet (subset : Subset) : Alphabet := subset.doctype.alphabet

-- A reference to a parameter entity, whose declarations are not read. Only a
-- document that stands alone goes on as before.
def skipped (subset : Subset) : Subset :=
  ⟨{ subset.doctype with hasOutside := true },subset.counts && subset.doctype.standalone⟩

def addEntity (subset : Subset) (name : List Char) (body : EntityBody) : Subset :=
  let doctype := subset.doctype
  if !subset.counts || doctype.entities.any fun other => other.1 = name then subset
  else { subset with doctype := { doctype with entities := doctype.entities ++ [(name,body)] } }

def addRule (subset : Subset) (rule : AttributeRule) : Subset :=
  let doctype := subset.doctype
  if !subset.counts || (rule.default.isSome && doctype.rules.any fun other =>
    other.element = rule.element ∧ other.name = rule.name) then subset
  else { subset with doctype := { doctype with rules := doctype.rules ++ [rule] } }

def entityText (subset : Subset) (value : List Char) : Option (List Char) :=
  if subset.counts then Xml.entityText subset.alphabet (value.length + 1) value else some []

def defaultValue (subset : Subset) (isPlain : Bool) (text after : List Char) :
    Option (List Char × Subset) :=
  if subset.counts then do
    let doctype := subset.doctype
    let (value,growth) ← attributeValue (doctype.before after) isPlain doctype.growth text
    some (value,{ subset with doctype := { doctype with growth := growth } })
  else some ([],subset)

end Subset

def entityDeclaration (subset : Subset) (text : List Char) : Option (Subset × List Char) := do
  let text ← blank text
  match text with
  | '%' :: more => do
    let more ← blank more
    let (_,after) ← simpleName subset.alphabet more
    let after ← blank after
    match literal after with
    | some (value,after) => do
      let _ ← subset.entityText value
      some (subset,← close after)
    | none => some (subset,← close (← externalId after))
  | _ => do
    let (name,after) ← simpleName subset.alphabet text
    let after ← blank after
    match literal after with
    | some (value,after) => do
      let replacement ← subset.entityText value
      some (subset.addEntity name (.text replacement),← close after)
    | none => do
      let after ← notationName subset.alphabet (← externalId after)
      some (subset.addEntity name .external,after)

def notationDeclaration (alphabet : Alphabet) (text : List Char) : Option (List Char) := do
  let text ← blank text
  let (_,after) ← simpleName alphabet text
  let after ← blank after
  match externalId after with
  | some after => close after
  | none => do
    let after ← keyword "PUBLIC" after
    let after ← blank after
    close (← publicLiteral after)

def skipOccurrence : List Char → List Char
  | '?' :: rest => rest
  | '*' :: rest => rest
  | '+' :: rest => rest
  | text => text

def mixedRest (alphabet : Alphabet) (some? : Bool) : Nat → List Char → Option (List Char)
  | 0, _ => none
  | fuel + 1, text => match skipBlank text with
    | ')' :: '*' :: after => some after
    | ')' :: after => if some? then none else some after
    | '|' :: more => do
      let (_,after) ← declaredName alphabet (skipBlank more)
      mixedRest alphabet true fuel after
    | _ => none

def groupRest (alphabet : Alphabet) : Nat → Option Char → List Char → Option (List Char)
  | 0, _, _ => none
  | fuel + 1, connector, text => do
    let after ← match skipBlank text with
      | '(' :: inside => groupRest alphabet fuel none inside
      | part => do
        let (_,after) ← declaredName alphabet part
        some (skipOccurrence after)
    match skipBlank after with
    | ')' :: after => some (skipOccurrence after)
    | c :: more =>
      if (c = '|' ∨ c = ',') ∧ (connector = none ∨ connector = some c) then
        groupRest alphabet fuel (some c) more
      else none
    | [] => none

def contentModel (alphabet : Alphabet) (text : List Char) : Option (List Char) :=
  match text with
  | '(' :: inside => match keyword "#PCDATA" (skipBlank inside) with
    | some after => mixedRest alphabet false (after.length + 1) after
    | none => groupRest alphabet (text.length + 1) none inside
  | _ => match keyword "EMPTY" text with
    | some after => some after
    | none => keyword "ANY" text

def elementDeclaration (alphabet : Alphabet) (text : List Char) : Option (List Char) := do
  let text ← blank text
  let (_,after) ← declaredName alphabet text
  let after ← blank after
  close (← contentModel alphabet after)

def nameToken (alphabet : Alphabet) (text : List Char) : Option (List Char) :=
  let isTokenChar (c : Char) : Bool := alphabet.isNameChar c || c = ':'
  if (text.takeWhile isTokenChar).isEmpty then none else some (text.dropWhile isTokenChar)

def enumeration (word : List Char → Option (List Char)) : Nat → List Char → Option (List Char)
  | 0, _ => none
  | fuel + 1, text => do
    let after ← word (skipBlank text)
    match skipBlank after with
    | ')' :: rest => some rest
    | '|' :: more => enumeration word fuel more
    | _ => none

def attributeType (alphabet : Alphabet) (text : List Char) : Option (Bool × List Char) :=
  match text with
  | '(' :: inside => do some (false,← enumeration (nameToken alphabet) (inside.length + 1) inside)
  | _ => do
    let (word,after) ← simpleName alphabet text
    if word = "NOTATION".toList then do
      let inside ← keyword "(" (← blank after)
      let notationWord := fun text => (simpleName alphabet text).map Prod.snd
      some (false,← enumeration notationWord (inside.length + 1) inside)
    else if word = "CDATA".toList then some (true,after)
    else if ["ID","IDREF","IDREFS","ENTITY","ENTITIES","NMTOKEN","NMTOKENS"].any
        fun known => known.toList = word then some (false,after)
    else none

def attributeDefault (subset : Subset) (isPlain : Bool) (text : List Char) :
    Option (Option (List Char) × Subset × List Char) :=
  match keyword "#REQUIRED" text, keyword "#IMPLIED" text with
  | some after, _ => some (none,subset,after)
  | none, some after => some (none,subset,after)
  | none, none => do
    let text ← match keyword "#FIXED" text with
      | some after => blank after
      | none => some text
    let (value,after) ← literal text
    let (value,subset) ← subset.defaultValue isPlain value after
    some (some value,subset,after)

def attributeRules (element : Name) : Nat → Subset → List Char → Option (Subset × List Char)
  | 0, _, _ => none
  | fuel + 1, subset, text => match close text with
    | some after => some (subset,after)
    | none => do
      let text ← blank text
      let (attributeName,after) ← declaredName subset.alphabet text
      let after ← blank after
      let (isPlain,after) ← attributeType subset.alphabet after
      let after ← blank after
      let (default,subset,after) ← attributeDefault subset isPlain after
      attributeRules element fuel
        (subset.addRule ⟨element,attributeName,isPlain,default⟩) after

def attributeDeclaration (subset : Subset) (text : List Char) : Option (Subset × List Char) := do
  let text ← blank text
  let (element,after) ← declaredName subset.alphabet text
  attributeRules element (after.length + 1) subset after

def declaration (subset : Subset) (text : List Char) : Option (Subset × List Char) :=
  match keyword "ENTITY" text, keyword "ATTLIST" text, keyword "ELEMENT" text,
    keyword "NOTATION" text with
  | some inside, _, _, _ => entityDeclaration subset inside
  | none, some inside, _, _ => attributeDeclaration subset inside
  | none, none, some inside, _ => do some (subset,← elementDeclaration subset.alphabet inside)
  | none, none, none, some inside => do
    some (subset,← notationDeclaration subset.alphabet inside)
  | none, none, none, none => none

def internalSubset : Nat → Subset → List Char → Option (Subset × List Char)
  | 0, _, _ => none
  | fuel + 1, subset, text => match skipBlank text with
    | ']' :: rest => some (subset,rest)
    | '%' :: rest => match simpleName subset.alphabet rest with
      | some (_,';' :: after) => internalSubset fuel subset.skipped after
      | _ => none
    | '<' :: '!' :: '-' :: '-' :: rest => do internalSubset fuel subset (← comment rest)
    | '<' :: '?' :: rest => do internalSubset fuel subset (← instruction subset.alphabet rest)
    | '<' :: '!' :: rest => do
      let (subset,after) ← declaration subset rest
      internalSubset fuel subset after
    | _ => none

def doctypeDeclaration (doctype : Doctype) (text : List Char) : Option (Doctype × List Char) := do
  let text ← blank text
  let (_,after) ← declaredName doctype.alphabet text
  let (hasOutside,after) ← match blank after with
    | none => some (false,after)
    | some inside => match externalId inside with
      | some after => some (true,after)
      | none => some (false,inside)
  let doctype := { doctype with hasOutside := hasOutside }
  match skipBlank after with
  | '[' :: inside => do
    let (subset,after) ← internalSubset (inside.length + 1) ⟨doctype,true⟩ inside
    some (subset.doctype,← close after)
  | '>' :: after => some (doctype,after)
  | _ => none

end GameText.Xml
