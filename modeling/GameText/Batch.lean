import GameText.Catalog
import GameText.Document
import GameText.Log
import GameText.Settings

namespace GameText
open Text Xml

inductive FailureKey where
  | number (id : Int)
  | raw (text : Option String)
  deriving DecidableEq, Repr

def FailureKey.text : FailureKey → String
  | number id => intText id
  | raw none => "None"
  | raw (some text) => text

-- A number beyond the digit limit cannot be noted down.
def FailureKey.hasText : FailureKey → Bool
  | number id => hasNumeral id
  | raw _ => true

structure Journal where
  failures : List (FailureKey × Fault)
  log : Log

namespace Journal

def empty : Journal := ⟨[],[]⟩

def skip (journal : Journal) (key : FailureKey) (fault : Fault) : Journal :=
  ⟨journal.failures ++ [(key,fault)],
    journal.log ++ [⟨.warning,"Skipping message " ++ key.text ++ ": " ++ fault.message⟩]⟩

def summary (journal : Journal) (converted : Nat) : Journal :=
  let skipped := journal.failures.length
  let message := "Converted " ++ natText converted ++ " messages" ++
    (if skipped = 0 then "" else ", skipped " ++ natText skipped)
  { journal with log := journal.log ++ [⟨.info,message⟩] }

end Journal

structure Run (α : Type) where
  result : Except Fault α
  journal : Journal

def Run.then {α β : Type} (run : Run α) (next : α → Journal → Run β) : Run β :=
  match run.result with
  | .ok value => next value run.journal
  | .error fault => ⟨.error fault,run.journal⟩

namespace Batch

-- A failure of the codec is noted under the skip policy and the conversion
-- goes on; every other fault, and every fault under the abort policy, ends it.
-- It also ends where there is no text for the note.
def forgive (policy : Policy) (journal : Journal) (key : FailureKey) (fault : Fault) :
    Except Fault Journal :=
  if policy = .skip ∧ fault.isCodec then
    if key.hasText then .ok (journal.skip key fault) else .error (.value .numeralTooLong)
  else .error fault

def convertAll {κ α β : Type} (policy : Policy) (label : κ → FailureKey)
    (convert : κ → α → Except Fault β) : List (κ × α) → Journal → Run (List (κ × β))
  | [], journal => ⟨.ok [],journal⟩
  | (key,item) :: rest, journal => match convert key item with
    | .ok value =>
      let run := convertAll policy label convert rest journal
      ⟨run.result.map ((key,value) :: ·),run.journal⟩
    | .error fault => match forgive policy journal (label key) fault with
      | .ok journal => convertAll policy label convert rest journal
      | .error fault => ⟨.error fault,journal⟩

-- A conversion starts with an empty journal and ends with a summary, which
-- counts what was converted and not what is stored afterwards.
def convertItems {κ α β : Type} (policy : Policy) (label : κ → FailureKey)
    (convert : κ → α → Except Fault β) (items : List (κ × α)) : Run (List (κ × β)) :=
  let run := convertAll policy label convert items .empty
  match run.result with
  | .ok values => ⟨.ok values,run.journal.summary values.length⟩
  | .error fault => ⟨.error fault,run.journal⟩

def messageElement (tables : TableSet) (id : Int) (data : Bytes) : Except Fault Element := do
  let entries ← Wire.decode tables data
  Document.serialize tables id entries

def messageText (tables : TableSet) (_ : Int) (data : Bytes) : Except Fault String :=
  Wire.decodeText tables data

def scriptBytes (tables : TableSet) (_ : Int) (script : String) : Except Fault Bytes := do
  let entries ← Script.parse tables script
  Wire.encode tables entries

def elementBytes (tables : TableSet) (_ : Option String) (element : Element) :
    Except Fault (Int × Bytes) := do
  let (id,entries) ← Document.deserialize tables element
  let data ← Wire.encode tables entries
  .ok (id,data)

def storeAll (policy : Policy)
    (store : Catalog → Int → Bytes → Except Fault Catalog) :
    List (Int × Bytes) → Catalog → Journal → Run Catalog
  | [], catalog, journal => ⟨.ok catalog,journal⟩
  | (id,data) :: rest, catalog, journal => match store catalog id data with
    | .ok catalog => storeAll policy store rest catalog journal
    | .error fault => match forgive policy journal (.number id) fault with
      | .ok journal => storeAll policy store rest catalog journal
      | .error fault => ⟨.error fault,journal⟩

def storeNew (tables : TableSet) (catalog : Catalog) (id : Int) (data : Bytes) :
    Except Fault Catalog :=
  if catalog.contains id then Document.fail (.repeatedMessage id) none
  else catalog.set tables id data

def catalogToDocument (policy : Policy) (tables : TableSet) (catalog : Catalog) : Run Element :=
  (convertItems policy .number (messageElement tables) catalog.messages.toList).then
    fun values journal => ⟨.ok (Document.catalogElement (values.map Prod.snd)),journal⟩

def catalogToScripts (policy : Policy) (tables : TableSet) (catalog : Catalog) :
    Run (List (Int × String)) :=
  convertItems policy .number (messageText tables) catalog.messages.toList

def scriptsToCatalog (policy : Policy) (tables : TableSet) (scripts : OrderedMap Int String) :
    Run Catalog :=
  (convertItems policy .number (scriptBytes tables) scripts.toList).then fun values journal =>
    storeAll policy (Catalog.set tables) values .empty journal

def messagesToCatalog (policy : Policy) (tables : TableSet) (messages : List Element) :
    Run Catalog :=
  let items := messages.map fun element => (element.get? Document.idName,element)
  (convertItems policy .raw (elementBytes tables) items).then fun values journal =>
    storeAll policy (storeNew tables) (values.map Prod.snd) .empty journal

end Batch

-- A converter keeps the failures of its latest conversion. A document with the
-- wrong root is refused before a conversion starts, so that the failures of
-- the conversion before it stay.
structure Converter where
  policy : Policy
  tables : TableSet
  failures : List (FailureKey × Fault)

structure Converted (α : Type) where
  result : Except Fault α
  converter : Converter
  log : Log

namespace Converter

def finish {α : Type} (converter : Converter) (run : Run α) : Converted α :=
  ⟨run.result,{ converter with failures := run.journal.failures },run.journal.log⟩

def catalogToDocument (converter : Converter) (catalog : Catalog) : Converted Element :=
  converter.finish (Batch.catalogToDocument converter.policy converter.tables catalog)

def catalogToScripts (converter : Converter) (catalog : Catalog) :
    Converted (List (Int × String)) :=
  converter.finish (Batch.catalogToScripts converter.policy converter.tables catalog)

def scriptsToCatalog (converter : Converter) (scripts : OrderedMap Int String) :
    Converted Catalog :=
  converter.finish (Batch.scriptsToCatalog converter.policy converter.tables scripts)

def documentToCatalog (converter : Converter) (root : Element) : Converted Catalog :=
  match Document.expectTag Document.catalogTag root with
  | .error fault => ⟨.error fault,converter,[]⟩
  | .ok _ => converter.finish (Batch.messagesToCatalog converter.policy converter.tables root.children)

end Converter
end GameText
