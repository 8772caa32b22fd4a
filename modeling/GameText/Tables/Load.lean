import GameText.Log
import GameText.Path
import GameText.Tables.Packaged
import GameText.Text.Utf8

namespace GameText
open Text

inductive Category where
  | characters | commands | symbols
  deriving DecidableEq, Repr

def Category.name : Category → String
  | characters => "characters"
  | commands => "commands"
  | symbols => "symbols"

def Category.all : List Category := [characters,commands,symbols]

-- What a validator answers to a schema and a document. It may break on the schema.
inductive Verdict where
  | valid | invalid | broken
  deriving DecidableEq, Repr

-- What loading leaves to others: how many brackets the JSON reader can have open at
-- once, and the validator, which is given a schema and a document.
structure Host where
  depth : Nat
  validate : Json → Json → Verdict

-- The schema directory may be missing, and even this may not be known. Its schemas
-- are found in its own order, each with its content unless it cannot be opened.
inductive SchemaFiles where
  | missing
  | unreachable
  | listed (files : List (String × Option Bytes))

structure TableDirectory where
  path : Path
  schemas : SchemaFiles
  assets : Category → Option Bytes

namespace TableDirectory

def schemaDirectory (directory : TableDirectory) : Path := directory.path.child "schemas"

def assetPath (directory : TableDirectory) (category : Category) : Path :=
  (directory.path.child "data").child (category.name ++ ".json")

def readJson (host : Host) (unreadable : TableError) (bytes : Bytes) : Except Fault Json :=
  match decodeUtf8 bytes with
  | none => .error .undecodable
  | some text => match Json.read host.depth text with
    | .ok json => .ok json
    | .error .malformed => .error (.table unreadable)
    | .error .numeralTooLong => .error (.value .numeralTooLong)
    | .error .tooDeep => .error .tooDeep
    | .error .unpaired => .error .unpaired

def readSchema (host : Host) (directory : TableDirectory) (file : String × Option Bytes) :
    Except Fault (String × Json) :=
  let unreadable := TableError.unreadableSchema (directory.schemaDirectory.child file.1).toString
  match file.2 with
  | none => .error (.table unreadable)
  | some bytes => do
    let json ← readJson host unreadable bytes
    .ok (file.1,json)

def readSchemas (host : Host) (directory : TableDirectory) : Except Fault (List (String × Json)) :=
  match directory.schemas with
  | .missing => .error (.table (.noSchemaDirectory directory.schemaDirectory.toString))
  | .unreachable => .error (.unreachable directory.schemaDirectory.toString)
  | .listed files => files.mapM (readSchema host directory)

-- A schema that is null counts as none.
def schemaFor? (schemas : List (String × Json)) (category : Category) : Option Json :=
  match schemas.lookup (category.name ++ ".schema.json") with
  | some .null => none
  | found => found

def readDocument (host : Host) (directory : TableDirectory) (schemas : List (String × Json))
    (category : Category) : Except Fault Json :=
  let path := (directory.assetPath category).toString
  match schemaFor? schemas category with
  | none => .error (.table (.noSchema category.name))
  | some schema => match directory.assets category with
    | none => .error (.table (.unreadableAsset path))
    | some bytes => do
      let json ← readJson host (.unreadableAsset path) bytes
      match host.validate schema json with
      | .valid => .ok json
      | .invalid => .error (.table (.invalidAsset path))
      | .broken => .error .badSchema

def sheetOf {α : Type} (make : Json → Option α) (json : Json) : Except Fault α :=
  match make json with
  | none => .error .unformed
  | some sheet => .ok sheet

-- All schemas are read first, then every document in the order of the categories,
-- and only then the tables are built. The packaged schemas let through what has the
-- form of a sheet; for a document that others let through without it, there is no
-- answer here.
def read (host : Host) (directory : TableDirectory) : Except Fault TableSet := do
  let schemas ← readSchemas host directory
  let characters ← readDocument host directory schemas .characters
  let commands ← readDocument host directory schemas .commands
  let symbols ← readDocument host directory schemas .symbols
  let characters ← sheetOf CharacterSheet.ofJson? characters
  let commands ← sheetOf CommandSheet.ofJson? commands
  let symbols ← sheetOf SymbolSheet.ofJson? symbols
  TableSet.ofSheets characters commands symbols

def faultLog : Fault → Log
  | .table e => match e with
    | .noSchemaDirectory _ | .unreadableSchema _ | .noSchema _ | .unreadableAsset _
    | .invalidAsset _ => [⟨.error,e.message⟩]
    | _ => []
  | _ => []

def loadedLog (directory : TableDirectory) (tables : TableSet) : Log :=
  [⟨.info,"Loaded " ++ natText tables.characters.glyphs.length ++ " characters, " ++
    natText tables.commands.rows.length ++ " commands from " ++ directory.path.toString⟩]

def load (host : Host) (directory : TableDirectory) : Except Fault TableSet × Log :=
  match read host directory with
  | .ok tables => (.ok tables,directory.loadedLog tables)
  | .error fault => (.error fault,faultLog fault)

end TableDirectory
end GameText
