import GameText.Tables.Load

namespace GameText.Packaged
open Text

def sheetJson : Category → Json
  | .characters => characters.toJson
  | .commands => commands.toJson
  | .symbols => symbols.toJson

def assetFile (category : Category) : List String × Bytes :=
  (["data",category.name ++ ".json"],encodeUtf8 (sheetJson category).written)

-- The packaged schemas, which are written in JSON Schema, draft 7.
def typed (name : String) (rules : List (String × Json)) : Json :=
  .object (("type",.string name) :: rules)

def patterned (pattern : String) : Json := typed "string" [("pattern",.string pattern)]

def byte : Json := .object [("$ref",.string "#/definitions/byte")]

def listOf (item : Json) (rules : List (String × Json)) : Json := typed "array" (("items",item) :: rules)

def fields (required : List String) (properties : List (String × Json)) : List (String × Json) :=
  [("required",.array (required.map .string)),("properties",.object properties),
    ("additionalProperties",.bool false)]

def record (required : List String) (properties : List (String × Json)) : Json :=
  typed "object" (fields required properties)

def document (title : String) (required : List String) (properties : List (String × Json)) : Json :=
  .object ([("$schema",.string "http://json-schema.org/draft-07/schema#"),("title",.string title),
    ("type",.string "object"),
    ("definitions",.object [("byte",patterned "^0x[0-9A-Fa-f]\x7b2\x7d$")])] ++ fields required properties)

def chars : Json := typed "string" [("minLength",.integer 1)]

def symbol : Json := patterned "^[^\x7b\x7d:]+$"

def schema : Category → Json
  | .characters => document "Character table" ["id","ranges"]
    [("id",typed "string" []),("description",typed "string" []),
      ("prefixes",listOf byte [("uniqueItems",.bool true)]),
      ("ranges",listOf (record ["start","chars"] [("start",byte),("chars",chars)]) []),
      ("escaped",listOf (record ["prefix","start","chars"]
        [("prefix",byte),("start",byte),("chars",chars)]) [])]
  | .commands => document "Command table" ["id","terminator","commands"]
    [("id",typed "string" []),("terminator",byte),
      ("commands",listOf (record ["command","opcode","width"]
        [("command",patterned "^[A-Z][A-Z0-9_]*$"),("name",patterned "^[a-z][a-z0-9_]*$"),("opcode",byte),
          ("width",typed "integer" [("minimum",.integer 0),("maximum",.integer 8)])])
        [("minItems",.integer 1)])]
  | .symbols => document "Symbolic token table" ["id","complex","icons"]
    [("id",typed "string" []),
      ("complex",listOf (record ["key","code"]
        [("key",symbol),("code",listOf byte [("minItems",.integer 1),("maxItems",.integer 2)])]) []),
      ("icons",listOf symbol [("maxItems",.integer 256)])]

def schemaFile (category : Category) : List String × Bytes :=
  (["schemas",category.name ++ ".schema.json"],encodeUtf8 (schema category).written)

def files : List (List String × Bytes) :=
  Category.all.map assetFile ++ Category.all.map schemaFile

def hasForm (json : Json) : Category → Bool
  | .characters => (CharacterSheet.ofJson? json).isSome
  | .commands => (CommandSheet.ofJson? json).isSome
  | .symbols => (SymbolSheet.ofJson? json).isSome

-- A validator for the packaged schemas: what they let through is what has the form
-- of a sheet. Of other schemas it knows nothing.
def validate (given json : Json) : Verdict :=
  match Category.all.find? fun category => given.written = (schema category).written with
  | none => .broken
  | some category => if hasForm json category then .valid else .invalid

def host (depth : Nat) : Host := ⟨depth,validate⟩

end GameText.Packaged
