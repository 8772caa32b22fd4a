import GameText.Tables.Set
import GameText.Text.Json

namespace GameText
open Text

-- The asset documents from which tables are built, as they are after their
-- form was checked. A sheet says nothing about the consistency of the tables.
structure CharacterSheet where
  id : String
  prefixes : List Int
  ranges : List GlyphRange
  escaped : List EscapedRange
  deriving DecidableEq, Repr

structure CommandSheetRow where
  command : String
  opcode : Int
  width : Int
  name : Option String
  form : WidthForm
  deriving DecidableEq, Repr

structure CommandSheet where
  id : String
  terminator : Int
  rows : List CommandSheetRow
  deriving DecidableEq, Repr

structure SymbolSheet where
  id : String
  complex : List (String × Bytes)
  icons : List String
  deriving DecidableEq, Repr

namespace Sheet

def fieldsOf (allowed : List String) : Json → Option (List (String × Json))
  | .object fields => if fields.all fun field => allowed.contains field.1 then some fields else none
  | _ => none

def required {α : Type} (fields : List (String × Json)) (key : String) (read : Json → Option α) : Option α :=
  (fields.lookup key).bind read

def optional {α : Type} (fields : List (String × Json)) (key : String) (default : α)
    (read : Json → Option α) : Option α :=
  match fields.lookup key with
  | none => some default
  | some value => read value

def asText : Json → Option String
  | .string text => some text
  | _ => none

def asArray {α : Type} (read : Json → Option α) : Json → Option (List α)
  | .array items => items.mapM read
  | _ => none

-- The end of a pattern also matches before a final line feed, so that every
-- patterned text may have one.
def withoutFinalNewline (text : List Char) : List Char :=
  if text.getLast? = some '\n' then text.dropLast else text

def byteForm : List Char → Option Int
  | ['0','x',high,low] => do
    let high ← hexValue? high
    let low ← hexValue? low
    some ((16 * high + low : Nat) : Int)
  | _ => none

def asByte (json : Json) : Option Int := do
  let text ← asText json
  byteForm (withoutFinalNewline text.toList)

def asChars (json : Json) : Option String := do
  let text ← asText json
  if text.isEmpty then none else some text

def isUpperWord : Char → Bool := fun c => ('A' ≤ c && c ≤ 'Z') || isAsciiDigit c || c = '_'
def isLowerWord : Char → Bool := fun c => ('a' ≤ c && c ≤ 'z') || isAsciiDigit c || c = '_'

def asWord (first word : Char → Bool) (json : Json) : Option String := do
  let text ← asText json
  match withoutFinalNewline text.toList with
  | head :: rest => if first head && rest.all word then some text else none
  | [] => none

def asCommandName : Json → Option String := asWord (fun c => 'A' ≤ c && c ≤ 'Z') isUpperWord
def asScriptName : Json → Option String := asWord (fun c => 'a' ≤ c && c ≤ 'z') isLowerWord

def asSymbol (json : Json) : Option String := do
  let text ← asText json
  if text.isEmpty ∨ text.toList.any (fun c => c = '\x7b' || c = '\x7d' || c = ':') then none
  else some text

-- A real number without a fraction passes as an integer, and stays a real number.
def asWidth : Json → Option (Int × WidthForm)
  | .integer width => if 0 ≤ width ∧ width ≤ 8 then some (width,.whole) else none
  | .fraction number => (number.whole? 8).map fun read =>
    ((read.2 : Int),if read.1 then .negativeZero else .real)
  | _ => none

def asCode (json : Json) : Option Bytes := do
  let bytes ← asArray asByte json
  let bytes ← bytes.mapM Bytes.byteOf?
  if bytes.length = 1 ∨ bytes.length = 2 then some bytes else none

-- The texts of the prefixes may not repeat; two spellings of one byte may.
def asPrefixes (json : Json) : Option (List Int) := do
  let texts ← asArray asText json
  let bytes ← asArray asByte json
  if texts.eraseDups = texts then some bytes else none

def asRange (json : Json) : Option GlyphRange := do
  let fields ← fieldsOf ["start","chars"] json
  some ⟨← required fields "start" asByte,← required fields "chars" asChars⟩

def asEscaped (json : Json) : Option EscapedRange := do
  let fields ← fieldsOf ["prefix","start","chars"] json
  some ⟨← required fields "prefix" asByte,← required fields "start" asByte,
    ← required fields "chars" asChars⟩

def asCommandRow (json : Json) : Option CommandSheetRow := do
  let fields ← fieldsOf ["command","name","opcode","width"] json
  let (width,form) ← required fields "width" asWidth
  some ⟨← required fields "command" asCommandName,← required fields "opcode" asByte,width,
    ← optional fields "name" none fun name => (asScriptName name).map some,form⟩

def asComplex (json : Json) : Option (String × Bytes) := do
  let fields ← fieldsOf ["key","code"] json
  some (← required fields "key" asSymbol,← required fields "code" asCode)

end Sheet
open Sheet

def CharacterSheet.ofJson? (json : Json) : Option CharacterSheet := do
  let fields ← fieldsOf ["id","description","prefixes","ranges","escaped"] json
  let _ ← optional fields "description" "" asText
  some ⟨← required fields "id" asText,← optional fields "prefixes" [] asPrefixes,
    ← required fields "ranges" (asArray asRange),← optional fields "escaped" [] (asArray asEscaped)⟩

def CommandSheet.ofJson? (json : Json) : Option CommandSheet := do
  let fields ← fieldsOf ["id","terminator","commands"] json
  let rows ← required fields "commands" (asArray asCommandRow)
  if rows.isEmpty then none
  else some ⟨← required fields "id" asText,← required fields "terminator" asByte,rows⟩

def SymbolSheet.ofJson? (json : Json) : Option SymbolSheet := do
  let fields ← fieldsOf ["id","complex","icons"] json
  let icons ← required fields "icons" (asArray asSymbol)
  if 256 < icons.length then none
  else some ⟨← required fields "id" asText,← required fields "complex" (asArray asComplex),icons⟩

def byteJson (byte : Int) : Json := .string ("0x" ++ hexText byte)

def CharacterSheet.toJson (sheet : CharacterSheet) : Json :=
  .object [("id",.string sheet.id),
    ("prefixes",.array (sheet.prefixes.map byteJson)),
    ("ranges",.array (sheet.ranges.map fun range =>
      .object [("start",byteJson range.start),("chars",.string range.chars)])),
    ("escaped",.array (sheet.escaped.map fun range =>
      .object [("prefix",byteJson range.lead),("start",byteJson range.start),
        ("chars",.string range.chars)]))]

def widthJson (width : Int) : WidthForm → Json
  | .whole => .integer width
  | .real => .fraction (.decimal false (10 * width.toNat) (-1))
  | .negativeZero => .fraction (.decimal true 0 (-1))

def CommandSheetRow.toJson (row : CommandSheetRow) : Json :=
  .object ([("command",.string row.command)] ++
    (match row.name with | none => [] | some name => [("name",.string name)]) ++
    [("opcode",byteJson row.opcode),("width",widthJson row.width row.form)])

def CommandSheet.toJson (sheet : CommandSheet) : Json :=
  .object [("id",.string sheet.id),("terminator",byteJson sheet.terminator),
    ("commands",.array (sheet.rows.map CommandSheetRow.toJson))]

def SymbolSheet.toJson (sheet : SymbolSheet) : Json :=
  .object [("id",.string sheet.id),
    ("complex",.array (sheet.complex.map fun glyph =>
      .object [("key",.string glyph.1),
        ("code",.array (glyph.2.map fun byte => byteJson byte.toNat))])),
    ("icons",.array (sheet.icons.map .string))]

def CharacterSheet.build (sheet : CharacterSheet) : Except Fault CharacterTable :=
  CharacterTable.ofRanges sheet.id sheet.ranges sheet.escaped sheet.prefixes

def CommandSheetRow.build (row : CommandSheetRow) : Except TableError CommandRow :=
  match Command.ofName? row.command with
  | none => .error (.unknownCommand row.command)
  | some command => .ok ⟨command,row.opcode,row.width,row.name,row.form⟩

def CommandSheet.build (sheet : CommandSheet) (symbols : SymbolSheet) :
    Except TableError CommandTable := do
  let rows ← sheet.rows.mapM CommandSheetRow.build
  CommandTable.ofRows sheet.id sheet.terminator rows symbols.complex symbols.icons

def TableSet.ofSheets (characters : CharacterSheet) (commands : CommandSheet)
    (symbols : SymbolSheet) : Except Fault TableSet := do
  let characters ← characters.build
  let commands ← (commands.build symbols).mapError .table
  TableSet.ofTables characters commands

end GameText
