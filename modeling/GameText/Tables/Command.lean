import GameText.Fault

namespace GameText

-- Rows are given with integers for widths; only a file may have a real number there.
structure CommandRow where
  command : Command
  opcode : Int
  width : Int
  name : Option String
  form : WidthForm
  deriving DecidableEq, Repr

namespace CommandRow

def hasArgument (row : CommandRow) : Bool := 0 < row.width

def isWhole (row : CommandRow) : Bool := row.form = .whole

def argumentSize (row : CommandRow) : Nat := row.width.toNat

def maxArgument (row : CommandRow) : Nat := Nat.pow 256 row.argumentSize - 1

def argumentBound (row : CommandRow) : Except Fault Nat :=
  if row.isWhole = false then .error .notAnInteger
  else if row.width < 0 then .error (.value (.negativeWidth row.width))
  else .ok row.maxArgument

def argumentBytes (row : CommandRow) (value : Int) : Except Fault Bytes :=
  if row.isWhole = false then .error .notAnInteger
  else if row.width < 0 then .error (.value (.negativeWidth row.width))
  else if 0 ≤ value ∧ value ≤ row.maxArgument then
    .ok (Bytes.littleEndian row.argumentSize value.toNat)
  else .error .overflow

def argumentValue (data : Bytes) : Nat := Bytes.ofLittleEndian data

def argumentText (data : Bytes) : Except Fault String :=
  match Text.numeral? (argumentValue data) with
  | none => .error (.value .numeralTooLong)
  | some numeral => .ok numeral

end CommandRow

structure CommandTable where
  id : String
  terminator : Int
  rows : List CommandRow
  complex : List (String × Bytes)
  icons : List String
  hasNewLine : (rows.find? fun row => row.command = .newLine).isSome

namespace CommandTable

def rowFor? (table : CommandTable) (command : Command) : Option CommandRow :=
  table.rows.find? fun row => row.command = command

def byOpcode? (table : CommandTable) (opcode : Int) : Option CommandRow :=
  table.rows.find? fun row => row.opcode = opcode

def byName? (table : CommandTable) (name : String) : Option CommandRow :=
  table.rows.find? fun row => row.name = some name

-- Every width is a number of bytes, so that no row sends a reader back or leaves it
-- between two bytes. A table built from rows may have bare commands of negative
-- width, and one loaded from sheets may have widths that are real numbers.
def isForward (table : CommandTable) : Bool := table.rows.all fun row => 0 ≤ row.width && row.isWhole

def newLineOpcode (table : CommandTable) : Int :=
  ((table.rows.find? fun row => row.command = .newLine).get table.hasNewLine).opcode

def complexCode? (table : CommandTable) (key : String) : Option Bytes :=
  (table.complex.find? fun glyph => glyph.1 = key).map Prod.snd

def complexKey? (table : CommandTable) (code : Bytes) : Option String :=
  (table.complex.find? fun glyph => glyph.2 = code).map Prod.fst

def isComplex (table : CommandTable) (key : String) : Bool := (table.complexCode? key).isSome

def iconId? (table : CommandTable) (name : String) : Option Nat :=
  table.icons.findIdx? fun icon => icon = name

def iconName? (table : CommandTable) (id : Int) : Option String :=
  if 0 ≤ id then table.icons[id.toNat]? else none

-- The checks of one row against those accepted before it, in this order.
def addRow (terminator : Int) (rows : List CommandRow) (row : CommandRow) :
    Except TableError (List CommandRow) :=
  if rows.any fun other => other.command = row.command then .error (.commandRepeated row.command)
  else if (rows.any fun other => other.opcode = row.opcode) ∨ row.opcode = terminator then
    .error (.opcodeRepeated row.opcode)
  else match row.name with
    | some name =>
      if rows.any fun other => other.name = some name then .error (.nameRepeated name)
      else checked
    | none => checked
where
  checked : Except TableError (List CommandRow) :=
    if row.command.payload = .text then .error (.textCommand row.command)
    else if (row.command.payload = .data) ≠ (row.hasArgument = true) then
      .error (.wrongWidth row.command row.width row.form)
    else .ok (rows ++ [row])

def addComplex (rows : List CommandRow) (glyphs : List (String × Bytes)) (glyph : String × Bytes) :
    Except TableError (List (String × Bytes)) :=
  if glyphs.any fun other => other.1 = glyph.1 then .error (.complexRepeated glyph.1)
  else if glyphs.any fun other => other.2 = glyph.2 then .error (.complexCodeRepeated glyph.2)
  else match glyph.2 with
    | [byte] =>
      if rows.any fun row => row.opcode = (byte.toNat : Int) then .error (.complexIsOpcode glyph.1)
      else .ok (glyphs ++ [glyph])
    | _ => .ok (glyphs ++ [glyph])

def addIcon (complex : List (String × Bytes)) (icons : List String) (icon : String) :
    Except TableError (List String) :=
  if icons.contains icon then .error (.iconRepeated icon)
  else if complex.any fun glyph => glyph.1 = icon then .error (.iconIsComplex icon)
  else .ok (icons ++ [icon])

def ofRows (id : String) (terminator : Int) (rows : List CommandRow)
    (complex : List (String × Bytes)) (icons : List String) : Except TableError CommandTable := do
  let rows ← rows.foldlM (addRow terminator) []
  if hasNewLine : (rows.find? fun row => row.command = .newLine).isSome then
    if (rows.find? fun row => row.command = .printIcon).isNone then
      .error (.commandMissing .printIcon)
    else do
      let complex ← complex.foldlM (addComplex rows) []
      let icons ← icons.foldlM (addIcon complex) []
      .ok ⟨id,terminator,rows,complex,icons,hasNewLine⟩
  else .error (.commandMissing .newLine)

end CommandTable
end GameText
