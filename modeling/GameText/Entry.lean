import GameText.Fault

namespace GameText

-- One unit of a message. The constructors allow exactly the payloads that the
-- command carries, so an entry is valid by being one. A line break tolerates a
-- stray payload, which no rendering shows.
inductive Entry where
  | text (content : String)
  | complex (key : String)
  | lineBreak (strayText : Option String) (strayData : Option Bytes)
  | bare (command : Command) (fits : command.isBare = true)
  | argument (command : Command) (data : Bytes) (fits : command.payload = .data)
  deriving DecidableEq, Repr

abbrev Message := List Entry

inductive Field where
  | absent
  | string (value : String)
  | other
  deriving DecidableEq, Repr

structure EntryRecord where
  command : Command
  text : Field
  data : Option Bytes
  unknown : List String

namespace Entry

def command : Entry → Command
  | text _ => .printText
  | complex _ => .printComplex
  | lineBreak _ _ => .newLine
  | bare command _ => command
  | argument command _ _ => command

def text? : Entry → Option String
  | text content => some content
  | complex key => some key
  | lineBreak stray _ => stray
  | _ => none

def data? : Entry → Option Bytes
  | lineBreak _ stray => stray
  | argument _ data _ => some data
  | _ => none

def ofFields (command : Command) (text : Option String) (data : Option Bytes) :
    Except EntryError Entry :=
  match form : command.payload with
  | .text => match text, data with
    | none, _ => .error (.needsText command)
    | some _, some _ => .error (.refusesData command)
    | some content, none =>
      if command = .printText then .ok (.text content) else .ok (.complex content)
  | .data => match data, text with
    | none, _ => .error (.needsData command)
    | some _, some _ => .error (.refusesText command)
    | some bytes, none => .ok (.argument command bytes form)
  | .nothing =>
    if fits : command.isBare = true then
      if text.isSome ∨ data.isSome then .error (.takesNothing command)
      else .ok (.bare command fits)
    else .ok (.lineBreak text data)

-- The types of the fields come before the payload rules, and known fields
-- before unknown ones.
def ofRecord (fields : EntryRecord) : Except EntryError Entry :=
  match fields.text, fields.unknown with
  | .other, _ => .error .textType
  | _, name :: _ => .error (.unknownField name)
  | .absent, [] => ofFields fields.command none fields.data
  | .string value, [] => ofFields fields.command (some value) fields.data

def assign (_ : Entry) (field : String) : Except EntryError Entry :=
  .error (.frozenField field)

def newLine : Entry := .lineBreak none none

def icon (id : Int) : Except Fault Entry :=
  match Bytes.byteOf? id with
  | none => .error (.value (.notAByte id))
  | some byte => .ok (.argument .printIcon [byte] rfl)

def build (command : Command) (text : Option String) (data : Option Bytes) :
    Except Fault Entry :=
  (ofFields command text data).mapError .entry

end Entry
end GameText
