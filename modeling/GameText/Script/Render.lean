import GameText.Script.Parse

namespace GameText.Script
open Text

-- The script text of entries. It fails for a command without a script name and
-- for an argument beyond the digit limit; icons are written by name where they
-- have one.
def noName (command : Command) : Except Fault String :=
  .error (.encoding ⟨.noScriptName command,none⟩)

def symbolText (key : String) : String := "\x7b" ++ key ++ "\x7d"

def iconName? (tables : TableSet) : Bytes → Option String
  | [byte] => tables.commands.iconName? byte.toNat
  | _ => none

def argumentText (tables : TableSet) (command : Command) (data : Bytes) : Except Fault String :=
  match (tables.commands.rowFor? command).bind CommandRow.name with
  | none => noName command
  | some name => (CommandRow.argumentText data).map fun argument =>
    "\x7b:" ++ name ++ " " ++ argument ++ "\x7d"

def entryText (tables : TableSet) : Entry → Except Fault String
  | .text content => .ok content
  | .complex key => .ok (symbolText key)
  | .lineBreak _ _ => .ok "\n"
  | .bare command _ => match (tables.commands.rowFor? command).bind CommandRow.name with
    | none => noName command
    | some name => .ok ("\x7b:" ++ name ++ "\x7d")
  | .argument command data _ =>
    if command = .printIcon then
      match iconName? tables data with
      | some name => .ok (symbolText name)
      | none => argumentText tables command data
    else argumentText tables command data

def serialize (tables : TableSet) : List Entry → Except Fault String
  | [] => .ok ""
  | entry :: rest => do
    let head ← entryText tables entry
    let tail ← serialize tables rest
    .ok (head ++ tail)

end GameText.Script
