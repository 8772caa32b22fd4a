import GameText.Tables.Assets
import GameText.Tool.Run

namespace GameText.Tool

-- The command line among real files. Everything a task may ask for is looked
-- up before it runs, and its file is written after it.
inductive Found where
  | file (content : Bytes)
  | directory
  | missing
  | blocked
  | refused

def find (path : Path) : IO Found := do
  try
    let content ← IO.FS.readBinFile path.toString
    return .file content.toList
  catch
    | .noFileOrDirectory .. => return .missing
    | .inappropriateType _ 21 _ => return .directory
    | .inappropriateType .. => return .blocked
    | _ => return .refused

def sourceOf (path : Path) : IO (Except Fault Bytes) := do
  match ← find path with
  | .file content => return .ok content
  | .directory => return .error (.isDirectory path.toString)
  | .missing => return .error (.noSuchFile path.toString)
  | .blocked => return .error (.notADirectory path.toString)
  | .refused => return .error (.unreachable path.toString)

def targetOf (path : Path) : IO (Except Fault Unit) := do
  match ← find path with
  | .file _ => return .ok ()
  | .directory => return .error (.isDirectory path.toString)
  | .blocked => return .error (.notADirectory path.toString)
  | .refused => return .error (.unreachable path.toString)
  | .missing => match ← find { path with names := path.names.dropLast } with
    | .directory => return .ok ()
    | .missing => return .error (.noSuchFile path.toString)
    | .refused => return .error (.unreachable path.toString)
    | _ => return .error (.notADirectory path.toString)

def contentOf (path : Path) : IO (Option Bytes) := do
  return (← sourceOf path).toOption

-- Only the schemas of the three categories are looked for.
def schemasOf (directory : Path) : IO SchemaFiles := do
  match ← find directory with
  | .directory =>
    let names := Category.all.map fun category => category.name ++ ".schema.json"
    let files ← names.filterMapM fun name => do
      match ← find (directory.child name) with
      | .missing => return none
      | .file content => return some (name,some content)
      | _ => return some (name,none)
    return .listed files
  | .file _ => return .listed []
  | .refused => return .unreachable
  | .missing | .blocked => return .missing

def tableDirectoryOf (path : Path) : IO TableDirectory := do
  let asset := fun (category : Category) => contentOf ((path.child "data").child (category.name ++ ".json"))
  let characters ← asset .characters
  let commands ← asset .commands
  let symbols ← asset .symbols
  let schemas ← schemasOf (path.child "schemas")
  return ⟨path,schemas,fun
    | .characters => characters
    | .commands => commands
    | .symbols => symbols⟩

def Task.paths : Task → Option String × Option String
  | .encode _ | .decode _ => (none,none)
  | .list name _ => (some name,none)
  | .toDocument name output | .toCatalog name output => (some name,output.get?)

def surroundingsOf (invocation : Invocation) : IO Surroundings := do
  let (name,output) := invocation.task.paths
  let source ← sourceOf (.ofString (name.getD ""))
  let target ← targetOf (.ofString (output.getD ""))
  let tables ← tableDirectoryOf (.ofString ((invocation.tables.bind Value.get?).getD ""))
  return ⟨Packaged.host 980,fun _ => source,fun _ => target,fun _ => tables⟩

def usage : String :=
  "usage: gametext (encode SCRIPT | decode HEX | list CATALOG [--width N] |\n" ++
  "                 export CATALOG -o DOCUMENT | import DOCUMENT -o CATALOG)\n" ++
  "                [--tables DIRECTORY] [--skip-errors] [-v]"

def tell (ending : Ending) : IO UInt32 := do
  match ending with
  | .stopped .help => IO.println usage; return 0
  | .stopped .misuse => IO.eprintln usage; return 2
  | .fell fault => IO.eprintln ("the run was ended: " ++ reprStr fault); return 1
  | .ended status output complaint written =>
    match written with
    | none => pure ()
    | some (path,content) => IO.FS.writeBinFile path.toString ⟨content.toArray⟩
    IO.print output
    if complaint ≠ "" then IO.eprintln complaint
    return UInt32.ofNat status

def perform (texts : List String) : IO UInt32 := do
  match Invocation.read texts with
  | .error stop => tell (.stopped stop)
  | .ok invocation =>
    let (ending,log) := run (← surroundingsOf invocation) texts
    for text in warnings log do IO.eprintln ("warning: " ++ text)
    tell ending

end GameText.Tool

def main (texts : List String) : IO UInt32 := GameText.Tool.perform texts
