import GameText.Proofs.Batch.Fault
import GameText.Proofs.Tables.Fault
import GameText.Proofs.Tool.Run
import GameText.Proofs.Xml.File

namespace GameText

-- What the user is told of: every failure of the codec, and a file that is not there.
def Fault.isTold : Fault → Bool
  | noSuchFile _ => true
  | fault => fault.isCodec

namespace Tool
open Outcome

-- An operation that fails in a way that there is no word for.
def Untold {α : Type} (result : Except Fault α) : Prop := ∃ fault, result = .error fault ∧ fault.isTold = false

def Work.Falls {α : Type} (work : Work α) : Prop :=
  ∃ fault, work.result = .error (.fault fault) ∧ fault.isTold = false

section
variable {α β : Type}

namespace Work

end Work
end

-- A file that cannot be written: it has no name, or its target is blocked.
inductive Unwritten (around : Surroundings) : Value String → Prop where
  | lost : Unwritten around .lost
  | blocked {name : String} (blocked : Untold (around.target (.ofString name))) : Unwritten around (.given name)

-- The file that a task reads.
def Task.source? : Task → Option String
  | .list name _ | .toDocument name _ | .toCatalog name _ => some name
  | _ => none

-- The catalog that it reads.
def Task.catalog? : Task → Option String
  | .list name _ | .toDocument name _ => some name
  | _ => none

-- Where a task with its tables fails without a word.
inductive Task.Falls (around : Surroundings) (tables : TableSet) (policy : Policy) : Task → Prop where
  | argument {script : String} {fault : Fault} (founders : Script.Founders tables fault script.toList) :
      Falls around tables policy (.encode script)
  | bytes {hex : String} {data : Bytes} (given : Text.readHex hex.toList = .ok data)
      (stumbles : Wire.Stumbles tables data) : Falls around tables policy (.decode hex)
  | catalog {task : Task} {name : String} {file : Bytes} (reads : task.catalog? = some name)
      (held : around.read (.ofString name) = .ok file) (trips : Catalog.Trips tables file) :
      Falls around tables policy task
  | source {task : Task} {name : String} (reads : task.source? = some name)
      (blocked : Untold (around.read (.ofString name))) : Falls around tables policy task
  | width {name : String} {file : Bytes} {catalog : Catalog} {scripts : List (Int × String)}
      (held : around.read (.ofString name) = .ok file) (accepted : Catalog.ofBytes tables file = .ok catalog)
      (converted : (Batch.catalogToScripts policy tables catalog).result = .ok scripts)
      (filled : catalog.messages.toList ≠ []) : Falls around tables policy (.list name .lost)
  | exported {name : String} {output : Value String} {file : Bytes} {catalog : Catalog} {root : Xml.Element}
      (held : around.read (.ofString name) = .ok file) (accepted : Catalog.ofBytes tables file = .ok catalog)
      (converted : (Batch.catalogToDocument policy tables catalog).result = .ok root)
      (unwritten : Unwritten around output) : Falls around tables policy (.toDocument name output)
  | encoding {name : String} {output : Value String} {file : Bytes} {refusal : Xml.Unreadable}
      (held : around.read (.ofString name) = .ok file) (refused : Xml.read file = .error refusal)
      (formed : refusal ≠ .malformed) : Falls around tables policy (.toCatalog name output)
  | message {name : String} {output : Value String} {file : Bytes} {root : Xml.Element}
      (held : around.read (.ofString name) = .ok file) (parsed : Xml.read file = .ok root)
      (tag : root.tag = Document.catalogTag) {fault : Fault} (breaks : Batch.BreaksOff policy tables fault root.children) :
      Falls around tables policy (.toCatalog name output)
  | imported {name : String} {output : Value String} {file : Bytes} {root : Xml.Element} {catalog : Catalog}
      (held : around.read (.ofString name) = .ok file) (parsed : Xml.read file = .ok root)
      (tag : root.tag = Document.catalogTag)
      (converted : (Batch.messagesToCatalog policy tables root.children).result = .ok catalog)
      (unwritten : ¬ catalog.Fits ∨ Unwritten around output) : Falls around tables policy (.toCatalog name output)

-- Where a command line that is understood does.
inductive Falls (around : Surroundings) (invocation : Invocation) : Prop where
  | directory (lost : invocation.tables = some .lost)
  | tables {path : String} {fault : Fault} (given : invocation.tables = some (.given path))
      (breaks : (around.tableDirectory (.ofString path)).Breaks around.host fault)
  | task {tables : TableSet} (loaded : (loadTables around invocation.tables).result = .ok tables)
      (falls : invocation.task.Falls around tables (policyOf invocation.skip))

-- A table directory that is named is one that loading has an answer for.
def Covered (around : Surroundings) (invocation : Invocation) : Prop :=
  ∀ path, invocation.tables = some (.given path) → (around.tableDirectory (.ofString path)).Covered around.host

section
variable {around : Surroundings}

section
variable {tables : TableSet} (loaded : tables.Loaded) {policy : Policy}
include loaded

end

end

-- A working directory without files, and files of which none is there.
def emptyTree : FileTree := ⟨∅,[]⟩

def emptyAround : Surroundings := emptyTree.surroundings TableDirectory.sampleHost

def absent : Surroundings := { emptyAround with read := fun path => .error (.noSuchFile path.toString) }

end Tool
end GameText
