import GameText.Batch
import GameText.FileTree
import GameText.Tool.Arguments
import GameText.Xml.File

namespace GameText.Tool
open Text

-- What a task may ask of the files around it, and what loads its tables. Nothing is
-- written while a task runs: a target only says whether a file could be.
structure Surroundings where
  host : Host
  read : Path → Except Fault Bytes
  target : Path → Except Fault Unit
  tableDirectory : Path → TableDirectory

structure Result where
  text : String
  written : Option (Path × Bytes)

inductive Failure where
  | fault (fault : Fault)
  | hex (position : Nat)
  deriving DecidableEq, Repr

-- The faults that no text is for end the whole program.
def Failure.complaint : Failure → Except Fault String
  | .hex position =>
    .ok ("[HEX ERROR] non-hexadecimal number found in fromhex() arg at position " ++
      natText position)
  | .fault cause => match cause with
    | .parse e => .ok ("[PARSEERROR] " ++ e.message)
    | .encoding e => .ok ("[ENCODINGERROR] " ++ e.message)
    | .table e => .ok ("[TABLEERROR] " ++ e.message)
    | .noSuchFile _ => .ok ("[FILE ERROR] " ++ cause.message)
    | _ => .error cause

structure Work (α : Type) where
  result : Except Failure α
  log : Log

namespace Work

def of {α : Type} (result : Except Fault α) : Work α := ⟨result.mapError .fault,[]⟩

def andThen {α β : Type} (work : Work α) (next : α → Work β) : Work β :=
  match work.result with
  | .error failure => ⟨.error failure,work.log⟩
  | .ok value =>
    let after := next value
    ⟨after.result,work.log ++ after.log⟩

end Work

def printed (lines : List String) : Work Result :=
  ⟨.ok ⟨String.join (lines.map fun line => line ++ "\n"),none⟩,[]⟩

def loadTables (around : Surroundings) : Option (Value String) → Work TableSet
  | none => .of Packaged.tables
  | some .lost => .of (.error .lostValue)
  | some (.given path) =>
    let (result,log) := (around.tableDirectory (.ofString path)).load around.host
    ⟨result.mapError .fault,log⟩

def policyOf (skip : Bool) : Policy := if skip then .skip else .abort

def settingsOf (invocation : Invocation) : Settings :=
  { tablePath := (invocation.tables.bind Value.get?).map Path.ofString
    policy := policyOf invocation.skip }

def Work.convert {α : Type} (converted : Converted α) : Work (α × Nat) :=
  ⟨(converted.result.map fun value => (value,converted.converter.failures.length)).mapError .fault,
    converted.log⟩

def encodeTask (tables : TableSet) (script : String) : Work Result :=
  (Work.of (do
    let entries ← Script.parse tables script
    Wire.encode tables entries)).andThen fun data => printed [spacedHex data]

def decodeTask (tables : TableSet) (hex : String) : Work Result :=
  match readHex hex.toList with
  | .error position => ⟨.error (.hex position),[]⟩
  | .ok data => (Work.of (Wire.decodeText tables data)).andThen fun script => printed [script]

def readCatalog (around : Surroundings) (tables : TableSet) (path : String) : Work Catalog :=
  .of (do
    let file ← around.read (.ofString path)
    Catalog.ofBytes tables file)

def padded (places : Nat) (text : String) : String :=
  String.ofList (List.replicate (places - text.length) ' ') ++ text

def cut (width : Int) (text : List Char) : List Char :=
  if 0 ≤ width then text.take width.toNat else text.take (text.length - width.natAbs)

def previewChar (c : Char) : List Char := if c = '\n' then ['\\','n'] else [c]

def preview (width : Int) (script : String) : String :=
  String.ofList ((cut width script.toList).flatMap previewChar)

def listRow (width : Int) (scripts : List (Int × String)) (message : Int × Bytes) : String :=
  padded 8 (intText message.1) ++ " | " ++ padded 5 (natText message.2.length) ++ " | " ++
    preview width ((scripts.lookup message.1).getD "<error>")

def listHeader (name : String) (count : Nat) : List String :=
  ["File: " ++ name,"Messages: " ++ natText count,"","      id |  size | preview",
   "---------+-------+---------------------------"]

-- Without messages no width is needed.
def listRows (scripts : List (Int × String)) (messages : List (Int × Bytes)) :
    Value Int → Except Fault (List String)
  | .given width => .ok (messages.map (listRow width scripts))
  | .lost => if messages.isEmpty then .ok [] else .error .lostValue

def listTask (around : Surroundings) (converter : Converter) (name : String) (width : Value Int) :
    Work Result :=
  (readCatalog around converter.tables name).andThen fun catalog =>
    (Work.convert (converter.catalogToScripts catalog)).andThen fun (scripts,_) =>
      (Work.of (listRows scripts catalog.messages.toList width)).andThen fun rows =>
        printed (listHeader name catalog.size ++ rows)

def report (task output : String) (messages skipped : Nat) : String :=
  "OK: " ++ task ++ " -> " ++ output ++ " (" ++ natText messages ++ " messages, " ++
    natText skipped ++ " skipped)"

def writeOut (around : Surroundings) (task : String) (output : Value String)
    (messages skipped : Nat) (content : Except Fault Bytes) : Work Result :=
  match output with
  | .lost => .of (.error .lostValue)
  | .given name =>
    let path := Path.ofString name
    (Work.of content).andThen fun content =>
      (Work.of (around.target path)).andThen fun _ =>
        (printed [report task name messages skipped]).andThen fun result =>
          ⟨.ok { result with written := some (path,content) },[]⟩

def toDocumentTask (around : Surroundings) (settings : Settings) (converter : Converter)
    (name : String) (output : Value String) : Work Result :=
  (readCatalog around converter.tables name).andThen fun catalog =>
    (Work.convert (converter.catalogToDocument catalog)).andThen fun (root,skipped) =>
      writeOut around "export" output root.children.length skipped
        (Xml.save root settings.encoding settings.pretty)

def toCatalogTask (around : Surroundings) (converter : Converter) (name : String)
    (output : Value String) : Work Result :=
  (Work.of (do
    let file ← around.read (.ofString name)
    Xml.load name file)).andThen fun root =>
    (Work.convert (converter.documentToCatalog root)).andThen fun (catalog,skipped) =>
      writeOut around "import" output catalog.size skipped catalog.save

def workOn (around : Surroundings) (invocation : Invocation) (tables : TableSet) : Work Result :=
  let settings := settingsOf invocation
  let converter : Converter := ⟨settings.policy,tables,[]⟩
  match invocation.task with
  | .encode script => encodeTask tables script
  | .decode hex => decodeTask tables hex
  | .list name width => listTask around converter name width
  | .toDocument name output => toDocumentTask around settings converter name output
  | .toCatalog name output => toCatalogTask around converter name output

def work (around : Surroundings) (invocation : Invocation) : Work Result :=
  (loadTables around invocation.tables).andThen (workOn around invocation)

inductive Ending where
  | stopped (stop : Stop)
  | ended (status : Nat) (output complaint : String) (written : Option (Path × Bytes))
  | fell (fault : Fault)

def Stop.status : Stop → Nat
  | help => 0
  | misuse => 2

def Work.ending (work : Work Result) : Ending :=
  match work.result with
  | .ok result => .ended 0 result.text "" result.written
  | .error failure => match failure.complaint with
    | .ok complaint => .ended 2 "" complaint none
    | .error fault => .fell fault

def run (around : Surroundings) (texts : List String) : Ending × Log :=
  match Invocation.read texts with
  | .error stop => (.stopped stop,[])
  | .ok invocation =>
    let work := work around invocation
    (work.ending,work.log)

def warnings (log : Log) : List String :=
  (log.filter fun line => line.level = .warning).map LogLine.message

end GameText.Tool

namespace GameText.FileTree

def surroundings (tree : FileTree) (host : Host) : Tool.Surroundings where
  host := host
  read := tree.read
  target := fun path => (tree.target path).map fun _ => ()
  tableDirectory := tree.tableDirectory

def run (tree : FileTree) (host : Host) (texts : List String) : Tool.Ending × Log × FileTree :=
  let (ending,log) := Tool.run (tree.surroundings host) texts
  match ending with
  | .ended _ _ _ (some (path,content)) => (ending,log,((tree.write path content).toOption).getD tree)
  | _ => (ending,log,tree)

end GameText.FileTree
