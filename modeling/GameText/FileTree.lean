import GameText.OrderedMap
import GameText.Tables.Load

namespace GameText

structure FileTree where
  files : OrderedMap (List String) Bytes
  directories : List (List String)

-- Where a path leads. Outside of the working directory there are directories
-- on the way up and nothing else.
inductive Place where
  | inside (names : List String)
  | outside
  deriving DecidableEq, Repr

namespace FileTree

def hasDirectory (tree : FileTree) (names : List String) : Bool :=
  names.isEmpty || tree.directories.contains names ||
    tree.files.keys.any fun file => names.isPrefixOf file && names != file

def enter (tree : FileTree) (path : Path) (place : Place) (name : String) : Except Fault Place :=
  match place with
  | .outside => if name = ".." then .ok .outside else .error (.noSuchFile path.toString)
  | .inside names =>
    if !tree.hasDirectory names then .error (.notADirectory path.toString)
    else if name = ".." then .ok (if names.isEmpty then .outside else .inside names.dropLast)
    else
      let next := names ++ [name]
      if tree.hasDirectory next || tree.files.contains next then .ok (.inside next)
      else .error (.noSuchFile path.toString)

def start (path : Path) : Place := if path.root = "" then .inside [] else .outside

def follow (tree : FileTree) (path : Path) (names : List String) : Except Fault Place :=
  names.foldlM (tree.enter path) (start path)

def checkNames (path : Path) : Except Fault Unit :=
  if path.names.any fun name => name.toList.contains '\x00' then
    .error (.value (.notAPath path.toString))
  else .ok ()

def read (tree : FileTree) (path : Path) : Except Fault Bytes := do
  checkNames path
  match ← tree.follow path path.names with
  | .outside => .error (.isDirectory path.toString)
  | .inside names => match tree.files.get? names with
    | none => .error (.isDirectory path.toString)
    | some content => .ok content

def target (tree : FileTree) (path : Path) : Except Fault Place := do
  checkNames path
  match path.names.getLast? with
  | none => .error (.isDirectory path.toString)
  | some last => do
    let directory ← tree.follow path path.names.dropLast
    if last = ".." then do
      let _ ← tree.enter path directory last
      .error (.isDirectory path.toString)
    else match directory with
      | .outside => .ok .outside
      | .inside names =>
        if !tree.hasDirectory names then .error (.notADirectory path.toString)
        else if tree.hasDirectory (names ++ [last]) then .error (.isDirectory path.toString)
        else .ok (.inside (names ++ [last]))

def write (tree : FileTree) (path : Path) (content : Bytes) : Except Fault FileTree := do
  match ← tree.target path with
  | .outside => .ok tree
  | .inside names => .ok { tree with files := tree.files.insert names content }

def changes (before after : FileTree) : List (String × Bytes) :=
  after.files.toList.filterMap fun file => match file.1 with
    | [name] => if before.files.get? file.1 = some file.2 then none else some (name,file.2)
    | _ => none

def listing (tree : FileTree) (names : List String) : List String :=
  ((tree.files.keys ++ tree.directories).filterMap fun path =>
    if names.isPrefixOf path then path[names.length]? else none).eraseDups

-- A file in the place of the schema directory holds no schemas.
def schemaFiles (tree : FileTree) (directory : Path) : SchemaFiles :=
  match tree.follow directory directory.names with
  | .error _ => .missing
  | .ok .outside => .listed []
  | .ok (.inside names) =>
    .listed (((tree.listing names).filter fun name => name.endsWith ".schema.json").map fun name =>
      (name,(tree.read (directory.child name)).toOption))

def tableDirectory (tree : FileTree) (path : Path) : TableDirectory where
  path := path
  schemas := tree.schemaFiles (path.child "schemas")
  assets := fun category =>
    (tree.read ((path.child "data").child (category.name ++ ".json"))).toOption

end FileTree
end GameText
