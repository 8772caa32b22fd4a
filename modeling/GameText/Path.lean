namespace GameText

-- A path of names. Empty names and names of the current directory are dropped;
-- names of the parent directory stay, because a link could stand before them.
structure Path where
  root : String
  names : List String
  deriving DecidableEq, Repr

namespace Path

-- Two leading slashes are a root of their own; three or more mean one.
def rootOf : List Char → String
  | '/' :: '/' :: '/' :: _ => "/"
  | '/' :: '/' :: _ => "//"
  | '/' :: _ => "/"
  | _ => ""

def ofString (text : String) : Path :=
  ⟨rootOf text.toList,
    (text.splitOn "/").filter fun name => name ≠ "" ∧ name ≠ "."⟩

def toString (path : Path) : String :=
  if path.root = "" ∧ path.names = [] then "."
  else path.root ++ "/".intercalate path.names

def child (path : Path) (name : String) : Path := ⟨path.root,path.names ++ [name]⟩

end Path
end GameText
