import GameText.Fault
import GameText.Path

namespace GameText
open Text

inductive Policy where
  | abort | skip
  deriving DecidableEq, Repr

def Policy.name : Policy → String
  | abort => "abort"
  | skip => "skip"

def Policy.ofName? (name : String) : Option Policy :=
  [Policy.abort,Policy.skip].find? fun policy => policy.name = name

-- Without a table path the packaged tables are used.
structure Settings where
  tablePath : Option Path := none
  policy : Policy := .abort
  encoding : String := "utf-8"
  pretty : Bool := true

def policyRefusal (name : String) : String :=
  "on_error must be one of ('abort', 'skip'), got " ++ quoted name

def Settings.make (tablePath : Option String) (policy encoding : String) (pretty : Bool) :
    Except String Settings :=
  match Policy.ofName? policy with
  | none => .error (policyRefusal policy)
  | some policy => .ok ⟨tablePath.map Path.ofString,policy,encoding,pretty⟩

end GameText
