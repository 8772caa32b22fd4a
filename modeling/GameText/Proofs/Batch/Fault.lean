import GameText.Proofs.Batch.Return
import GameText.Proofs.Catalog.Container

namespace GameText.Batch
open Outcome

section
variable {κ α β : Type} {policy : Policy} {label : κ → FailureKey} {convert : κ → α → Except Fault β}

end

section
variable {tables : TableSet} {policy : Policy}

-- A batch comes to an element that reading breaks off at. The elements before it convert, or
-- may be skipped.
inductive BreaksOff (policy : Policy) (tables : TableSet) (fault : Fault) : List Xml.Element → Prop where
  | here {element : Xml.Element} {rest : List Xml.Element} (unread : Document.Unread tables element fault) :
      BreaksOff policy tables fault (element :: rest)
  | later {element : Xml.Element} {rest : List Xml.Element}
      (goes : (∃ message, readElement tables element = .ok message) ∨
        policy = .skip ∧ ∀ other, ¬ Document.Unread tables element other)
      (more : BreaksOff policy tables fault rest) : BreaksOff policy tables fault (element :: rest)

theorem BreaksOff.number {elements : List Xml.Element} {fault : Fault} (breaks : BreaksOff policy tables fault elements) :
    fault.IsNumber := by
  induction breaks with
  | here unread => exact unread.number
  | later _ _ ih => exact ih

variable (loaded : tables.Loaded)
include loaded

end
end GameText.Batch
