import GameText.Proofs.Batch.Conversions
import GameText.Proofs.Tables.Packaged

namespace GameText

-- What a converter can be asked for.
inductive Call where
  | toDocument (catalog : Catalog)
  | toScripts (catalog : Catalog)
  | ofScripts (scripts : OrderedMap Int String)
  | ofDocument (root : Xml.Element)

-- A document with another root is refused before a conversion begins.
def Call.begins : Call → Bool
  | ofDocument root => root.tag = Document.catalogTag
  | _ => true

namespace Converter

def fresh (converter : Converter) : Converter := { converter with failures := [] }

-- A converter after a call, whether or not there was a result.
def after (converter : Converter) : Call → Converter
  | .toDocument catalog => (converter.catalogToDocument catalog).converter
  | .toScripts catalog => (converter.catalogToScripts catalog).converter
  | .ofScripts scripts => (converter.scriptsToCatalog scripts).converter
  | .ofDocument root => (converter.documentToCatalog root).converter

def run (converter : Converter) (calls : List Call) : Converter := calls.foldl after converter

def latest? (calls : List Call) : Option Call := (calls.filter Call.begins).getLast?

theorem latest_append (calls : List Call) (call : Call) :
    latest? (calls ++ [call]) = if call.begins then some call else latest? calls := by
  unfold latest?
  rw [List.filter_append]
  cases begins : call.begins with
  | true => rw [List.filter_cons_of_pos begins,List.filter_nil,List.getLast?_concat,if_pos rfl]
  | false => simp [begins]

variable (converter : Converter)

theorem after_begins {call : Call} (begins : call.begins = true) :
    converter.after call = { converter with failures := (converter.fresh.after call).failures } := by
  cases call with
  | ofDocument root =>
    have tag : root.tag = Document.catalogTag := of_decide_eq_true begins
    simp only [after,Batch.documentToCatalog_tag _ tag]
    rfl
  | _ => rfl

theorem after_refused {call : Call} (refused : call.begins = false) : converter.after call = converter := by
  cases call with
  | ofDocument root =>
    obtain ⟨fault,same⟩ := Batch.documentToCatalog_wrong converter (of_decide_eq_false refused)
    rw [after,same]
  | _ => cases refused

theorem run_append (calls : List Call) (call : Call) : converter.run (calls ++ [call]) = (converter.run calls).after call :=
  List.foldl_append

theorem run_exact (calls : List Call) : converter.run calls = { converter with
    failures := ((latest? calls).map fun call => (converter.fresh.after call).failures).getD converter.failures } := by
  induction calls using List.reverseRecOn with
  | nil => rfl
  | append_singleton calls call ih =>
    rw [run_append,latest_append]
    cases begins : call.begins with
    | true =>
      rw [after_begins _ begins,ih]
      rfl
    | false =>
      rw [after_refused _ begins]
      exact ih

-- The failures of a converter are those of the latest call that began a conversion, which
-- does not see the calls before it. After a call they are its own unless a document was
-- refused for its root while failures from before were there.
theorem failures_latest (calls : List Call) :
    (converter.run calls).failures =
      ((latest? calls).map fun call => (converter.fresh.after call).failures).getD converter.failures ∧
    ∀ call, (converter.run (calls ++ [call])).failures = (converter.fresh.after call).failures ↔
      call.begins = true ∨ (converter.run calls).failures = [] := by
  refine ⟨congrArg Converter.failures (converter.run_exact calls),fun call => ?_⟩
  rw [run_append]
  cases begins : call.begins with
  | true =>
    rw [after_begins _ begins,run_exact]
    exact ⟨fun _ => .inl rfl,fun _ => rfl⟩
  | false =>
    rw [after_refused _ begins,after_refused _ begins]
    exact ⟨.inr,fun none => none.resolve_left nofun⟩

-- A script that could not be read is still filed after a message was taken for a document.
theorem failures_latest_stale :
    ¬ ∀ (converter : Converter) (calls : List Call) (call : Call),
      (converter.run (calls ++ [call])).failures = (converter.fresh.after call).failures := by
  intro law
  have same := law ⟨.skip,Packaged.set,[]⟩ [.ofScripts ⟨[(1,"\x7b")],by decide⟩]
    (.ofDocument ⟨Document.messageTag,[(Document.idName,"1")],none,none,[]⟩)
  exact absurd same (by decide +kernel)

end Converter
end GameText
