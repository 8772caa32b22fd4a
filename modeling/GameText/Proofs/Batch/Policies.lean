import GameText.Proofs.Batch.Conversions
import GameText.Proofs.Tables.Loaded

namespace GameText.Batch
open Fate Outcome

-- Every item is kept or noted, and none is both. What is kept and what is noted are in the
-- order of the items, with what could not be converted before what could not be stored.
structure Accounted {α β : Type} (items : List α) (fates : List (Fate β)) (given : List β)
    (noted : List (FailureKey × Fault)) : Prop where
  kept : given = values fates
  failed : noted = refusals fates ++ objections fates
  total : given.length + noted.length = items.length

theorem Settles.accounted {α β γ : Type} {run : Policy → Run α} {result : α} {fates : List (Fate β)} {converted : Nat}
    (settles : Settles run result fates converted) {items : List γ} (each : fates.length = items.length) :
    Accounted items fates (values fates) (run .skip).journal.failures := by
  obtain ⟨_,noted⟩ := settles.noted
  rw [noted]
  exact ⟨rfl,rfl,each ▸ tally fates⟩

theorem Settles.ended {α β : Type} {run : Policy → Run α} {result other : α} {fates : List (Fate β)} {converted : Nat}
    (settles : Settles run result fates converted) (ended : (run .skip).result = .ok other) : other = result :=
  Except.ok.inj (ended.symm.trans settles.noted.1)

-- A conversion that skips accounts for every item. What becomes of an item is said by its
-- fate, which looks at nothing but this message or script, or this element and the numbers
-- before it.
theorem skip_accounts {converter : Converter} (skips : converter.policy = .skip) :
    (∀ catalog root, (converter.catalogToDocument catalog).result = .ok root → ∃ elements,
      root = Document.catalogElement elements ∧
      Accounted catalog.messages.toList (elementFates converter.tables catalog.messages.toList) elements
        (converter.catalogToDocument catalog).converter.failures) ∧
    (∀ catalog scripts, (converter.catalogToScripts catalog).result = .ok scripts →
      Accounted catalog.messages.toList (textFates converter.tables catalog.messages.toList) scripts
        (converter.catalogToScripts catalog).converter.failures) ∧
    (∀ scripts catalog, (converter.scriptsToCatalog scripts).result = .ok catalog →
      Accounted scripts.toList (scripts.toList.map (scriptFate converter.tables)) catalog.messages.toList
        (converter.scriptsToCatalog scripts).converter.failures) ∧
    ∀ root catalog, (converter.documentToCatalog root).result = .ok catalog →
      Accounted root.children (documentFates converter.tables root.children) catalog.messages.toList
        (converter.documentToCatalog root).converter.failures := by
  obtain ⟨policy,tables,before⟩ := converter
  cases skips
  refine ⟨?_,?_,?_,?_⟩
  · intro catalog root ended
    obtain ⟨converted,settles⟩ := catalogToDocument_settles (catalogToDocument_returns.mp ⟨root,ended⟩)
    exact ⟨_,settles.ended ended,settles.accounted (List.length_map _)⟩
  · intro catalog scripts ended
    obtain ⟨converted,settles⟩ := catalogToScripts_settles (convertItems_returns.mp ⟨scripts,ended⟩)
    rw [settles.ended ended]
    exact settles.accounted (List.length_map _)
  · intro scripts catalog ended
    obtain ⟨skippable,numbered⟩ := scriptsToCatalog_returns.mp ⟨catalog,ended⟩
    obtain ⟨next,converted,stored,settles⟩ := scriptsToCatalog_settles skippable numbered
    rw [settles.ended ended,stored]
    exact settles.accounted (List.length_map _)
  · intro root catalog ended
    have tag := documentToCatalog_root ended
    rw [documentToCatalog_tag _ tag] at ended ⊢
    obtain ⟨next,converted,stored,settles⟩ := messagesToCatalog_settles (messagesToCatalog_returns.mp ⟨catalog,ended⟩)
    rw [settles.ended ended,stored]
    exact settles.accounted List.length_mapIdx

-- Elements without a number, with an unknown command, with a number that no catalog has, and
-- with one that is taken; what failed before takes no number.
def sampleMessage (id : String) (child : Xml.Element) : Xml.Element :=
  ⟨Document.messageTag,[(Document.idName,id)],none,none,[child]⟩

def sampleText : Xml.Element := ⟨Document.textTag,[],some "a",none,[]⟩

def sampleDocument : Xml.Element :=
  Document.catalogElement [sampleMessage "1" (.leaf "glow" []),sampleMessage " 1" sampleText,
    ⟨Document.messageTag,[],none,none,[]⟩,sampleMessage "4294967296" sampleText,sampleMessage "01" (.leaf "reset" [])]

def sampleFailures : List (FailureKey × Fault) :=
  [(.raw (some "1"),.parse ⟨.unknownElement 1 "glow",none,some "glow"⟩),
    (.raw none,.parse ⟨.badMessageId none,none,none⟩),
    (.number 4294967296,outOfRange 4294967296),(.number 1,repeated 1)]

theorem skip_accounts_sample : ∃ catalog,
    (Converter.documentToCatalog ⟨.skip,TableSet.sample,[]⟩ sampleDocument).result = .ok catalog ∧
      catalog.messages.toList = [(1,[0x61,0x00])] ∧
      (Converter.documentToCatalog ⟨.skip,TableSet.sample,[]⟩ sampleDocument).converter.failures = sampleFailures := by
  have stored : (Converter.documentToCatalog ⟨.skip,TableSet.sample,[]⟩ sampleDocument).result.toOption.map
      (fun catalog => catalog.messages.toList) = some [(1,[0x61,0x00])] := by decide +kernel
  obtain ⟨catalog,ended,list⟩ := Option.map_eq_some_iff.mp stored
  have accounted := (skip_accounts rfl).2.2.2 _ _ (toOption_ok.mp ended)
  have fates : refusals (documentFates TableSet.sample sampleDocument.children) ++
      objections (documentFates TableSet.sample sampleDocument.children) = sampleFailures := by decide +kernel
  exact ⟨catalog,toOption_ok.mp ended,list,accounted.failed.trans fates⟩

-- What a conversion without skipping makes of the failures of one that skips.
structure Agree {α : Type} (skipping aborting : Converted α) : Prop where
  raises : (∃ fault, aborting.result = .error fault) ↔ skipping.converter.failures ≠ []
  first : ∀ fault, aborting.result = .error fault → ∃ key rest, skipping.converter.failures = (key,fault) :: rest
  same : skipping.converter.failures = [] → aborting.result = skipping.result
  silent : aborting.converter.failures = []

theorem Settles.agree {α β : Type} {run : Policy → Run α} {result : α} {fates : List (Fate β)} {converted : Nat}
    (settles : Settles run result fates converted) (silent : (run .abort).journal.failures = [])
    {skipping aborting : Converter} :
    Agree (skipping.finish (run .skip)) (aborting.finish (run .abort)) := by
  obtain ⟨ended,noted⟩ := settles.noted
  have stops := settles.stops
  rw [← noted] at stops
  unfold Converter.finish
  cases failed : (run .skip).journal.failures with
  | nil =>
    rw [failed] at stops
    refine ⟨?_,?_,?_,silent⟩ <;> simp [stops,stopped,ended]
  | cons failure rest =>
    rw [failed] at stops
    refine ⟨?_,?_,?_,silent⟩ <;> simp [stops,stopped,Prod.ext_iff]

-- Without skipping a conversion ends with the first failure of the one that skips, and with
-- the same result where there is none. A converter that never skips has no failures.
theorem abort_agrees {skipping aborting : Converter} (skips : skipping.policy = .skip)
    (aborts : aborting.policy = .abort) (alike : aborting.tables = skipping.tables) :
    (∀ catalog root, (skipping.catalogToDocument catalog).result = .ok root →
      Agree (skipping.catalogToDocument catalog) (aborting.catalogToDocument catalog)) ∧
    (∀ catalog scripts, (skipping.catalogToScripts catalog).result = .ok scripts →
      Agree (skipping.catalogToScripts catalog) (aborting.catalogToScripts catalog)) ∧
    (∀ scripts catalog, (skipping.scriptsToCatalog scripts).result = .ok catalog →
      Agree (skipping.scriptsToCatalog scripts) (aborting.scriptsToCatalog scripts)) ∧
    (∀ root catalog, (skipping.documentToCatalog root).result = .ok catalog →
      Agree (skipping.documentToCatalog root) (aborting.documentToCatalog root)) ∧
    (aborting.failures = [] → ∀ catalog scripts root, (aborting.catalogToDocument catalog).converter.failures = [] ∧
      (aborting.catalogToScripts catalog).converter.failures = [] ∧
      (aborting.scriptsToCatalog scripts).converter.failures = [] ∧
      (aborting.documentToCatalog root).converter.failures = []) := by
  obtain ⟨_,tables,before⟩ := skipping
  obtain ⟨_,_,failures⟩ := aborting
  cases skips
  cases aborts
  cases alike
  refine ⟨?_,?_,?_,?_,?_⟩
  · intro catalog root ended
    obtain ⟨converted,settles⟩ := catalogToDocument_settles (catalogToDocument_returns.mp ⟨root,ended⟩)
    exact settles.agree catalogToDocument_silent
  · intro catalog scripts ended
    obtain ⟨converted,settles⟩ := catalogToScripts_settles (convertItems_returns.mp ⟨scripts,ended⟩)
    exact settles.agree convertItems_silent
  · intro scripts catalog ended
    obtain ⟨skippable,numbered⟩ := scriptsToCatalog_returns.mp ⟨catalog,ended⟩
    obtain ⟨next,converted,_,settles⟩ := scriptsToCatalog_settles skippable numbered
    exact settles.agree scriptsToCatalog_silent
  · intro root catalog ended
    have tag := documentToCatalog_root ended
    rw [documentToCatalog_tag _ tag] at ended
    obtain ⟨next,converted,_,settles⟩ := messagesToCatalog_settles (messagesToCatalog_returns.mp ⟨catalog,ended⟩)
    rw [documentToCatalog_tag _ tag,documentToCatalog_tag _ tag]
    exact settles.agree messagesToCatalog_silent
  · rintro rfl catalog scripts root
    refine ⟨catalogToDocument_silent,convertItems_silent,scriptsToCatalog_silent,?_⟩
    by_cases tag : root.tag = Document.catalogTag
    · rw [documentToCatalog_tag _ tag]
      exact messagesToCatalog_silent
    · obtain ⟨fault,same⟩ := documentToCatalog_wrong ⟨.abort,tables,[]⟩ tag
      rw [same]

theorem abort_agrees_sample : (∃ catalog,
      (Converter.documentToCatalog ⟨.skip,TableSet.sample,[]⟩ sampleDocument).result = .ok catalog) ∧
    Agree (Converter.documentToCatalog ⟨.skip,TableSet.sample,[]⟩ sampleDocument)
      (Converter.documentToCatalog ⟨.abort,TableSet.sample,[]⟩ sampleDocument) ∧
    (Converter.documentToCatalog ⟨.abort,TableSet.sample,[]⟩ sampleDocument).result =
      .error (.parse ⟨.unknownElement 1 "glow",none,some "glow"⟩) ∧
    (Converter.documentToCatalog ⟨.abort,TableSet.sample,[]⟩ sampleText).converter.failures = [] := by
  have returns : (Converter.documentToCatalog ⟨.skip,TableSet.sample,[]⟩
      sampleDocument).result.toOption.isSome = true := by decide +kernel
  obtain ⟨catalog,ended⟩ := Option.isSome_iff_exists.mp returns
  obtain ⟨_,_,_,agree,silent⟩ := @abort_agrees ⟨.skip,TableSet.sample,[]⟩ ⟨.abort,TableSet.sample,[]⟩ rfl rfl rfl
  exact ⟨⟨catalog,toOption_ok.mp ended⟩,agree _ _ (toOption_ok.mp ended),rfl,(silent rfl .empty ∅ sampleText).2.2.2⟩

end GameText.Batch
