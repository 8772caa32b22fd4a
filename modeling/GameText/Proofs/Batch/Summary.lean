import GameText.Proofs.Batch.Policies
import GameText.Proofs.Tables.Packaged

namespace GameText.Batch
open Fate Outcome Text

-- The lines that a conversion writes: one for a failure, and one for its end.
def noteLine (failure : FailureKey × Fault) : LogLine :=
  ⟨.warning,"Skipping message " ++ failure.1.text ++ ": " ++ failure.2.message⟩

def summaryLine (converted skipped : Nat) : LogLine :=
  ⟨.info,"Converted " ++ natText converted ++ " messages" ++
    (if skipped = 0 then "" else ", skipped " ++ natText skipped)⟩

theorem summaryLine_converted {converted skipped other more : Nat}
    (same : summaryLine converted skipped = summaryLine other more) : converted = other := by
  have begins : ∀ converted skipped,
      ((summaryLine converted skipped).message.toList.drop "Converted ".toList.length).takeWhile isAsciiDigit =
        digits converted := by
    intro converted skipped
    have split : ∀ tail : String, ("Converted " ++ natText converted ++ " messages" ++ tail).toList =
        "Converted ".toList ++ (digits converted ++ ' ' :: ("messages".toList ++ tail.toList)) := by
      intro tail
      simp [natText]
    rw [summaryLine,split,List.drop_left,digits_cut (by decide)]
  rw [← digitsValue_digits converted,← digitsValue_digits other,← begins converted skipped,← begins other more,same]

-- What a log says of a conversion: a warning for each failure, and one summary, which counts
-- the latest failures among the messages that were kept.
structure Told (kept late : Nat) (failures : List (FailureKey × Fault)) (log : Log) : Prop where
  warnings : log.filter (fun line => line.level = .warning) = failures.map noteLine
  summary : log.filter (fun line => line.level = .info) = [summaryLine (kept + late) (failures.length - late)]

theorem Told.exact {kept late : Nat} {failures : List (FailureKey × Fault)} {log : Log}
    (told : Told kept late failures log) : Told kept 0 failures log ↔ late = 0 := by
  constructor
  · intro truly
    have same := summaryLine_converted (List.singleton_inj.mp (told.summary.symm.trans truly.summary))
    omega
  · rintro rfl
    exact told

theorem notes_filter (failures : List (FailureKey × Fault)) :
    (failures.map noteLine).filter (fun line => line.level = .warning) = failures.map noteLine ∧
      (failures.map noteLine).filter (fun line => line.level = .info) = [] :=
  ⟨List.filter_eq_self.mpr (List.forall_mem_map.mpr fun _ _ => rfl),
    List.filter_eq_nil_iff.mpr (List.forall_mem_map.mpr fun _ _ => by simp [noteLine])⟩

theorem summary_log (journal : Journal) (converted : Nat) :
    (journal.summary converted).log = journal.log ++ [summaryLine converted journal.failures.length] := rfl

theorem noting_log (journal : Journal) (failures : List (FailureKey × Fault)) :
    (journal.noting failures).log = journal.log ++ failures.map noteLine := by
  induction failures generalizing journal with
  | nil => exact (List.append_nil _).symm
  | cons failure rest ih =>
    change ((journal.skip failure.1 failure.2).noting rest).log = _
    rw [ih]
    exact List.append_assoc _ _ _

theorem Settles.told {α β : Type} {run : Policy → Run α} {result : α} {fates : List (Fate β)} {converted : Nat}
    (settles : Settles run result fates converted) :
    Told (values fates).length (objections fates).length (run .skip).journal.failures (run .skip).journal.log := by
  have count : converted = (values fates).length + (objections fates).length := by
    have all := tally fates
    have counted := settles.counted
    rw [failures,List.length_append] at all
    omega
  have log : (run .skip).journal.log = (refusals fates).map noteLine ++
      summaryLine converted (refusals fates).length :: (objections fates).map noteLine := by
    rw [settles.skips,noting_log,summary_log,noting_log,Journal.noting_failures,List.append_assoc]
    rfl
  rw [settles.noted.2,failures,log,count]
  constructor
  · rw [List.filter_append,List.filter_cons_of_neg (by simp [summaryLine]),(notes_filter _).1,(notes_filter _).1,
      List.map_append]
  · rw [List.filter_append,List.filter_cons_of_pos (by simp [summaryLine]),(notes_filter _).2,(notes_filter _).2,
      List.length_append,Nat.add_sub_cancel]
    rfl

theorem messageFate_objection {taken : List Int} {message : Int × Bytes} :
    (messageFate taken message).objection? = none ↔ (0 ≤ message.1 ∧ message.1 < 2 ^ 32) ∧ message.1 ∉ taken := by
  unfold messageFate
  split
  · rename_i range
    split
    · rename_i present
      exact ⟨nofun,fun new => absurd present new.2⟩
    · rename_i absent
      exact ⟨fun _ => ⟨range,absent⟩,fun _ => rfl⟩
  · rename_i outside
    exact ⟨nofun,fun new => absurd new.1 outside⟩

theorem storing_objections {taken : List Int} {first : List (Fate (Int × Bytes))} (unheard : objections first = []) :
    objections (storing taken first) = [] ↔
      (∀ message ∈ values first, (0 ≤ message.1 ∧ message.1 < 2 ^ 32) ∧ message.1 ∉ taken) ∧
        ((values first).map Prod.fst).Nodup := by
  induction first generalizing taken with
  | nil => exact ⟨fun _ => ⟨List.forall_mem_nil _,List.nodup_nil⟩,fun _ => rfl⟩
  | cons fate rest ih =>
    cases fate with
    | refused failure => exact ih unheard
    | unstored failure => cases unheard
    | kept message =>
      have later := @ih (taken ++ [message.1]) unheard
      rw [objections,List.filterMap_eq_nil_iff] at later ⊢
      rw [storing,List.forall_mem_cons,messageFate_objection,later,values_kept,List.forall_mem_cons,List.map_cons,
        List.nodup_cons]
      simp only [List.mem_append,List.mem_singleton,List.mem_map]
      grind

theorem scripts_objections {tables : TableSet} {items : List (Int × String)} :
    objections (items.map (scriptFate tables)) = [] ↔
      ∀ item ∈ items, ∀ data, scriptBytes tables item.1 item.2 = .ok data → 0 ≤ item.1 ∧ item.1 < 2 ^ 32 := by
  unfold objections
  rw [List.filterMap_eq_nil_iff,List.forall_mem_map]
  refine forall₂_congr fun item _ => ?_
  unfold scriptFate
  cases scriptBytes tables item.1 item.2 with
  | ok data => simp [messageFate_objection]
  | error fault => simp [objection?]

theorem read_numbers {tables : TableSet} (elements : List Xml.Element) :
    (values ((fates .raw (elementBytes tables) (keyed elements)).map (Fate.map Prod.snd))).map Prod.fst =
      elements.filterMap (number? tables) := by
  simp only [values,fates,keyed,List.map_map,List.filterMap_map,List.map_filterMap]
  refine List.filterMap_congr fun element _ => ?_
  simp only [Function.comp_apply,itemFate,number?,readElement]
  cases elementBytes tables (element.get? Document.idName) element <;> rfl

theorem document_objections {tables : TableSet} {elements : List Xml.Element} :
    objections (documentFates tables elements) = [] ↔
      (∀ id ∈ elements.filterMap (number? tables), 0 ≤ id ∧ id < 2 ^ 32) ∧
        (elements.filterMap (number? tables)).Nodup := by
  have unheard := (objections_map Prod.snd _).trans (@fates_objections _ _ _ .raw (elementBytes tables) (keyed elements))
  rw [← storing_document,storing_objections unheard,← read_numbers,List.forall_mem_map]
  simp

theorem element_objections {tables : TableSet} (messages : List (Int × Bytes)) :
    objections (elementFates tables messages) = [] := by
  rw [elementFates_whole,objections_map,fates_objections]

-- The log of a conversion that skips. An export counts what it returns and what it skipped.
-- An import counts before it stores, so that its summary is right just where every number
-- that was converted has a place and, in a document, is new.
theorem skip_logs {converter : Converter} (skips : converter.policy = .skip) :
    (∀ catalog root, (converter.catalogToDocument catalog).result = .ok root →
      Told root.children.length 0 (converter.catalogToDocument catalog).converter.failures
        (converter.catalogToDocument catalog).log) ∧
    (∀ catalog scripts, (converter.catalogToScripts catalog).result = .ok scripts →
      Told scripts.length 0 (converter.catalogToScripts catalog).converter.failures
        (converter.catalogToScripts catalog).log) ∧
    (∀ scripts catalog, (converter.scriptsToCatalog scripts).result = .ok catalog →
      Told catalog.size (objections (scripts.toList.map (scriptFate converter.tables))).length
        (converter.scriptsToCatalog scripts).converter.failures (converter.scriptsToCatalog scripts).log ∧
      (Told catalog.size 0 (converter.scriptsToCatalog scripts).converter.failures
          (converter.scriptsToCatalog scripts).log ↔
        ∀ item ∈ scripts.toList, ∀ data, scriptBytes converter.tables item.1 item.2 = .ok data →
          0 ≤ item.1 ∧ item.1 < 2 ^ 32)) ∧
    ∀ root catalog, (converter.documentToCatalog root).result = .ok catalog →
      Told catalog.size (objections (documentFates converter.tables root.children)).length
        (converter.documentToCatalog root).converter.failures (converter.documentToCatalog root).log ∧
      (Told catalog.size 0 (converter.documentToCatalog root).converter.failures
          (converter.documentToCatalog root).log ↔
        (∀ id ∈ root.children.filterMap (number? converter.tables), 0 ≤ id ∧ id < 2 ^ 32) ∧
          (root.children.filterMap (number? converter.tables)).Nodup) := by
  obtain ⟨policy,tables,before⟩ := converter
  cases skips
  refine ⟨?_,?_,?_,?_⟩
  · intro catalog root ended
    obtain ⟨converted,settles⟩ := catalogToDocument_settles (catalogToDocument_returns.mp ⟨root,ended⟩)
    have told := settles.told
    rw [element_objections] at told
    rw [settles.ended ended]
    exact told
  · intro catalog scripts ended
    obtain ⟨converted,settles⟩ := catalogToScripts_settles (convertItems_returns.mp ⟨scripts,ended⟩)
    have told := settles.told
    rw [textFates,← fates,fates_objections] at told
    rw [settles.ended ended]
    exact told
  · intro scripts catalog ended
    obtain ⟨skippable,numbered⟩ := scriptsToCatalog_returns.mp ⟨catalog,ended⟩
    obtain ⟨next,converted,stored,settles⟩ := scriptsToCatalog_settles skippable numbered
    have told := settles.told
    rw [← stored,← settles.ended ended] at told
    exact ⟨told,told.exact.trans (List.length_eq_zero_iff.trans scripts_objections)⟩
  · intro root catalog ended
    have tag := documentToCatalog_root ended
    rw [documentToCatalog_tag _ tag] at ended ⊢
    obtain ⟨next,converted,stored,settles⟩ := messagesToCatalog_settles (messagesToCatalog_returns.mp ⟨catalog,ended⟩)
    have told := settles.told
    rw [← stored,← settles.ended ended] at told
    exact ⟨told,told.exact.trans (List.length_eq_zero_iff.trans document_objections)⟩

theorem skip_logs_sample : ∃ catalog,
    (Converter.documentToCatalog ⟨.skip,TableSet.sample,[]⟩ sampleDocument).result = .ok catalog ∧ catalog.size = 1 ∧
      Told 1 2 sampleFailures (Converter.documentToCatalog ⟨.skip,TableSet.sample,[]⟩ sampleDocument).log ∧
      ¬ Told 1 0 sampleFailures (Converter.documentToCatalog ⟨.skip,TableSet.sample,[]⟩ sampleDocument).log := by
  have stored : (Converter.documentToCatalog ⟨.skip,TableSet.sample,[]⟩ sampleDocument).result.toOption.map
      Catalog.size = some 1 := by decide +kernel
  obtain ⟨catalog,ended,size⟩ := Option.map_eq_some_iff.mp stored
  have filed : (Converter.documentToCatalog ⟨.skip,TableSet.sample,[]⟩ sampleDocument).converter.failures =
      sampleFailures := by decide +kernel
  have late : (objections (documentFates TableSet.sample sampleDocument.children)).length = 2 := by decide +kernel
  have told := ((skip_logs rfl).2.2.2 _ _ (toOption_ok.mp ended)).1
  rw [size,filed] at told
  have told : Told 1 2 sampleFailures _ := late ▸ told
  exact ⟨catalog,toOption_ok.mp ended,size,told,fun truly => absurd (told.exact.mp truly) (by decide)⟩

-- A document with the same empty message twice.
def sampleTwice : Xml.Element :=
  Document.catalogElement (List.replicate 2 ⟨Document.messageTag,[(Document.idName,"1")],none,none,[]⟩)

theorem skip_logs_twice :
    ¬ ∀ converter : Converter, converter.policy = .skip → ∀ root catalog,
      (converter.documentToCatalog root).result = .ok catalog →
        Told catalog.size 0 (converter.documentToCatalog root).converter.failures
          (converter.documentToCatalog root).log := by
  intro law
  have stored : (Converter.documentToCatalog ⟨.skip,Packaged.set,[]⟩ sampleTwice).result.toOption.map
      Catalog.size = some 1 := by decide +kernel
  obtain ⟨catalog,ended,size⟩ := Option.map_eq_some_iff.mp stored
  have told := (law ⟨.skip,Packaged.set,[]⟩ rfl _ _ (toOption_ok.mp ended)).summary
  have counted : (Converter.documentToCatalog ⟨.skip,Packaged.set,[]⟩ sampleTwice).log.filter
      (fun line => line.level = .info) = [summaryLine 2 0] := by decide +kernel
  have same := summaryLine_converted (List.singleton_inj.mp (counted.symm.trans told))
  omega

end GameText.Batch
