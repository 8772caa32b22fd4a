import GameText.Proofs.Batch.Policies
import GameText.Proofs.Document.Catalog

namespace GameText.Batch
open Outcome

section
variable {tables : TableSet}

theorem convertItems_exact {κ α β : Type} {label : κ → FailureKey} {convert : κ → α → Except Fault β}
    {items : List (κ × α)} {values : List (κ × β)} :
    (convertItems .abort label convert items).result = .ok values ↔ Converts convert items values := by
  rw [convertItems_result]
  exact convertAll_exact

-- What a catalog takes: a number in its range, with bytes that end.
abbrev Storable (tables : TableSet) : Int × Bytes → Prop :=
  Catalog.Stored fun data => Catalog.endsInTerminator tables data = true

theorem storeNew_exact {catalog next : Catalog} {message : Int × Bytes} :
    storeNew tables catalog message.1 message.2 = .ok next ↔
      Storable tables message ∧ next.messages.toList = catalog.messages.toList ++ [message] := by
  rw [OrderedMap.insert_exact]
  cases present : catalog.messages.contains message.1 with
  | true => simp [storeNew,Catalog.contains,present,Document.fail]
  | false =>
    rw [storeNew_set present,Catalog.set_exact]
    constructor
    · rintro ⟨range,ends,rfl⟩
      exact ⟨⟨range,ends⟩,rfl,rfl⟩
    · rintro ⟨⟨range,ends⟩,_,same⟩
      exact ⟨range,ends,congrArg Catalog.mk same⟩

theorem storeAll_fold {store : Catalog → Int → Bytes → Except Fault Catalog} {messages : List (Int × Bytes)}
    {catalog : Catalog} {journal : Journal} : (storeAll .abort store messages catalog journal).result =
      messages.foldlM (fun catalog message => store catalog message.1 message.2) catalog := by
  induction messages generalizing catalog with
  | nil => rfl
  | cons message rest ih =>
    rw [storeAll,List.foldlM_cons]
    cases store catalog message.1 message.2 with
    | ok next => exact ih
    | error fault => rfl

theorem catalog_front {catalog : Catalog} {front back : List (Int × Bytes)}
    (split : catalog.messages.toList = front ++ back) : ∃ middle : Catalog, middle.messages.toList = front := by
  obtain ⟨middle,same⟩ := OrderedMap.front split
  exact ⟨⟨middle⟩,same⟩

theorem fold_storing {α : Type} {makes : α → Int × Bytes → Prop} {step : Catalog → α → Except Fault Catalog}
    (steps : ∀ before item after, step before item = .ok after ↔
      ∃ message, makes item message ∧ storeNew tables before message.1 message.2 = .ok after)
    {items : List α} {catalog : Catalog} :
    items.foldlM step .empty = .ok catalog ↔
      List.Forall₂ makes items catalog.messages.toList ∧ ∀ message ∈ catalog.messages.toList, Storable tables message := by
  have grows : ∀ before item after, step before item = .ok after ↔ ∃ message,
      (makes item message ∧ Storable tables message) ∧
        after.messages.toList = before.messages.toList ++ [message] := by
    intro before item after
    simp only [steps,storeNew_exact,and_assoc]
  rw [fold_each Catalog.toList_inj catalog_front grows,← each_valid]
  constructor
  · rintro ⟨added,each,whole⟩
    exact whole ▸ each
  · exact fun each => ⟨_,each,rfl⟩

theorem storeAll_exact {messages : List (Int × Bytes)} {catalog : Catalog} {journal : Journal} :
    (storeAll .abort (storeNew tables) messages .empty journal).result = .ok catalog ↔
      messages = catalog.messages.toList ∧ ∀ message ∈ catalog.messages.toList, Storable tables message := by
  have steps : ∀ (before : Catalog) (item : Int × Bytes) after, storeNew tables before item.1 item.2 = .ok after ↔
      ∃ message, item = message ∧ storeNew tables before message.1 message.2 = .ok after := by simp
  rw [storeAll_fold,fold_storing steps,List.forall₂_eq_eq_eq]

theorem documentToCatalog_exact {converter : Converter} (aborts : converter.policy = .abort) {root : Xml.Element}
    {catalog : Catalog} :
    (converter.documentToCatalog root).result = .ok catalog ↔ root.tag = Document.catalogTag ∧
      List.Forall₂ (fun element message => readElement converter.tables element = .ok message) root.children
        catalog.messages.toList ∧ ∀ message ∈ catalog.messages.toList, Storable converter.tables message := by
  by_cases tag : root.tag = Document.catalogTag
  · rw [documentToCatalog_tag _ tag,aborts]
    simp only [tag,true_and]
    constructor
    · intro ended
      obtain ⟨values,converted,stored⟩ := then_ok.mp ended
      obtain ⟨whole,storable⟩ := storeAll_exact.mp stored
      have each := converts_results.mp ⟨values,convertItems_exact.mp converted,whole⟩
      exact ⟨List.forall₂_map_left_iff.mp each,storable⟩
    · rintro ⟨each,storable⟩
      have each : List.Forall₂ (fun item message => elementBytes converter.tables item.1 item.2 = .ok message)
          (keyed root.children) catalog.messages.toList := List.forall₂_map_left_iff.mpr each
      obtain ⟨values,converts,whole⟩ := converts_results.mpr each
      exact then_ok.mpr ⟨values,convertItems_exact.mpr converts,storeAll_exact.mpr ⟨whole,storable⟩⟩
  · simp only [tag,false_and,iff_false]
    exact fun ended => tag (documentToCatalog_root ended)

theorem encodeAll_new {messages : List (Int × List Entry)} {start : Catalog}
    (distinct : (start.messages.toList.map Prod.fst ++ messages.map Prod.fst).Nodup) :
    messages.foldlM (fun catalog message => do
        let data ← Wire.encode tables message.2
        catalog.set tables message.1 data) start =
      messages.foldlM (fun catalog message => do
        let data ← Wire.encode tables message.2
        storeNew tables catalog message.1 data) start := by
  induction messages generalizing start with
  | nil => rfl
  | cons message rest ih =>
    have absent : start.messages.contains message.1 = false := OrderedMap.contains_distinct distinct
    rw [List.foldlM_cons,List.foldlM_cons]
    simp only [storeNew_set absent]
    cases stepped : Wire.encode tables message.2 >>= start.set tables message.1 with
    | error fault => rfl
    | ok next =>
      refine ih ?_
      obtain ⟨data,_,stored⟩ := bind_ok.mp stepped
      obtain ⟨_,_,rfl⟩ := Catalog.set_exact.mp stored
      rw [OrderedMap.insert_absent absent,List.map_append,List.append_assoc]
      exact distinct

theorem encodeAll_exact {messages : OrderedMap Int (List Entry)} {catalog : Catalog} :
    Catalog.encodeAll tables messages = .ok catalog ↔
      Converts (fun _ entries => Wire.encode tables entries) messages.toList catalog.messages.toList ∧
        ∀ message ∈ catalog.messages.toList, Storable tables message := by
  have new : (Catalog.empty.messages.toList.map Prod.fst ++ messages.toList.map Prod.fst).Nodup := messages.distinct
  unfold Catalog.encodeAll
  rw [encodeAll_new new]
  exact fold_storing fun before message after => @keyed_ok _ _ _ _ _ message.1 (storeNew tables before) after

theorem readElement_exact {element : Xml.Element} {stored : Int × Bytes} :
    readElement tables element = .ok stored ↔ ∃ message, Document.deserialize tables element = .ok message ∧
      stored.1 = message.1 ∧ Wire.encode tables message.2 = .ok stored.2 := by
  unfold readElement elementBytes
  rw [bind_ok]
  exact exists_congr fun message => and_congr_right fun _ => pair_ok

theorem encodeAll_document {root : Xml.Element} {catalog : Catalog} :
    (Document.deserializeCatalog tables root >>= Catalog.encodeAll tables) = .ok catalog ↔
      root.tag = Document.catalogTag ∧
        List.Forall₂ (fun element message => readElement tables element = .ok message) root.children
          catalog.messages.toList ∧ ∀ message ∈ catalog.messages.toList, Storable tables message := by
  simp only [bind_ok,Document.deserializeCatalog_exact,encodeAll_exact,readElement_exact,each_comp]
  constructor
  · rintro ⟨messages,⟨tag,read⟩,encoded,storable⟩
    exact ⟨tag,⟨_,read,encoded⟩,storable⟩
  · rintro ⟨tag,⟨messages,read,encoded⟩,storable⟩
    have converts : Converts (fun _ entries => Wire.encode tables entries) messages catalog.messages.toList := encoded
    have distinct : (messages.map Prod.fst).Nodup := converts_keys converts ▸ catalog.messages.distinct
    exact ⟨⟨messages,distinct⟩,⟨tag,read⟩,encoded,storable⟩

theorem catalogToDocument_exact {converter : Converter} (aborts : converter.policy = .abort) {catalog : Catalog}
    {root : Xml.Element} :
    (converter.catalogToDocument catalog).result = .ok root ↔ ∃ elements,
      List.Forall₂ (fun message element => messageElement converter.tables message.1 message.2 = .ok element)
        catalog.messages.toList elements ∧ Document.catalogElement elements = root := by
  unfold Converter.catalogToDocument catalogToDocument Converter.finish
  simp only [aborts,then_ok,convertItems_exact,← converts_results]
  constructor
  · rintro ⟨values,converts,same⟩
    exact ⟨_,⟨values,converts,rfl⟩,Except.ok.inj same⟩
  · rintro ⟨_,⟨values,converts,rfl⟩,rfl⟩
    exact ⟨values,converts,rfl⟩

theorem decodeAll_exact {catalog : Catalog} {messages : List (Int × List Entry)} :
    catalog.decodeAll tables = .ok messages ↔
      Converts (fun _ data => Wire.decode tables data) catalog.messages.toList messages := by
  unfold Catalog.decodeAll
  rw [mapM_each]
  simp only [pair_ok]

theorem serializeCatalog_exact {messages : OrderedMap Int (List Entry)} {root : Xml.Element} :
    Document.serializeCatalog tables messages = .ok root ↔ ∃ elements,
      List.Forall₂ (fun message element => Document.serialize tables message.1 message.2 = .ok element)
        messages.toList elements ∧ Document.catalogElement elements = root := by
  unfold Document.serializeCatalog
  simp [mapM_each]

theorem messageElement_exact {message : Int × Bytes} {element : Xml.Element} :
    messageElement tables message.1 message.2 = .ok element ↔ ∃ made : Int × List Entry,
      (made.1 = message.1 ∧ Wire.decode tables message.2 = .ok made.2) ∧
        Document.serialize tables made.1 made.2 = .ok element := by
  unfold messageElement
  exact keyed_ok

theorem serializeCatalog_messages {catalog : Catalog} {root : Xml.Element} :
    (catalog.decodeAll tables >>= fun messages => Document.serializeCatalog tables (.ofList messages)) = .ok root ↔
      ∃ elements, List.Forall₂ (fun message element => messageElement tables message.1 message.2 = .ok element)
        catalog.messages.toList elements ∧ Document.catalogElement elements = root := by
  simp only [bind_ok,decodeAll_exact,serializeCatalog_exact,messageElement_exact,each_comp]
  constructor
  · rintro ⟨messages,decoded,elements,written,same⟩
    rw [OrderedMap.ofList_distinct (converts_keys decoded ▸ catalog.messages.distinct)] at written
    exact ⟨elements,⟨messages,decoded,written⟩,same⟩
  · rintro ⟨elements,⟨messages,decoded,written⟩,same⟩
    have converts : Converts (fun _ data => Wire.decode tables data) catalog.messages.toList messages := decoded
    refine ⟨messages,converts,elements,?_,same⟩
    rwa [OrderedMap.ofList_distinct (converts_keys converts ▸ catalog.messages.distinct)]

end

-- Without skipping, a batch does what the codec does in two goes over all messages: it ends
-- with a result in the same cases, and with the same.
theorem direct_agrees {converter : Converter} (aborts : converter.policy = .abort) :
    (∀ root catalog, (converter.documentToCatalog root).result = .ok catalog ↔
      (Document.deserializeCatalog converter.tables root >>= Catalog.encodeAll converter.tables) = .ok catalog) ∧
    ∀ catalog root, (converter.catalogToDocument catalog).result = .ok root ↔
      (catalog.decodeAll converter.tables >>= fun messages =>
        Document.serializeCatalog converter.tables (.ofList messages)) = .ok root :=
  ⟨fun _ _ => (documentToCatalog_exact aborts).trans encodeAll_document.symm,
    fun _ _ => (catalogToDocument_exact aborts).trans serializeCatalog_messages.symm⟩

-- Two messages under numerals that differ from those a document is written with.
def sampleNumerals : Xml.Element :=
  Document.catalogElement [sampleMessage " 2" sampleText,sampleMessage "01" (.leaf "reset" [])]

def sampleStored : Catalog := ⟨⟨[(2,[0x61,0x00]),(1,[0x03,0x00])],by decide⟩⟩

theorem direct_agrees_sample :
    (Document.deserializeCatalog TableSet.sample sampleNumerals >>= Catalog.encodeAll TableSet.sample) =
      .ok sampleStored ∧
    (sampleStored.decodeAll TableSet.sample >>= fun messages =>
        Document.serializeCatalog TableSet.sample (.ofList messages)) =
      .ok (Document.catalogElement [sampleMessage "2" sampleText,sampleMessage "1" (.leaf "reset" [])]) ∧
    ∀ catalog, (Document.deserializeCatalog TableSet.sample sampleDocument >>= Catalog.encodeAll TableSet.sample) ≠
      .ok catalog := by
  obtain ⟨imports,exports⟩ := @direct_agrees ⟨.abort,TableSet.sample,[]⟩ rfl
  have numerals : Text.intText 2 = "2" ∧ Text.intText 1 = "1" := by decide +kernel
  have text : messageElement TableSet.sample 2 [0x61,0x00] = .ok (sampleMessage "2" sampleText) := by
    rw [← numerals.1]
    exact bind_ok.mpr ⟨[.text "a"],by decide +kernel,rfl⟩
  have reset : messageElement TableSet.sample 1 [0x03,0x00] = .ok (sampleMessage "1" (.leaf "reset" [])) := by
    rw [← numerals.2]
    exact bind_ok.mpr ⟨[.bare .reset rfl],by decide +kernel,rfl⟩
  have exported := (@catalogToDocument_exact ⟨.abort,TableSet.sample,[]⟩ rfl sampleStored _).mpr
    ⟨_,.cons text (.cons reset .nil),rfl⟩
  refine ⟨(imports _ _).mp rfl,(exports _ _).mp exported,fun catalog ended => ?_⟩
  have failed : (Converter.documentToCatalog ⟨.abort,TableSet.sample,[]⟩ sampleDocument).result =
      .error (.parse ⟨.unknownElement 1 "glow",none,some "glow"⟩) := rfl
  cases failed.symm.trans ((imports _ _).mpr ended)

end GameText.Batch
