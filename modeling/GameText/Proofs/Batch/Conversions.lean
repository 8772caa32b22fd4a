import GameText.Proofs.Batch.Storing

namespace GameText.Batch
open Fate Outcome

section
variable (tables : TableSet)

-- The fates of the items of each conversion. Messages and scripts have distinct numbers
-- and are looked at alone.
def elementFates (messages : List (Int × Bytes)) : List (Fate Xml.Element) :=
  messages.map fun message => (itemFate .number (messageElement tables) message).map Prod.snd

def textFates (messages : List (Int × Bytes)) : List (Fate (Int × String)) :=
  messages.map (itemFate .number (messageText tables))

def scriptFate (item : Int × String) : Fate (Int × Bytes) :=
  match scriptBytes tables item.1 item.2 with
  | .ok data => messageFate [] (item.1,data)
  | .error fault => .refused (.number item.1,fault)

-- Elements of a document are looked at beside the numbers of the earlier ones that convert.
def readElement (element : Xml.Element) : Except Fault (Int × Bytes) :=
  elementBytes tables (element.get? Document.idName) element

def number? (element : Xml.Element) : Option Int := (readElement tables element).toOption.map Prod.fst

def documentFate (earlier : List Xml.Element) (element : Xml.Element) : Fate (Int × Bytes) :=
  match readElement tables element with
  | .ok message => messageFate (earlier.filterMap (number? tables)) message
  | .error fault => .refused (.raw (element.get? Document.idName),fault)

def documentFates (elements : List Xml.Element) : List (Fate (Int × Bytes)) :=
  elements.mapIdx fun place element => documentFate tables (elements.take place) element

end

section
variable {tables : TableSet}

theorem storing_scripts {items : List (Int × String)} {taken : List Int}
    (distinct : (taken ++ items.map Prod.fst).Nodup) :
    storing taken (fates .number (scriptBytes tables) items) = items.map (scriptFate tables) := by
  induction items generalizing taken with
  | nil => rfl
  | cons item rest ih =>
    have absent : item.1 ∉ taken := by
      intro present
      exact (List.nodup_append.mp distinct).2.2 _ present _ List.mem_cons_self rfl
    cases converted : scriptBytes tables item.1 item.2 with
    | ok data =>
      have later := @ih (taken ++ [item.1]) (by rwa [List.append_assoc])
      have alone : messageFate taken (item.1,data) = messageFate [] (item.1,data) := by
        simp [messageFate,absent]
      simp only [fates,List.map_cons,itemFate,scriptFate,converted,storing,alone] at later ⊢
      rw [← later]
    | error fault =>
      have fewer : (taken ++ rest.map Prod.fst).Nodup :=
        distinct.sublist ((List.Sublist.refl _).append (List.sublist_cons_self _ _))
      simp only [fates,List.map_cons,itemFate,scriptFate,converted]
      exact congrArg (_ :: ·) (ih fewer)

def keyed (elements : List Xml.Element) : List (Option String × Xml.Element) :=
  elements.map fun element => (element.get? Document.idName,element)

theorem storing_elements (earlier elements : List Xml.Element) :
    storing (earlier.filterMap (number? tables))
        ((fates .raw (elementBytes tables) (keyed elements)).map (Fate.map Prod.snd)) =
      elements.mapIdx fun place element => documentFate tables (earlier ++ elements.take place) element := by
  induction elements generalizing earlier with
  | nil => rfl
  | cons element rest ih =>
    have later := ih (earlier ++ [element])
    simp only [List.append_assoc,List.singleton_append] at later
    rw [List.mapIdx_cons,List.take_zero,List.append_nil]
    simp only [List.take_succ_cons,← later,List.filterMap_append,List.filterMap_cons,List.filterMap_nil,number?]
    simp only [keyed,fates,List.map_cons,itemFate,documentFate,readElement]
    cases elementBytes tables (element.get? Document.idName) element with
    | ok message => rfl
    | error fault =>
      simp only [Except.toOption,Option.map_none,List.append_nil]
      rfl

theorem storing_document (elements : List Xml.Element) :
    storing [] ((fates .raw (elementBytes tables) (keyed elements)).map (Fate.map Prod.snd)) =
      documentFates tables elements :=
  storing_elements [] elements

theorem scriptBytes_ends {id : Int} {script : String} {data : Bytes} (made : scriptBytes tables id script = .ok data) :
    Catalog.endsInTerminator tables data = true := by
  obtain ⟨entries,_,encoded⟩ := bind_ok.mp made
  exact Catalog.ends_exact.mpr (Wire.encodeFrom_ends encoded)

theorem readId_numbered {element : Xml.Element} {id : Int} (read : Document.readId element = .ok id) :
    Text.hasNumeral id = true := by
  unfold Document.readId at read
  split at read
  · cases read
  · split at read
    · unfold Document.numeral at read
      split at read
      · cases read
      · rename_i value found
        cases read
        exact Text.hasNumeral_read found
    · cases read

theorem elementBytes_stored {key : Option String} {element : Xml.Element} {message : Int × Bytes}
    (made : elementBytes tables key element = .ok message) :
    Catalog.endsInTerminator tables message.2 = true ∧ Text.hasNumeral message.1 = true := by
  obtain ⟨⟨id,entries⟩,read,made⟩ := bind_ok.mp made
  obtain ⟨data,encoded,made⟩ := bind_ok.mp made
  cases made
  obtain ⟨_,_,read⟩ := bind_ok.mp read
  obtain ⟨other,numbered,read⟩ := bind_ok.mp read
  obtain ⟨_,_,made⟩ := bind_ok.mp read
  cases made
  exact ⟨Catalog.ends_exact.mpr (Wire.encodeFrom_ends encoded),readId_numbered numbered⟩

theorem elementFates_whole (tables : TableSet) (messages : List (Int × Bytes)) : elementFates tables messages =
    (fates .number (messageElement tables) messages).map (Fate.map Prod.snd) := by
  simp [elementFates,fates]

theorem catalogToScripts_settles {catalog : Catalog}
    (skippable : ∀ message ∈ catalog.messages.toList, Skippable .number (messageText tables) message) :
    ∃ converted, Settles (fun policy => catalogToScripts policy tables catalog)
      (values (textFates tables catalog.messages.toList)) (textFates tables catalog.messages.toList) converted :=
  ⟨_,convertItems_settles skippable⟩

theorem catalogToDocument_settles {catalog : Catalog}
    (skippable : ∀ message ∈ catalog.messages.toList, Skippable .number (messageElement tables) message) :
    ∃ converted, Settles (fun policy => catalogToDocument policy tables catalog)
      (Document.catalogElement (values (elementFates tables catalog.messages.toList)))
      (elementFates tables catalog.messages.toList) converted := by
  have nothing := @fates_objections _ _ _ .number (messageElement tables) catalog.messages.toList
  rw [elementFates_whole,values_map]
  refine ⟨_,(convertItems_settles skippable).then nothing (refusals_map _ _) (List.length_map _) ?_ ?_⟩
  · intro journal
    rw [objections_map,nothing]
    rfl
  · intro journal
    rw [objections_map,nothing]
    rfl

theorem converted_ends {items : List (Int × String)} :
    ∀ message ∈ values (fates .number (scriptBytes tables) items), Catalog.endsInTerminator tables message.2 = true := by
  intro message member
  obtain ⟨item,_,_,made⟩ := fates_value.mp member
  exact scriptBytes_ends made

theorem converted_distinct (tables : TableSet) (scripts : OrderedMap Int String) :
    ((values (fates .number (scriptBytes tables) scripts.toList)).map Prod.fst).Nodup :=
  scripts.distinct.sublist fates_keys

theorem scriptsToCatalog_settles {scripts : OrderedMap Int String}
    (skippable : ∀ item ∈ scripts.toList, Skippable .number (scriptBytes tables) item)
    (numbered : ∀ item ∈ scripts.toList, Text.hasNumeral item.1 = true) :
    ∃ catalog converted, catalog.messages.toList = values (scripts.toList.map (scriptFate tables)) ∧
      Settles (fun policy => scriptsToCatalog policy tables scripts) catalog
        (scripts.toList.map (scriptFate tables)) converted := by
  have nothing := @fates_objections _ _ _ .number (scriptBytes tables) scripts.toList
  have named : ∀ message ∈ values (fates .number (scriptBytes tables) scripts.toList),
      Text.hasNumeral message.1 = true := by
    intro message member
    obtain ⟨item,present,same,_⟩ := fates_value.mp member
    exact same ▸ numbered item present
  obtain ⟨catalog,stored,skips,stops⟩ := storeAll_fates nothing converted_ends named empty_holds
  rw [storing_scripts scripts.distinct] at stored skips stops
  have same := fun policy => @storeAll_distinct tables policy _ .empty (converted_distinct tables scripts)
  refine ⟨catalog,_,stored,(convertItems_settles skippable).then nothing ?_ (by simp [fates]) ?_ ?_⟩
  · rw [← @storing_scripts tables _ [] scripts.distinct,storing_refusals]
  · intro journal
    exact (same .skip journal).trans (skips journal)
  · intro journal
    exact (same .abort journal).trans (stops journal)

theorem messagesToCatalog_settles {elements : List Xml.Element}
    (skippable : ∀ item ∈ keyed elements, Skippable .raw (elementBytes tables) item) :
    ∃ catalog converted, catalog.messages.toList = values (documentFates tables elements) ∧
      Settles (fun policy => messagesToCatalog policy tables elements) catalog (documentFates tables elements)
        converted := by
  have nothing := @fates_objections _ _ _ .raw (elementBytes tables) (keyed elements)
  have each : ∀ message ∈ values ((fates .raw (elementBytes tables) (keyed elements)).map (Fate.map Prod.snd)),
      Catalog.endsInTerminator tables message.2 = true ∧ Text.hasNumeral message.1 = true := by
    intro message member
    rw [values_map] at member
    obtain ⟨value,inside,rfl⟩ := List.mem_map.mp member
    obtain ⟨item,_,_,made⟩ := fates_value.mp inside
    exact elementBytes_stored made
  obtain ⟨catalog,stored,skips,stops⟩ := storeAll_fates ((objections_map _ _).trans nothing)
    (fun message member => (each message member).1) (fun message member => (each message member).2) empty_holds
  rw [storing_document] at stored skips stops
  rw [values_map] at skips stops
  refine ⟨catalog,_,stored,(convertItems_settles skippable).then nothing ?_ ?_ skips stops⟩
  · rw [← storing_document,storing_refusals,refusals_map]
  · simp [documentFates,fates,keyed]

theorem catalogToDocument_returns {catalog : Catalog} :
    (∃ root, (catalogToDocument .skip tables catalog).result = .ok root) ↔
      ∀ message ∈ catalog.messages.toList, Skippable .number (messageElement tables) message := by
  rw [← convertItems_returns]
  constructor
  · rintro ⟨root,ended⟩
    obtain ⟨values,first,_⟩ := then_ok.mp ended
    exact ⟨values,first⟩
  · rintro ⟨values,first⟩
    exact ⟨_,then_ok.mpr ⟨values,first,rfl⟩⟩

theorem scriptsToCatalog_returns {scripts : OrderedMap Int String} :
    (∃ catalog, (scriptsToCatalog .skip tables scripts).result = .ok catalog) ↔
      (∀ item ∈ scripts.toList, Skippable .number (scriptBytes tables) item) ∧
        ∀ item ∈ scripts.toList, Text.hasNumeral item.1 = true := by
  constructor
  · rintro ⟨catalog,ended⟩
    obtain ⟨converted,first,second⟩ := then_ok.mp ended
    have skippable := convertItems_returns.mp ⟨converted,first⟩
    obtain ⟨settled,_⟩ := (convertItems_settles skippable).noted
    cases Except.ok.inj (first.symm.trans settled)
    rw [storeAll_distinct (converted_distinct tables scripts)] at second
    have stored := (storeAll_returns (fates_objections _) converted_ends empty_holds).mp ⟨catalog,second⟩
    refine ⟨skippable,?_⟩
    intro item present
    cases converted : scriptBytes tables item.1 item.2 with
    | ok data => exact stored (item.1,data) (fates_value.mpr ⟨item,present,rfl,converted⟩)
    | error fault => exact (skippable item present fault converted).2
  · rintro ⟨skippable,numbered⟩
    obtain ⟨catalog,_,_,settles⟩ := scriptsToCatalog_settles skippable numbered
    exact ⟨catalog,settles.noted.1⟩

theorem messagesToCatalog_returns {elements : List Xml.Element} :
    (∃ catalog, (messagesToCatalog .skip tables elements).result = .ok catalog) ↔
      ∀ item ∈ keyed elements, Skippable .raw (elementBytes tables) item := by
  constructor
  · rintro ⟨catalog,ended⟩
    obtain ⟨converted,first,_⟩ := then_ok.mp ended
    exact convertItems_returns.mp ⟨converted,first⟩
  · intro skippable
    obtain ⟨catalog,_,_,settles⟩ := messagesToCatalog_settles skippable
    exact ⟨catalog,settles.noted.1⟩

theorem catalogToDocument_silent {catalog : Catalog} :
    (catalogToDocument .abort tables catalog).journal.failures = [] :=
  then_silent convertItems_silent fun _ _ => rfl

theorem scriptsToCatalog_silent {scripts : OrderedMap Int String} :
    (scriptsToCatalog .abort tables scripts).journal.failures = [] :=
  then_silent convertItems_silent fun _ _ => storeAll_silent

theorem messagesToCatalog_silent {elements : List Xml.Element} :
    (messagesToCatalog .abort tables elements).journal.failures = [] :=
  then_silent convertItems_silent fun _ _ => storeAll_silent

theorem documentToCatalog_tag (converter : Converter) {root : Xml.Element} (tag : root.tag = Document.catalogTag) :
    converter.documentToCatalog root =
      converter.finish (messagesToCatalog converter.policy converter.tables root.children) := by
  simp [Converter.documentToCatalog,Document.expectTag,tag]

theorem documentToCatalog_wrong (converter : Converter) {root : Xml.Element} (wrong : root.tag ≠ Document.catalogTag) :
    ∃ fault, converter.documentToCatalog root = ⟨.error fault,converter,[]⟩ := by
  simp [Converter.documentToCatalog,Document.expectTag,wrong,Document.fail]

theorem documentToCatalog_root {converter : Converter} {root : Xml.Element} {catalog : Catalog}
    (ended : (converter.documentToCatalog root).result = .ok catalog) : root.tag = Document.catalogTag := by
  by_contra wrong
  obtain ⟨fault,same⟩ := documentToCatalog_wrong converter wrong
  rw [same] at ended
  cases ended

end

end GameText.Batch
