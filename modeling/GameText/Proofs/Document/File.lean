import GameText.Proofs.Document.RoundTrip
import GameText.Proofs.OrderedMap
import GameText.Proofs.Tables.Packaged
import GameText.Proofs.Xml.File

namespace GameText.Document
open Outcome Text Xml
open Script (Identifier)

-- Tables whose names and symbols are written in a document as they are.
structure Printable (tables : TableSet) : Prop where
  names : ∀ row ∈ tables.commands.rows, ∀ name ∈ row.name, Identifier name.toList
  keys : ∀ glyph ∈ tables.commands.complex, Solid glyph.1.toList
  icons : ∀ icon ∈ tables.commands.icons, Solid icon.toList

theorem legal_writable {c : Char} (writable : isUnwritable c = false) : isLegal c = true := by
  obtain ⟨⟨low,last⟩,beyond⟩ : ((0x20 ≤ c.toNat ∨ c = '\t' ∨ c = '\n' ∨ c = '\r') ∧ c ≠ '\ufffe') ∧ c ≠ '\uffff' := by
    simpa [isUnwritable,or_iff_not_imp_left,Nat.not_lt,Nat.not_le] using writable
  have last : c.toNat ≠ 0xFFFE := fun same => last (Char.toNat_inj.mp same)
  have beyond : c.toNat ≠ 0xFFFF := fun same => beyond (Char.toNat_inj.mp same)
  rcases low with visible | rfl | rfl | rfl
  · simp only [isLegal,Bool.or_eq_true,Bool.and_eq_true,decide_eq_true_eq]
    omega
  · decide
  · decide
  · decide

theorem solid_digits (n : Nat) : Solid (digits n) := by
  intro c member
  have range := ascii_range (digits_ascii n c member)
  have marks : c ≠ '&' ∧ c ≠ '<' ∧ c ≠ '>' ∧ c ≠ '\x22' := by
    refine ⟨?_,?_,?_,?_⟩ <;> rintro rfl <;> exact absurd range (by decide)
  simp only [isSolid,Bool.and_eq_true,decide_eq_true_eq]
  exact ⟨⟨⟨⟨⟨by omega,by omega⟩,marks.1⟩,marks.2.1⟩,marks.2.2.1⟩,marks.2.2.2⟩

section
variable {tables : TableSet}

theorem leaf_regular {tag : String} (identifier : Identifier tag.toList) {attributes : List (String × String)}
    (simple : Simple attributes) : Regular (.leaf tag attributes) :=
  .element identifier simple legalText_none legalText_none (List.forall_mem_nil _)

theorem simple_nil : Simple [] :=
  ⟨List.forall_mem_nil _,List.forall_mem_nil _,List.nodup_nil⟩

theorem simple_single {name value : String} (identifier : Identifier name.toList)
    (plain : name.toList ≠ declarationLead) (solid : Solid value.toList) : Simple [(name,value)] := by
  refine ⟨?_,?_,List.nodup_singleton _⟩ <;> intro pair member <;> rw [List.mem_singleton.mp member]
  · exact ⟨identifier,plain⟩
  · exact solid

theorem simple_value {value : String} (solid : Solid value.toList) : Simple [(valueName,value)] :=
  simple_single (by decide) (by decide) solid

theorem icon_listed {data : Bytes} {name : String} (named : Script.iconName? tables data = some name) :
    name ∈ tables.commands.icons := by
  match data,named with
  | [byte],named => exact List.mem_of_getElem? (by simpa [Script.iconName?,CommandTable.iconName?] using named)

theorem argumentText_solid {data : Bytes} {text : String} (shown : CommandRow.argumentText data = .ok text) :
    Solid text.toList := by
  unfold CommandRow.argumentText numeral? at shown
  split at shown
  · cases shown
  · rename_i numbered
    split at numbered
    · cases numbered
      cases shown
      rw [natText,String.toList_ofList]
      exact solid_digits _
    · cases numbered

theorem written_regular (printable : Printable tables) {entry : Entry} (fitting : Fitting tables entry)
    {element : Element} (written : Written tables entry element) : Regular element ∧ element.children = [] := by
  cases written with
  | text writable =>
    refine ⟨.element (by decide) simple_nil (fun c member => ?_) legalText_none (List.forall_mem_nil _),rfl⟩
    exact legal_writable (Bool.eq_false_iff.mpr (List.find?_eq_none.mp writable c member))
  | complex =>
    obtain ⟨code,member⟩ := CommandTable.isComplex_mem fitting
    exact ⟨leaf_regular (by decide) (simple_value (printable.keys _ member)),rfl⟩
  | lineBreak => exact ⟨leaf_regular (by decide) simple_nil,rfl⟩
  | bare found named =>
    exact ⟨leaf_regular (printable.names _ (CommandTable.rowFor_mem found).1 _ named) simple_nil,rfl⟩
  | icon named => exact ⟨leaf_regular (by decide) (simple_value (printable.icons _ (icon_listed named))),rfl⟩
  | argument _ found named shown =>
    exact ⟨leaf_regular (printable.names _ (CommandTable.rowFor_mem found).1 _ named)
      (simple_value (argumentText_solid shown)),rfl⟩

theorem entryElementsFrom_regular (printable : Printable tables) {index : Nat} {entries : List Entry}
    (fitting : ∀ entry ∈ entries, Fitting tables entry) {elements : List Element}
    (written : entryElementsFrom tables index entries = .ok elements) :
    ∀ element ∈ elements, Regular element ∧ element.children = [] := by
  induction entries generalizing index elements with
  | nil =>
    cases written
    exact List.forall_mem_nil _
  | cons entry rest ih =>
    obtain ⟨head,tail,first,others,rfl⟩ := entryElementsFrom_cons.mp written
    rw [List.forall_mem_cons] at fitting ⊢
    exact ⟨written_regular printable fitting.1 (entryElement_exact.mp first),ih fitting.2 others⟩

theorem serialize_regular (printable : Printable tables) {id : Int} (nonneg : 0 ≤ id) {entries : List Entry}
    (fitting : ∀ entry ∈ entries, Fitting tables entry) {element : Element}
    (written : serialize tables id entries = .ok element) :
    Regular element ∧ ∀ child ∈ element.children, child.children = [] := by
  obtain ⟨children,made,rfl⟩ := serialize_exact.mp written
  have each := entryElementsFrom_regular printable fitting made
  have solid : Solid (intText id).toList := by
    rw [intText,if_neg (by omega),natText,String.toList_ofList]
    exact solid_digits _
  exact ⟨.element (by decide) (simple_single (by decide) (by decide) solid) legalText_none legalText_none
    fun child member => (each child member).1,fun child member => (each child member).2⟩

theorem readEntry_shows {element shown : Element} (shows : Shows element shown) (childless : element.children = [])
    (id : Int) : readEntry tables id shown = readEntry tables id element := by
  obtain ⟨sameTag,sameAttributes,sameText,_⟩ := shows.facts
  have sameText := sameText childless
  cases element with
  | mk tag attributes text tail children =>
    cases shown with
    | mk tag' attributes' text' tail' children' =>
      cases sameTag; cases sameAttributes; cases sameText
      unfold readEntry
      dsimp only
      split
      · cases text with
        | none => rfl
        | some text =>
          by_cases empty : text.isEmpty = true
          · simp [empty]
          · simp [empty]
      · rfl

theorem readEntries_shows {elements shown : List Element} (shows : List.Forall₂ Shows elements shown)
    (childless : ∀ element ∈ elements, element.children = []) (id : Int) :
    readEntries tables id shown = readEntries tables id elements := by
  induction shows with
  | nil => rfl
  | cons first _ ih =>
    rw [List.forall_mem_cons] at childless
    rw [readEntries,readEntries,readEntry_shows first childless.1,ih childless.2]

theorem deserialize_shows {element shown : Element} (shows : Shows element shown)
    (childless : ∀ child ∈ element.children, child.children = []) :
    deserialize tables shown = deserialize tables element := by
  obtain ⟨tag,attributes,_,children⟩ := shows.facts
  have get : shown.get? idName = element.get? idName := by rw [Element.get?,attributes]; rfl
  simp only [deserialize,expectTag,tag,readId,get,readEntries_shows children childless]

theorem serialize_shows (consistent : tables.Consistent) (readable : Readable tables) (printable : Printable tables)
    {id : Int} (nonneg : 0 ≤ id) (small : id < 2 ^ 32) {entries : List Entry}
    (made : ∀ entry ∈ entries, Lasting entry ∧ Fitting tables entry) {element : Element}
    (written : serialize tables id entries = .ok element) :
    Regular element ∧ ∀ shown, Shows element shown → deserialize tables shown = .ok (id,entries) := by
  have fitting := fun entry member => (made entry member).2
  obtain ⟨regular,childless⟩ := serialize_regular printable nonneg fitting written
  refine ⟨regular,fun shown shows => ?_⟩
  rw [deserialize_shows shows childless,deserialize_written consistent readable nonneg small fitting written,
    kept_lasting fun entry member => (made entry member).1]

theorem catalogElement_regular {elements : List Element} (regular : ∀ element ∈ elements, Regular element) :
    Regular (catalogElement elements) ∧ (catalogElement elements).tail = none :=
  ⟨.element (by decide) simple_nil legalText_none legalText_none regular,rfl⟩

theorem deserializeCatalog_shows {messages : OrderedMap Int (List Entry)} {elements : List Element}
    (each : List.Forall₂ (fun message element =>
      ∀ shown, Shows element shown → deserialize tables shown = .ok message) messages.toList elements)
    {again : Element} (shows : Shows (catalogElement elements) again) :
    deserializeCatalog tables again = .ok messages := by
  obtain ⟨tag,_,_,children⟩ := shows.facts
  have steps : List.Forall₂ (fun shown message => ∀ map : OrderedMap Int (List Entry),
      map.contains message.1 = false → addMessage tables map shown = .ok (map.insert message.1 message.2))
        again.children messages.toList := by
    refine (shows_each each children).imp fun shown message reading map absent => ?_
    exact bind_ok.mpr ⟨message,reading,by simp [absent]⟩
  have distinct : (((∅ : OrderedMap Int (List Entry)).toList ++ messages.toList).map Prod.fst).Nodup := messages.distinct
  exact bind_ok.mpr ⟨(),if_pos tag,
    (OrderedMap.fold_inserts steps distinct).trans (congrArg Except.ok (OrderedMap.toList_inj rfl))⟩

end

theorem packaged_facts {tables : TableSet} (packaged : Packaged.tables = .ok tables) :
    tables.Consistent ∧ Readable tables ∧ Printable tables := by
  cases Except.ok.inj (Packaged.tables_built.symm.trans packaged)
  exact ⟨(TableSet.Loaded.packaged packaged).accepted.consistent,
    ⟨by decide +kernel,by decide +kernel,by decide +kernel⟩,
    ⟨by decide +kernel,by decide +kernel,by decide +kernel⟩⟩

-- Messages as scripts say them come back from their document, whether it is the
-- text of one or a file in one of three encodings, and with indentation or without.
theorem deserializeCatalog_load {tables : TableSet} (packaged : Packaged.tables = .ok tables)
    {messages : OrderedMap Int (List Entry)} (numbered : ∀ message ∈ messages.toList, 0 ≤ message.1 ∧ message.1 < 2 ^ 32)
    (parsed : ∀ message ∈ messages.toList, ∃ script, Script.parse tables script = .ok message.2) {root : Element}
    (written : serializeCatalog tables messages = .ok root) (pretty : Bool) (path : String) :
    (∃ again, load path (encodeUtf8 (render root pretty)) = .ok again ∧ deserializeCatalog tables again = .ok messages) ∧
      ∀ label ∈ ["utf-8","US-ASCII","iso-8859-1"], ∃ bytes again, save root label pretty = .ok bytes ∧
        load path bytes = .ok again ∧ deserializeCatalog tables again = .ok messages := by
  obtain ⟨consistent,readable,printable⟩ := packaged_facts packaged
  obtain ⟨elements,made,rest⟩ := bind_ok.mp written
  cases rest
  have both := (List.forall₂_and_left _ _).mpr
    ⟨fun message member => And.intro (numbered message member) (parsed message member),mapM_each.mp made⟩
  have each : List.Forall₂ (fun message element => Regular element ∧
      ∀ shown, Shows element shown → deserialize tables shown = .ok message) messages.toList elements := by
    refine both.imp fun message element facts => ?_
    obtain ⟨⟨⟨nonneg,small⟩,script,reading⟩,written⟩ := facts
    exact serialize_shows consistent readable printable nonneg small
      (scripted_entries consistent ((Script.parse_exact consistent).mp reading)) written
  have shown := each.imp fun _ _ facts => facts.2
  obtain ⟨regular,last⟩ := catalogElement_regular (values_each (each.imp fun _ _ facts => facts.1))
  constructor
  · obtain ⟨again,reading,shows⟩ := load_render regular last pretty path
    exact ⟨again,reading,deserializeCatalog_shows shown shows⟩
  · intro label listed
    have declared : ∃ encoding, Declared label encoding := by
      simp only [List.mem_cons,List.not_mem_nil,or_false] at listed
      rcases listed with rfl | rfl | rfl
      · exact ⟨_,.utf8⟩
      · exact ⟨_,.ascii⟩
      · exact ⟨_,.latin1⟩
    obtain ⟨encoding,declared⟩ := declared
    obtain ⟨bytes,again,saved,reading,shows⟩ := load_save regular last pretty path declared
    exact ⟨bytes,again,saved,reading,deserializeCatalog_shows shown shows⟩

-- Texts that a document has to escape or could lose.
def sampleMessages : OrderedMap Int (List Entry) :=
  ⟨[(7,[.text "\r]]>&\t\u0085★𝄞",.bare .reset rfl,.text "  "]),(0,[])],by decide⟩

theorem deserializeCatalog_load_sample : ∃ root, serializeCatalog Packaged.set sampleMessages = .ok root ∧
    (∃ again, load "" (encodeUtf8 (render root true)) = .ok again ∧
      deserializeCatalog Packaged.set again = .ok sampleMessages) ∧
    ∀ label ∈ ["utf-8","US-ASCII","iso-8859-1"], ∃ bytes again, save root label true = .ok bytes ∧
      load "" bytes = .ok again ∧ deserializeCatalog Packaged.set again = .ok sampleMessages := by
  have written : ∃ root, serializeCatalog Packaged.set sampleMessages = .ok root := ⟨_,rfl⟩
  obtain ⟨root,written⟩ := written
  refine ⟨root,written,deserializeCatalog_load Packaged.tables_built (by decide) (fun message member => ?_) written true ""⟩
  simp only [sampleMessages,List.mem_cons,List.not_mem_nil,or_false] at member
  rcases member with rfl | rfl
  · exact ⟨"\r]]>&\t\u0085★𝄞\x7b:reset\x7d  ",by decide +kernel⟩
  · exact ⟨"",by decide +kernel⟩

end GameText.Document
