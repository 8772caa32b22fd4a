import GameText.Proofs.Batch
import GameText.Proofs.Catalog.Layout
import GameText.Proofs.Document.File
import GameText.Proofs.Script.RoundTrip
import GameText.Proofs.Wire.Message

namespace GameText.Document
open Batch Outcome Xml

-- Entries that have a place in a document: icons are written by their names.
def isNamed (tables : TableSet) (entry : Entry) : Bool :=
  match entry with
  | .argument command data _ => command ≠ .printIcon || (Script.iconName? tables data).isSome
  | _ => true

-- Messages that have one: they can be decoded, and their icons have names.
def isGood (tables : TableSet) (data : Bytes) : Bool :=
  match Wire.decode tables data with
  | .ok entries => entries.all (isNamed tables)
  | .error _ => false

-- What the way from messages to documents and back asks of tables.
structure Exportable (tables : TableSet) : Prop where
  consistent : tables.Consistent
  forward : tables.commands.isForward = true
  delimited : Wire.Delimited tables
  writable : Script.Writable tables
  readable : Readable tables
  printable : Printable tables
  visible : ∀ glyph ∈ tables.characters.glyphs, isUnwritable glyph.1 = false

theorem packaged_exportable {tables : TableSet} (packaged : Packaged.tables = .ok tables) : Exportable tables := by
  obtain ⟨consistent,readable,printable⟩ := packaged_facts packaged
  cases Except.ok.inj (Packaged.tables_built.symm.trans packaged)
  have named : ∀ row ∈ Packaged.set.commands.rows, row.command ≠ .newLine → row.name.isSome = true := by decide +kernel
  refine ⟨consistent,by decide +kernel,⟨by decide +kernel,by decide +kernel,by decide +kernel⟩,
    ⟨fun row member other => ?_,fun c member => ?_⟩,readable,printable,by decide +kernel⟩
  · obtain ⟨name,given⟩ := Option.isSome_iff_exists.mp (named row member other)
    exact ⟨name,given,printable.names row member name given⟩
  · simp only [List.mem_cons,List.not_mem_nil,or_false] at member
    rcases member with rfl | rfl | rfl <;> decide +kernel

section
variable {tables : TableSet}

theorem entryElementsFrom_answers {entries : List Entry}
    (each : ∀ entry ∈ entries, ∀ index, Answers (isNamed tables entry) (entryElement tables index entry))
    (index : Nat) : Answers (entries.all (isNamed tables)) (entryElementsFrom tables index entries) := by
  induction entries generalizing index with
  | nil => exact .ok _
  | cons entry rest ih =>
    rw [List.forall_mem_cons] at each
    rw [List.all_cons,entryElementsFrom]
    refine (each.1 index).bind fun head _ => ?_
    rw [← Bool.and_true (rest.all _)]
    exact (ih each.2 (index + 1)).bind fun tail _ => .ok _

variable (exportable : Exportable tables)
include exportable

theorem nameOf_row {row : CommandRow} (member : row ∈ tables.commands.rows) (other : row.command ≠ .newLine)
    (index : Nat) : ∃ name, nameOf tables index row.command = .ok name := by
  obtain ⟨name,named,_⟩ := exportable.writable.named row member other
  exact ⟨name,nameOf_exact.mpr ⟨row,exportable.consistent.commands.rowFor member,named⟩⟩

theorem entryElement_answers {entry : Entry} {piece : Bytes} (spelled : Wire.Spelled tables (.entry entry) piece)
    (index : Nat) : Answers (isNamed tables entry) (entryElement tables index entry) := by
  cases spelled with
  | complex => exact .ok _
  | lineBreak => exact .ok _
  | @bare row head member opcode fits =>
    obtain ⟨name,named⟩ := nameOf_row exportable member (of_decide_eq_true fits).2 index
    rw [entryElement,named]
    exact .ok _
  | @argument row head data member opcode fits width =>
    have line : row.command ≠ .newLine := fun line => by rw [line] at fits; cases fits
    rw [isNamed,entryElement]
    by_cases icon : row.command = .printIcon
    · rw [if_pos icon]
      cases found : Script.iconName? tables data with
      | none => exact .inr ⟨by simp [icon],_,rfl,rfl⟩
      | some name => exact .inl ⟨by simp,_,rfl⟩
    · have short : data.length ≤ 8 := by
        have bound := exportable.readable.short row member
        omega
      obtain ⟨name,named⟩ := nameOf_row exportable member line index
      rw [if_neg icon,named,Script.argumentText_short short]
      exact .inl ⟨by simp [icon],_,rfl⟩

theorem entryElement_text {run : List Char} {tokens : List Wire.Token}
    (spelled : ∀ token ∈ tokens, ∃ piece, Wire.Spelled tables token piece) (glyphs : ∀ c ∈ run, .glyph c ∈ tokens)
    (index : Nat) : ∃ element, entryElement tables index (.text (String.ofList run)) = .ok element := by
  have writable : run.find? isUnwritable = none := by
    rw [List.find?_eq_none]
    intro c member
    obtain ⟨piece,spelling⟩ := spelled _ (glyphs c member)
    cases spelling with
    | glyph inside => simp [exportable.visible _ inside]
  rw [entryElement,String.toList_ofList,writable]
  exact ⟨_,rfl⟩

theorem messageElement_answers (id : Int) (data : Bytes) :
    Answers (isGood tables data) (messageElement tables id data) := by
  rw [isGood,messageElement]
  cases decoded : Wire.decode tables data with
  | error fault =>
    exact .inr ⟨rfl,fault,rfl,Wire.decode_fails exportable.consistent exportable.forward data fault decoded⟩
  | ok entries =>
    obtain ⟨⟨_,after⟩,reading,rfl⟩ := map_ok.mp decoded
    obtain ⟨tokens,rfl,spelled⟩ := Wire.read_pieces exportable.consistent exportable.forward reading
    have each : ∀ entry ∈ Wire.entriesOf tokens, ∀ index,
        Answers (isNamed tables entry) (entryElement tables index entry) := by
      intro entry member index
      rcases Wire.entriesOf_mem member with ⟨run,_,glyphs,rfl⟩ | inside
      · exact .inl ⟨rfl,entryElement_text exportable spelled glyphs index⟩
      · obtain ⟨piece,spelling⟩ := spelled _ inside
        exact entryElement_answers exportable spelling index
    have whole := (entryElementsFrom_answers each 0).bind fun children _ =>
      Answers.ok (⟨messageTag,[(idName,Text.intText id)],none,none,children⟩ : Element)
    rw [Bool.and_true] at whole
    exact whole

theorem elementBytes_shows {id : Int} (nonneg : 0 ≤ id) (small : id < 2 ^ 32) {data : Bytes}
    (extent : Wire.Extent tables data) {element : Element} (made : messageElement tables id data = .ok element) :
    Regular element ∧ ∀ shown, Shows element shown → ∀ key, elementBytes tables key shown = .ok (id,data) := by
  obtain ⟨entries,decoded,written⟩ := bind_ok.mp made
  obtain ⟨⟨_,after⟩,reading,rfl⟩ := map_ok.mp decoded
  have consistent := exportable.consistent
  have lasting := read_lasting consistent reading
  have fitting := read_fitting consistent (Wire.forward_exact.mp exportable.forward).1 reading
  obtain ⟨regular,read⟩ := serialize_shows consistent exportable.readable exportable.printable nonneg small
    (fun entry member => ⟨lasting entry member,fitting entry member⟩) written
  have encoded := Wire.encode_decode consistent exportable.delimited exportable.forward
    (exportable.writable.unstructured '\n' (by decide)) extent decoded
  exact ⟨regular,fun shown shows key => bind_ok.mpr ⟨_,read shown shows,bind_ok.mpr ⟨data,encoded,rfl⟩⟩⟩

end

-- The messages of a catalog that have a place in a document, in their order.
def good (tables : TableSet) (catalog : Catalog) : Catalog :=
  ⟨⟨catalog.messages.toList.filter fun message => isGood tables message.2,
    catalog.messages.distinct.sublist (List.filter_sublist.map Prod.fst)⟩⟩

theorem good_whole {tables : TableSet} {catalog : Catalog} :
    good tables catalog = catalog ↔ ∀ message ∈ catalog.messages.toList, isGood tables message.2 = true := by
  rw [← List.filter_eq_self]
  exact ⟨fun same => congrArg (fun catalog => catalog.messages.toList) same,fun same => Catalog.toList_inj same⟩

section
variable {tables : TableSet} (exportable : Exportable tables)
include exportable

theorem catalogToDocument_good {policy : Policy} {catalog : Catalog}
    (numbered : ∀ message ∈ catalog.messages.toList, Text.hasNumeral message.1 = true)
    (goes : policy = .skip ∨ good tables catalog = catalog) :
    ∃ elements, (Batch.catalogToDocument policy tables catalog).result = .ok (catalogElement elements) ∧
      (good tables catalog).messages.toList.mapM (fun message => messageElement tables message.1 message.2) =
        .ok elements := by
  have answers : ∀ message ∈ catalog.messages.toList,
      Answers (isGood tables message.2) (messageElement tables message.1 message.2) :=
    fun message _ => messageElement_answers exportable message.1 message.2
  obtain ⟨values,ran,converts⟩ := @convertAll_good _ _ _ .number _ policy _ _ answers numbered
    (goes.imp_right good_whole.mp) .empty
  refine ⟨values.map Prod.snd,then_ok.mpr ⟨values,(convertItems_result _ _).trans ran,rfl⟩,mapM_each.mpr ?_⟩
  exact List.forall₂_map_right_iff.mpr (converts.imp fun _ _ facts => facts.2)

theorem catalogToDocument_ends {policy : Policy} {catalog : Catalog}
    (numbered : ∀ message ∈ catalog.messages.toList, Text.hasNumeral message.1 = true) :
    (∃ root, (Batch.catalogToDocument policy tables catalog).result = .ok root) ↔
      policy = .skip ∨ good tables catalog = catalog := by
  constructor
  · rintro ⟨root,ended⟩
    cases policy with
    | skip => exact .inl rfl
    | abort =>
      obtain ⟨values,ran,_⟩ := then_ok.mp ended
      have converts := convertAll_exact.mp ((convertItems_result _ _).symm.trans ran)
      have each : List.Forall₂ (flip fun _ (message : Int × Bytes) => isGood tables message.2 = true)
          catalog.messages.toList values :=
        converts.imp fun message _ facts => (messageElement_answers exportable message.1 message.2).good facts.2
      exact .inr (good_whole.mpr (values_each each.flip))
  · intro goes
    obtain ⟨elements,ran,_⟩ := catalogToDocument_good exportable numbered goes
    exact ⟨catalogElement elements,ran⟩

theorem documentToCatalog_shows {catalog : Catalog} (sound : Catalog.Sound tables catalog) {elements : List Element}
    (made : catalog.messages.toList.mapM (fun message => messageElement tables message.1 message.2) = .ok elements) :
    (Regular (catalogElement elements) ∧ (catalogElement elements).tail = none) ∧
      ∀ again, Shows (catalogElement elements) again → ∀ converter : Converter, converter.tables = tables →
        (converter.documentToCatalog again).result = .ok catalog := by
  have both := (List.forall₂_and_left _ _).mpr ⟨sound,mapM_each.mp made⟩
  have each : List.Forall₂ (fun message element => Regular element ∧ ∀ shown, Shows element shown →
      ∀ key, elementBytes tables key shown = .ok message) catalog.messages.toList elements := by
    refine both.imp fun message element facts => ?_
    obtain ⟨⟨⟨nonneg,small⟩,extent⟩,written⟩ := facts
    exact elementBytes_shows exportable nonneg small extent written
  refine ⟨catalogElement_regular (values_each (each.imp fun _ _ facts => facts.1)),fun again shows converter same => ?_⟩
  obtain ⟨tag,_,_,children⟩ := shows.facts
  have expected : expectTag catalogTag again = .ok () := if_pos tag
  obtain ⟨values,converts,whole⟩ := @converts_keyed _ _ _ _ (fun element => element.get? idName) _ _
    (shows_each (each.imp fun _ _ facts => facts.2) children)
  unfold Converter.documentToCatalog
  rw [expected,same]
  refine then_ok.mpr ⟨values,(convertItems_result _ _).trans (convertAll_each converts _),?_⟩
  rw [whole]
  exact @storeAll_new _ _ _ .empty sound.storable catalog.messages.distinct _

end
end GameText.Document
