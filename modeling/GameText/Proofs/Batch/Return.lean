import GameText.Proofs.Batch.Conversions
import GameText.Proofs.Document.Fault
import GameText.Proofs.Wire.Message

namespace GameText.Batch
open Outcome

theorem skippable_number {α β : Type} {convert : Int → α → Except Fault β} {item : Int × α}
    (fails : Fails (·.isCodec = true) (convert item.1 item.2)) (numbered : Text.hasNumeral item.1 = true) :
    Skippable .number convert item :=
  fun fault failed => ⟨fails fault failed,numbered⟩

theorem skippable_exact {α β : Type} {convert : Int → α → Except Fault β} {item : Int × α}
    (numbered : Text.hasNumeral item.1 = true) :
    Skippable .number convert item ↔ Fails (·.isCodec = true) (convert item.1 item.2) :=
  ⟨fun skippable fault failed => (skippable fault failed).1,fun fails => skippable_number fails numbered⟩

section
variable {tables : TableSet} (loaded : tables.Loaded)
include loaded

theorem decode_short {data : Bytes} {entries : List Entry} (decoded : Wire.decode tables data = .ok entries) :
    ∀ entry ∈ entries, entry.Short := by
  obtain ⟨⟨_,after⟩,reading,rfl⟩ := map_ok.mp decoded
  exact Document.read_short loaded reading

theorem decode_stumbling (data : Bytes) :
    Fails (fun fault => fault.isCodec = true ∨ Wire.Stumbles tables data) (Wire.decode tables data) := by
  refine Fails.map fun fault failed => ?_
  exact (Wire.read_fails loaded.accepted.consistent loaded.advancing data 0 fault failed).imp Fault.IsEncoding.codec And.right

theorem decoded_skippable {α : Type} {data : Bytes} {shown : List Entry → Except Fault α}
    (shows : ∀ entries, Wire.decode tables data = .ok entries → Fails (·.isCodec = true) (shown entries)) :
    Fails (·.isCodec = true) (Wire.decode tables data >>= shown) ↔ ¬ Wire.Stumbles tables data := by
  constructor
  · intro fails stumbles
    have failed := Wire.decode_stumbles loaded.accepted.consistent loaded.advancing stumbles
    cases fails _ (bind_error.mpr (.inl failed))
  · intro straight
    refine Fails.bind (fun fault failed => ?_) shows
    exact (decode_stumbling loaded data fault failed).resolve_right straight

theorem messageElement_skippable (id : Int) (data : Bytes) :
    Fails (·.isCodec = true) (messageElement tables id data) ↔ ¬ Wire.Stumbles tables data :=
  decoded_skippable loaded fun _ decoded => Document.serialize_fails (decode_short loaded decoded) id

theorem messageText_skippable (id : Int) (data : Bytes) :
    Fails (·.isCodec = true) (messageText tables id data) ↔ ¬ Wire.Stumbles tables data :=
  decoded_skippable loaded fun _ decoded => Script.serialize_fails (decode_short loaded decoded)

theorem scriptBytes_skippable (id : Int) (script : String) :
    Fails (·.isCodec = true) (scriptBytes tables id script) ↔ ∀ fault, ¬ Script.Founders tables fault script.toList := by
  have consistent := loaded.accepted.consistent
  constructor
  · intro fails fault founders
    cases founders.number.other.symm.trans (fails _ (bind_error.mpr (.inl (Script.parse_founders consistent founders))))
  · intro runs
    refine Fails.bind (fun fault failed => ?_) fun _ _ => Wire.encodeFrom_fails consistent 0 _
    exact ((Script.halts_fault consistent loaded.formed.few ((Script.entriesFrom_error consistent).mp failed)).resolve_right
      (runs fault)).codec

theorem elementBytes_fails (key : Option String) (element : Xml.Element) :
    Fails (fun fault => fault.isCodec = true ∨ Document.Unread tables element fault) (elementBytes tables key element) := by
  have consistent := loaded.accepted.consistent
  refine Fails.bind (fun fault failed => ?_) fun _ _ => ?_
  · exact (Document.deserialize_fails consistent loaded.formed.few element fault failed).imp_left Fault.IsParse.codec
  · exact ((Wire.encodeFrom_fails consistent 0 _).imp fun _ => .inl).bind fun _ _ => .ok _

theorem elementBytes_unread {element : Xml.Element} {fault : Fault} (unread : Document.Unread tables element fault)
    (key : Option String) : elementBytes tables key element = .error fault :=
  bind_error.mpr (.inl (Document.deserialize_unread loaded.accepted.consistent unread))

theorem elementBytes_skippable (key : Option String) (element : Xml.Element) :
    Fails (·.isCodec = true) (elementBytes tables key element) ↔ ∀ fault, ¬ Document.Unread tables element fault := by
  constructor
  · intro fails fault unread
    cases unread.number.other.symm.trans (fails _ (elementBytes_unread loaded unread key))
  · intro read
    exact (elementBytes_fails loaded key element).imp fun fault given => given.resolve_right (read fault)

theorem scriptsToCatalog_runs {scripts : OrderedMap Int String} :
    (∃ catalog, (scriptsToCatalog .skip tables scripts).result = .ok catalog) ↔
      ∀ item ∈ scripts.toList, Text.hasNumeral item.1 = true ∧ ∀ fault, ¬ Script.Founders tables fault item.2.toList := by
  rw [scriptsToCatalog_returns]
  constructor
  · rintro ⟨skippable,numbered⟩ item member
    refine ⟨numbered item member,(scriptBytes_skippable loaded item.1 item.2).mp ?_⟩
    exact fun fault failed => (skippable item member fault failed).1
  · intro each
    refine ⟨fun item member => ?_,fun item member => (each item member).1⟩
    exact skippable_number ((scriptBytes_skippable loaded item.1 item.2).mpr (each item member).2) (each item member).1

theorem messagesToCatalog_reads {elements : List Xml.Element} :
    (∃ catalog, (messagesToCatalog .skip tables elements).result = .ok catalog) ↔
      ∀ element ∈ elements, ∀ fault, ¬ Document.Unread tables element fault := by
  rw [messagesToCatalog_returns,keyed,List.forall_mem_map]
  refine forall₂_congr fun element _ => ?_
  rw [← elementBytes_skippable loaded (element.get? Document.idName)]
  exact ⟨fun skippable fault failed => (skippable fault failed).1,fun fails fault failed => ⟨fails fault failed,rfl⟩⟩

end

-- A batch that skips ends with a result. What it cannot skip is a message whose decoding comes
-- to a row of real width, a script that founders, a message that reading breaks off at, and a
-- number of a script that has no text itself.
theorem skip_returns {converter : Converter} (skips : converter.policy = .skip) (loaded : converter.tables.Loaded) :
    (∀ catalog, (∀ message ∈ catalog.messages.toList, 0 ≤ message.1 ∧ message.1 < 2 ^ 32) →
      ((∃ root, (converter.catalogToDocument catalog).result = .ok root) ↔
        ∀ message ∈ catalog.messages.toList, ¬ Wire.Stumbles converter.tables message.2) ∧
      ((∃ scripts, (converter.catalogToScripts catalog).result = .ok scripts) ↔
        ∀ message ∈ catalog.messages.toList, ¬ Wire.Stumbles converter.tables message.2)) ∧
    (∀ scripts, (∃ catalog, (converter.scriptsToCatalog scripts).result = .ok catalog) ↔
      ∀ item ∈ scripts.toList, Text.hasNumeral item.1 = true ∧
        ∀ fault, ¬ Script.Founders converter.tables fault item.2.toList) ∧
    ∀ root, root.tag = Document.catalogTag →
      ((∃ catalog, (converter.documentToCatalog root).result = .ok catalog) ↔
        ∀ element ∈ root.children, ∀ fault, ¬ Document.Unread converter.tables element fault) := by
  obtain ⟨_,tables,before⟩ := converter
  cases skips
  refine ⟨?_,?_,?_⟩
  · intro catalog numbered
    have named : ∀ message ∈ catalog.messages.toList, Text.hasNumeral message.1 = true :=
      fun message member => Text.hasNumeral_word (numbered message member).1 (numbered message member).2
    constructor
    · refine catalogToDocument_returns.trans ?_
      exact forall₂_congr fun message member => (skippable_exact (named message member)).trans
        (messageElement_skippable loaded message.1 message.2)
    · refine convertItems_returns.trans ?_
      exact forall₂_congr fun message member => (skippable_exact (named message member)).trans
        (messageText_skippable loaded message.1 message.2)
  · intro scripts
    exact scriptsToCatalog_runs loaded
  · intro root tag
    rw [documentToCatalog_tag _ tag]
    exact messagesToCatalog_reads loaded

-- A number beside an information separator.
def separated : Xml.Element := ⟨Document.messageTag,[(Document.idName,"\x1f7")],none,none,[]⟩

theorem separated_unread (tables : TableSet) : Document.Unread tables separated (.value (.notANumeral "\x1f7")) :=
  .id rfl (.numeral rfl (by decide) (.inr ⟨'\x1f',by decide,by decide,by decide⟩))

theorem skip_returns_sample :
    (∃ scripts, (Converter.catalogToScripts ⟨.skip,TableSet.sample,[]⟩
      ⟨⟨[(1,[0xFF,0x00]),(2,[0x61,0x00])],by decide⟩⟩).result = .ok scripts) ∧
    (∃ catalog, (Converter.documentToCatalog ⟨.skip,TableSet.sample,[]⟩
      (Document.catalogElement [.leaf "text" []])).result = .ok catalog) ∧
    ¬ ∃ catalog, (Converter.documentToCatalog ⟨.skip,TableSet.sample,[]⟩
      (Document.catalogElement [.leaf "text" [],separated])).result = .ok catalog := by
  obtain ⟨exports,_,documents⟩ := @skip_returns ⟨.skip,TableSet.sample,[]⟩ rfl TableSet.sample_loaded
  refine ⟨(exports _ (by decide)).2.mpr fun message _ ⟨row,_,meets,_⟩ => ?_,(documents _ rfl).mpr ?_,fun returns => ?_⟩
  · have whole : ∀ row ∈ TableSet.sample.commands.rows, row.isWhole = true := by decide
    cases meets.row.2.symm.trans (whole row meets.row.1)
  · intro element member fault unread
    cases List.mem_singleton.mp member
    cases unread with
    | id tag => exact absurd tag (by decide)
    | entries tag => exact absurd tag (by decide)
  · exact (documents _ rfl).mp returns _ (.tail _ (.head _)) _ (separated_unread _)

theorem founders_breaks {tables : TableSet} (loaded : tables.Loaded) {script : String} {fault : Fault}
    (founders : Script.Founders tables fault script.toList) (id : Int) : ¬ ∃ catalog,
      (Converter.scriptsToCatalog ⟨.skip,tables,[]⟩ ⟨[(id,script)],List.nodup_singleton _⟩).result = .ok catalog := by
  intro returns
  exact ((scriptsToCatalog_runs loaded).mp returns _ List.mem_cons_self).2 fault founders

theorem separated_breaks {tables : TableSet} (loaded : tables.Loaded) : ¬ ∃ catalog,
    (Converter.documentToCatalog ⟨.skip,tables,[]⟩ (Document.catalogElement [separated])).result = .ok catalog := by
  rw [documentToCatalog_tag _ rfl]
  intro returns
  exact (messagesToCatalog_reads loaded).mp returns _ List.mem_cons_self _ (separated_unread tables)

-- With the packaged tables one script ends the batch for its zeros, and one message for a
-- separator before its number. Where a width is 1.0, so does a message with that command.
theorem skip_returns_packaged :
    (¬ ∀ tables : TableSet, tables.Loaded → ∀ scripts, ∃ catalog,
      (Converter.scriptsToCatalog ⟨.skip,tables,[]⟩ scripts).result = .ok catalog) ∧
    (¬ ∀ tables : TableSet, tables.Loaded → ∀ root, root.tag = Document.catalogTag → ∃ catalog,
      (Converter.documentToCatalog ⟨.skip,tables,[]⟩ root).result = .ok catalog) ∧
    ¬ ∀ tables : TableSet, tables.Loaded → ∀ catalog : Catalog, ∃ scripts,
      (Converter.catalogToScripts ⟨.skip,tables,[]⟩ catalog).result = .ok scripts := by
  have loaded : Packaged.set.Loaded := .packaged Packaged.tables_built
  refine ⟨fun law => ?_,fun law => ?_,fun law => ?_⟩
  · obtain ⟨row,named,has⟩ : ∃ row, Packaged.set.commands.byName? "scale" = some row ∧ row.hasArgument = true :=
      ⟨_,rfl,rfl⟩
    exact founders_breaks loaded (Script.padded_founders (by decide) named has) 1 (law _ loaded _)
  · exact separated_breaks loaded (law _ loaded _ rfl)
  · have stumbles : Wire.Stumbles TableSet.scaled [0x0A,0x22,0x00] :=
      ⟨⟨.textScale,0x0A,1,some "scale",.real⟩,_,.here (by decide) rfl rfl (by decide),.inl rfl⟩
    have returns := convertItems_returns.mp (law _ TableSet.scaled_loaded ⟨⟨[(1,[0x0A,0x22,0x00])],by decide⟩⟩)
    exact (messageText_skippable TableSet.scaled_loaded 1 _).mp
      (fun fault failed => (returns _ List.mem_cons_self fault failed).1) stumbles

end GameText.Batch
