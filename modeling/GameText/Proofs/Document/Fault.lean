import GameText.Proofs.Document.RoundTrip
import GameText.Proofs.Script.Fault

namespace GameText.Document
open Outcome Text Xml

section
variable {tables : TableSet}

theorem read_short (loaded : tables.Loaded) {data : Bytes} {offset : Nat} {entries : List Entry} {after : Int}
    (decoded : Wire.read tables data offset = .ok (entries,after)) : ∀ entry ∈ entries, entry.Short := by
  obtain ⟨tokens,stop,reading,rfl,_⟩ := Wire.read_straight loaded.accepted.consistent loaded.advancing decoded
  obtain ⟨_,_,_,stream,_⟩ := Wire.stream_of_read loaded.accepted.consistent reading
  intro entry member
  rcases Wire.entriesOf_mem member with ⟨run,_,_,rfl⟩ | inside
  · trivial
  · obtain ⟨piece,spelling⟩ := stream.pieces _ inside
    cases spelling with
    | @argument row head data listed opcode fits width =>
      have bound := (loaded.formed.rows row listed).width
      change data.length ≤ 8
      omega
    | _ => trivial

theorem nameOf_fails (index : Nat) (command : Command) : Fails (·.isCodec = true) (nameOf tables index command) := by
  unfold nameOf
  split
  · exact .error rfl
  · exact .ok _

theorem entryElement_fails {entry : Entry} (short : entry.Short) (index : Nat) :
    Fails (·.isCodec = true) (entryElement tables index entry) := by
  cases entry with
  | text content =>
    rw [entryElement]
    split
    · exact .error rfl
    · exact .ok _
  | complex key => exact .ok _
  | lineBreak text data => exact .ok _
  | bare command fits => exact (nameOf_fails index command).bind fun _ _ => .ok _
  | argument command data fits =>
    rw [entryElement]
    split
    · split
      · exact .error rfl
      · exact .ok _
    · rw [Script.argumentText_short short]
      exact (nameOf_fails index command).bind fun _ _ => .ok _

theorem entryElementsFrom_fails {entries : List Entry} (short : ∀ entry ∈ entries, entry.Short) (index : Nat) :
    Fails (·.isCodec = true) (entryElementsFrom tables index entries) := by
  induction entries generalizing index with
  | nil => exact .ok _
  | cons entry rest ih =>
    rw [List.forall_mem_cons] at short
    apply (entryElement_fails short.1 index).bind
    intro head _
    exact (ih short.2 (index + 1)).bind fun tail _ => .ok _

theorem serialize_fails {entries : List Entry} (short : ∀ entry ∈ entries, entry.Short) (id : Int) :
    Fails (·.isCodec = true) (serialize tables id entries) :=
  (entryElementsFrom_fails short 0).bind fun _ _ => .ok _

end

-- The number of a message that is taken for digits and is then no numeral: there are too
-- many of them, or there is an information separator beside them.
inductive UnreadId (element : Element) : Fault → Prop where
  | numeral {raw : String} (given : element.get? idName = some raw) (decimal : isDecimal (strip raw.toList) = true)
      (why : digitLimit < (strip raw.toList).length ∨ ∃ c ∈ raw.toList, Text.isBlank c = true ∧ isNumeralBlank c = false) :
      UnreadId element (.value (.notANumeral raw))

-- A command with too many digits for its argument, or whose row has a real number for its width.
structure UnreadValue (tables : TableSet) (element : Element) (row : CommandRow) (raw : String) (fault : Fault) : Prop where
  command : ∀ tag ∈ [textTag,complexTag,iconTag,newLineTag], element.tag ≠ tag
  named : tables.commands.byName? element.tag = some row
  has : row.hasArgument = true
  given : element.get? valueName = some raw
  decimal : isDecimal raw.toList = true
  balks : row.Balks raw.toList (.value (.notANumeral raw)) fault

-- The elements of a message, up to such a command.
inductive UnreadEntries (tables : TableSet) (id : Int) (fault : Fault) : List Element → Prop where
  | here {element : Element} {rest : List Element} {row : CommandRow} {raw : String}
      (unread : UnreadValue tables element row raw fault) : UnreadEntries tables id fault (element :: rest)
  | later {element : Element} {rest : List Element} {entry : Option Entry}
      (read : readEntry tables id element = .ok entry) (more : UnreadEntries tables id fault rest) :
      UnreadEntries tables id fault (element :: rest)

-- A message that reading breaks off at.
inductive Unread (tables : TableSet) (element : Element) (fault : Fault) : Prop where
  | id (tag : element.tag = messageTag) (unread : UnreadId element fault)
  | entries {id : Int} (tag : element.tag = messageTag) (numbered : readId element = .ok id)
      (unread : UnreadEntries tables id fault element.children)

theorem UnreadEntries.number {tables : TableSet} {id : Int} {elements : List Element} {fault : Fault}
    (unread : UnreadEntries tables id fault elements) : fault.IsNumber := by
  induction unread with
  | here unread => exact unread.balks.number (.value _)
  | later _ _ ih => exact ih

theorem Unread.number {tables : TableSet} {element : Element} {fault : Fault} (unread : Unread tables element fault) :
    fault.IsNumber := by
  cases unread with
  | id _ unread =>
    cases unread
    exact .value _
  | entries _ _ unread => exact unread.number

-- A failure of reading, or one that reading was to rule out.
abbrev Breaks (unread : Fault → Prop) (fault : Fault) : Prop := fault.IsParse ∨ unread fault

theorem fail_breaks {α : Type} {unread : Fault → Prop} (cause : ParseCause) (token : Option String) :
    Fails (Breaks unread) (fail cause token : Except Fault α) :=
  .error (.inl ⟨_,rfl⟩)

theorem expectTag_ok {expected : String} {element : Element} :
    expectTag expected element = .ok () ↔ element.tag = expected := by
  unfold expectTag
  split
  · rename_i tag
    simp [tag]
  · rename_i other
    simp [other,fail]

theorem expectTag_fails {unread : Fault → Prop} (expected : String) (element : Element) :
    Fails (Breaks unread) (expectTag expected element) := by
  unfold expectTag
  split
  · exact .ok ()
  · exact fail_breaks _ _

theorem readId_fails (element : Element) : Fails (Breaks (UnreadId element)) (readId element) := by
  unfold readId
  split
  · exact fail_breaks _ _
  · rename_i raw given
    split
    · rename_i decimal
      unfold numeral
      split
      · rename_i none
        exact .error (.inr (.numeral given decimal ((readInteger_none decimal).mp none)))
      · exact .ok _
    · exact fail_breaks _ _

theorem readId_unread {element : Element} {fault : Fault} (unread : UnreadId element fault) :
    readId element = .error fault := by
  obtain ⟨given,decimal,why⟩ := unread
  have none := (readInteger_none decimal).mpr why
  simp only [readId,given,decimal,if_true,numeral,none]

section
variable {tables : TableSet}

theorem requiredValue_fails {unread : Fault → Prop} (id : Int) (element : Element) :
    Fails (Breaks unread) (requiredValue id element) := by
  unfold requiredValue
  split
  · exact fail_breaks _ _
  · exact .ok _

theorem decimal_long {raw : String} (decimal : isDecimal raw.toList = true) :
    readInteger raw.toList = if raw.toList.length ≤ digitLimit then some (digitsValue raw.toList : Int) else none := by
  rw [isDecimal,Bool.and_eq_true,List.all_eq_true] at decimal
  exact readInteger_plain (by simpa using decimal.1) decimal.2

theorem readArgument_decimal {row : CommandRow} (fits : row.command.payload = .data) (has : row.hasArgument = true)
    (id : Int) {element : Element} {raw : String} (given : element.get? valueName = some raw)
    (decimal : isDecimal raw.toList = true) : readArgument id row element =
      if raw.toList.length ≤ digitLimit then
        if row.isWhole then
          if row.maxArgument < digitsValue raw.toList then fail (.invalidValue id element.tag raw) (some raw)
          else .ok (.argument row.command (Bytes.littleEndian row.argumentSize (digitsValue raw.toList)) fits)
        else .error .notAnInteger
      else .error (.value (.notANumeral raw)) := by
  have value : requiredValue id element = .ok raw := by rw [requiredValue,given]
  have read : readArgument id row element = numeral raw >>= fun value => row.argumentBound >>= fun bound =>
      if bound < value then fail (.invalidValue id element.tag raw) (some raw)
      else row.argumentBytes value >>= fun data => Entry.build row.command none (some data) := by
    rw [readArgument,value]
    exact if_pos decimal
  rw [read,numeral,decimal_long decimal]
  by_cases short : raw.toList.length ≤ digitLimit
  · rw [if_pos short,if_pos short]
    refine (Script.argument_built fits has _ _).trans ?_
    simp only [Int.natCast_nonneg,if_true,Int.toNat_natCast,Int.ofNat_lt]
  · rw [if_neg short,if_neg short]
    rfl

theorem readArgument_fails {row : CommandRow} (fits : row.command.payload = .data) (has : row.hasArgument = true)
    (id : Int) {element : Element}
    (command : ∀ tag ∈ [textTag,complexTag,iconTag,newLineTag], element.tag ≠ tag)
    (named : tables.commands.byName? element.tag = some row) :
    Fails (Breaks fun fault => ∃ raw, UnreadValue tables element row raw fault) (readArgument id row element) := by
  cases given : element.get? valueName with
  | none =>
    rw [readArgument,requiredValue,given]
    exact fail_breaks _ _
  | some raw =>
    by_cases decimal : isDecimal raw.toList = true
    · rw [readArgument_decimal fits has id given decimal]
      split
      · rename_i short
        split
        · split
          · exact fail_breaks _ _
          · exact .ok _
        · rename_i real
          exact .error (.inr ⟨raw,command,named,has,given,decimal,.real short (by simpa using real)⟩)
      · rename_i long
        exact .error (.inr ⟨raw,command,named,has,given,decimal,.long (by omega)⟩)
    · have value : requiredValue id element = .ok raw := by rw [requiredValue,given]
      rw [readArgument,value]
      refine Fails.bind (.ok raw) fun _ same => ?_
      cases same
      rw [if_neg decimal]
      exact fail_breaks _ _

theorem readCommand_fails (consistent : tables.Consistent) (id : Int) {element : Element}
    (command : ∀ tag ∈ [textTag,complexTag,iconTag,newLineTag], element.tag ≠ tag) :
    Fails (Breaks fun fault => ∃ row raw, UnreadValue tables element row raw fault) (readCommand tables id element) := by
  unfold readCommand
  split
  · exact fail_breaks _ _
  · rename_i row named
    obtain ⟨member,_⟩ := CommandTable.byName_mem named
    split
    · rename_i has
      intro fault failed
      have fits := (consistent.commands.payloads row member).2.mpr has
      rcases readArgument_fails fits has id command named fault failed with parse | ⟨raw,unread⟩
      · exact .inl parse
      · exact .inr ⟨row,raw,unread⟩
    · rename_i none
      split
      · exact fail_breaks _ _
      · rcases Entry.bare_or_newLine ((consistent.commands.bare member).mpr (by simpa using none)) with fits | line
        · rw [Entry.build_bare fits]
          exact .ok _
        · rw [line,Entry.build_newLine]
          exact .ok _

theorem readComplex_fails {unread : Fault → Prop} (id : Int) (element : Element) :
    Fails (Breaks unread) (readComplex tables id element) := by
  refine (requiredValue_fails id element).bind fun key _ => ?_
  split
  · rw [Entry.build_complex]
    exact .ok _
  · exact fail_breaks _ _

theorem readIcon_fails {unread : Fault → Prop} (few : tables.commands.icons.length ≤ 256) (id : Int) (element : Element) :
    Fails (Breaks unread) (readIcon tables id element) := by
  refine (requiredValue_fails id element).bind fun name _ => ?_
  split
  · exact fail_breaks _ _
  · rename_i icon known
    obtain ⟨entry,built⟩ := Script.icon_built few known
    rw [built]
    exact .ok _

theorem readEntry_fails (consistent : tables.Consistent) (few : tables.commands.icons.length ≤ 256) (id : Int)
    (element : Element) :
    Fails (Breaks fun fault => ∃ row raw, UnreadValue tables element row raw fault) (readEntry tables id element) := by
  unfold readEntry
  split
  · split
    · exact .ok _
    · split <;> exact .ok _
  · rename_i text
    split
    · exact .ok _
    · rename_i newLine
      split
      · exact (readComplex_fails id element).map
      · rename_i complex
        split
        · exact (readIcon_fails few id element).map
        · rename_i icon
          exact (readCommand_fails consistent id (by simp [text,newLine,complex,icon])).map

theorem readArgument_unread (consistent : tables.Consistent) {element : Element} {row : CommandRow} {raw : String}
    {fault : Fault} (unread : UnreadValue tables element row raw fault) (id : Int) :
    readArgument id row element = .error fault := by
  obtain ⟨_,named,has,given,decimal,balks⟩ := unread
  have fits := (consistent.commands.payloads row (CommandTable.byName_mem named).1).2.mpr has
  rw [readArgument_decimal fits has id given decimal]
  cases balks with
  | long many => exact if_neg (by omega)
  | real few real => rw [if_pos few,if_neg (by simp [real])]

theorem readEntry_unread (consistent : tables.Consistent) {element : Element} {row : CommandRow} {raw : String}
    {fault : Fault} (unread : UnreadValue tables element row raw fault) (id : Int) :
    readEntry tables id element = .error fault := by
  have argument := readArgument_unread consistent unread id
  obtain ⟨command,named,has,_⟩ := unread
  simp only [List.forall_mem_cons] at command
  rw [readEntry,if_neg command.1,if_neg command.2.2.2.1,if_neg command.2.1,if_neg command.2.2.1]
  simp only [readCommand,named,has,if_true,argument]
  rfl

theorem readEntries_fails (consistent : tables.Consistent) (few : tables.commands.icons.length ≤ 256) (id : Int)
    (elements : List Element) :
    Fails (Breaks fun fault => UnreadEntries tables id fault elements) (readEntries tables id elements) := by
  induction elements with
  | nil => exact .ok _
  | cons element rest ih =>
    intro fault failed
    rcases bind_error.mp failed with first | ⟨head,read,failed⟩
    · rcases readEntry_fails consistent few id element fault first with parse | ⟨row,raw,unread⟩
      · exact .inl parse
      · exact .inr (.here unread)
    · rcases bind_error.mp failed with others | ⟨_,_,made⟩
      · exact (ih fault others).imp_right (.later read)
      · cases made

theorem readEntries_unread (consistent : tables.Consistent) {id : Int} {elements : List Element} {fault : Fault}
    (unread : UnreadEntries tables id fault elements) : readEntries tables id elements = .error fault := by
  induction unread with
  | here unread => exact bind_error.mpr (.inl (readEntry_unread consistent unread id))
  | later read _ ih => exact bind_error.mpr (.inr ⟨_,read,bind_error.mpr (.inl ih)⟩)

theorem deserialize_fails (consistent : tables.Consistent) (few : tables.commands.icons.length ≤ 256)
    (element : Element) : Fails (Breaks (Unread tables element)) (deserialize tables element) := by
  intro fault failed
  rcases bind_error.mp failed with wrong | ⟨_,expected,failed⟩
  · exact expectTag_fails _ _ fault wrong
  · have tag := expectTag_ok.mp expected
    rcases bind_error.mp failed with first | ⟨id,numbered,failed⟩
    · exact (readId_fails element fault first).imp_right (.id tag)
    · rcases bind_error.mp failed with others | ⟨_,_,made⟩
      · exact (readEntries_fails consistent few id _ fault others).imp_right (.entries tag numbered)
      · cases made

theorem deserialize_unread (consistent : tables.Consistent) {element : Element} {fault : Fault}
    (unread : Unread tables element fault) : deserialize tables element = .error fault := by
  cases unread with
  | id tag unread =>
    exact bind_error.mpr (.inr ⟨(),expectTag_ok.mpr tag,bind_error.mpr (.inl (readId_unread unread))⟩)
  | entries tag numbered unread =>
    exact bind_error.mpr (.inr ⟨(),expectTag_ok.mpr tag,bind_error.mpr (.inr ⟨_,numbered,
      bind_error.mpr (.inl (readEntries_unread consistent unread))⟩)⟩)

end
end GameText.Document
