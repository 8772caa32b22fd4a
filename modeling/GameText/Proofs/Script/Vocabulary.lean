import GameText.Proofs.Script.Fault
import GameText.Proofs.Script.RoundTrip

namespace GameText
open Outcome Sheet Text

-- A command with as much data as its row asks for.
structure CommandRow.Carries (row : CommandRow) (entry : Entry) : Prop where
  command : entry.command = row.command
  width : ((entry.data?.getD []).length : Int) = row.width

theorem CommandRow.Carries.cases {tables : TableSet} (consistent : tables.Consistent) {row : CommandRow}
    (member : row ∈ tables.commands.rows) (line : row.command ≠ .newLine) {entry : Entry} (carries : row.Carries entry) :
    (∃ fits, entry = .bare row.command fits) ∨
      ∃ data fits, data.length = row.argumentSize ∧ entry = .argument row.command data fits := by
  have textless := (consistent.commands.payloads row member).1
  obtain ⟨same,width⟩ := carries
  cases entry with
  | text content => exact absurd (congrArg Command.payload same).symm textless
  | complex key => exact absurd (congrArg Command.payload same).symm textless
  | lineBreak strayText strayData => exact absurd same.symm line
  | bare command fits =>
    cases same
    exact .inl ⟨fits,rfl⟩
  | argument command data fits =>
    cases same
    change (data.length : Int) = row.width at width
    refine .inr ⟨data,fits,?_,rfl⟩
    rw [CommandRow.argumentSize]
    omega

namespace Script

-- The characters that structure a script, with the line feed that breaks its lines.
def reserved : List Char := ['\x7b','\x7d','\n']

section
variable {tables : TableSet}

theorem parse_token {content : List Char} (inside : Plain content) :
    parse tables (String.ofList (tokenOf content)) = (tokenEntry tables content 0).map fun entry => [entry] := by
  have nothing : Plain [] := List.forall_mem_nil _
  have alone := @entriesFrom_piece tables _ _ nothing inside 0 []
  rw [List.nil_append,List.append_nil,entriesFrom_plain nothing] at alone
  rw [parse,String.toList_ofList,alone]
  cases tokenEntry tables content 0 <;> rfl

theorem serialize_single (entry : Entry) : serialize tables [entry] = entryText tables entry := by
  rw [serialize_step]
  cases entryText tables entry <;> simp [serialize]

theorem parse_legible (consistent : tables.Consistent) {entry : Entry} (legible : Legible tables entry) :
    ∃ text, entryText tables entry = .ok text ∧ parse tables text = .ok (Message.flat [entry]) := by
  obtain ⟨text,written,scripted⟩ := serialize_legible (List.forall_mem_singleton.mpr legible)
  rw [serialize_single] at written
  exact ⟨text,written,(parse_exact consistent).mpr scripted⟩

theorem parse_text (consistent : tables.Consistent) {content : String} (filled : content ≠ "") :
    parse tables content = .ok [.text content] ↔ Plain content.toList := by
  constructor
  · intro parsed
    rcases entriesFrom_read parsed with ⟨plain,_⟩ | ⟨run,inside,after,entry,rest,_,_,_,made,_,same⟩
    · exact plain
    · exfalso
      unfold literal at same
      split at same
      · cases same
        cases (tokenEntry_exact consistent).mp made
      · simp at same
  · intro plain
    have nonempty : content.toList.isEmpty = false := by simpa using filled
    rw [parse,entriesFrom_plain plain,literal,nonempty,String.ofList_toList]
    rfl

theorem reserved_brace {c : Char} : c ∉ reserved ↔ isBrace c = false ∧ c ≠ '\n' := by
  simp [reserved,isBrace,isOpen,isClose,and_assoc]

theorem parse_unbraced {c : Char} {entries : Message} (parsed : parse tables (String.singleton c) = .ok entries) :
    isBrace c = false := by
  rw [parse,String.toList_singleton,← List.nil_append [c]] at parsed
  rw [Bool.eq_false_iff]
  intro brace
  rcases (Bool.or_eq_true _ _).mp brace with opens | closes
  · rw [of_decide_eq_true opens,entriesFrom_open (List.forall_mem_nil _)] at parsed
    cases parsed
  · rw [of_decide_eq_true closes,entriesFrom_close (List.forall_mem_nil _)] at parsed
    cases parsed

theorem char_bytes (loaded : tables.Loaded) {c : Char} {bytes : Bytes} :
    (∃ last, Wire.encode tables [.text (String.singleton c)] = .ok (bytes ++ [last])) ↔
      Wire.charBytes tables 0 c = .ok bytes := by
  have single : ∀ {piece}, Wire.entryBytes tables 0 (.text (String.singleton c)) = .ok piece ↔
      Wire.charBytes tables 0 c = .ok piece := by
    intro piece
    rw [Wire.entryBytes,String.toList_singleton,Wire.textBytes_cons]
    simp [Wire.textBytes]
  obtain ⟨last,terminator⟩ := loaded.formed.terminator.made
  have ended : Wire.encodeFrom tables 1 [] = .ok [last] :=
    bind_ok.mpr ⟨last,Wire.byte_exact.mpr (Bytes.byteOf_exact.mp terminator),rfl⟩
  constructor
  · rintro ⟨_,encoded⟩
    obtain ⟨piece,rest,first,others,same⟩ := Wire.encodeFrom_cons.mp encoded
    cases others.symm.trans ended
    obtain ⟨rfl,_⟩ := List.append_inj' same rfl
    exact single.mp first
  · intro first
    exact ⟨last,Wire.encodeFrom_cons.mpr ⟨bytes,[last],single.mpr first,ended,rfl⟩⟩

theorem glyph_recalled (loaded : tables.Loaded) {c : Char} {code : Bytes}
    (member : (c,code) ∈ tables.characters.glyphs) :
    (∃ entries last, parse tables (String.singleton c) = .ok entries ∧
      Wire.encode tables entries = .ok (code ++ [last])) ↔ c ∉ reserved := by
  have consistent := loaded.accepted.consistent
  have filled : String.singleton c ≠ "" := by simp
  have plain : Plain (String.singleton c).toList ↔ isBrace c = false := by simp [Plain]
  have text := (parse_text consistent filled).trans plain
  rw [reserved_brace]
  constructor
  · rintro ⟨entries,last,parsed,encoded⟩
    have unbraced := parse_unbraced parsed
    refine ⟨unbraced,?_⟩
    rintro rfl
    cases parsed.symm.trans (text.mpr unbraced)
    obtain ⟨head,opcode,rfl⟩ := Wire.charBytes_exact.mp ((char_bytes loaded).mp ⟨last,encoded⟩)
    obtain ⟨_,_,same,_,unclaimed⟩ := Wire.glyph_code consistent member
    cases same
    obtain ⟨row,found,same⟩ := CommandTable.newLine_row tables.commands
    have claimed := Wire.byOpcode_head consistent (CommandTable.rowFor_mem found).1 (same.trans opcode)
    cases claimed.symm.trans unclaimed
  · rintro ⟨unbraced,unbroken⟩
    have bytes : Wire.charBytes tables 0 c = .ok code := by
      rw [Wire.charBytes_exact,if_neg unbroken]
      exact consistent.characters.encodeChar member
    obtain ⟨last,encoded⟩ := (char_bytes loaded).mpr bytes
    exact ⟨_,last,text.mpr unbraced,encoded⟩

theorem decoded_text (loaded : tables.Loaded) {data : Bytes} {entries : List Entry}
    (decoded : Wire.decode tables data = .ok entries) {content : String} (member : .text content ∈ entries) :
    content ≠ "" ∧ ∀ c ∈ content.toList, ∃ code, (c,code) ∈ tables.characters.glyphs := by
  obtain ⟨⟨read,after⟩,reading,rfl⟩ := map_ok.mp decoded
  obtain ⟨tokens,stop,straight,rfl,_⟩ := Wire.read_straight loaded.accepted.consistent loaded.advancing reading
  obtain ⟨_,_,_,stream,_⟩ := Wire.stream_of_read loaded.accepted.consistent straight
  have pieces := stream.pieces
  rcases Wire.entriesOf_mem member with ⟨run,filled,glyphs,same⟩ | inside
  · cases same
    refine ⟨by simpa using filled,fun c within => ?_⟩
    rw [String.toList_ofList] at within
    obtain ⟨code,spelled⟩ := pieces _ (glyphs c within)
    cases spelled with
    | glyph listed => exact ⟨code,listed⟩
  · obtain ⟨_,spelled⟩ := pieces _ inside
    cases spelled

-- The inside of the token for a command under its name.
def commandContent (name : List Char) : Option Bytes → List Char
  | none => ':' :: name
  | some data => argumentContent name (CommandRow.argumentValue data)

def commandText (name : String) (entry : Entry) : String :=
  String.ofList (tokenOf (commandContent name.toList entry.data?))

-- An icon that has a name is written by that name instead.
def Symbolic (tables : TableSet) (entry : Entry) : Prop :=
  entry.command = .printIcon ∧ (iconName? tables (entry.data?.getD [])).isSome

theorem lowerWord_identifier {word : List Char} (lower : LowerWord word) : Identifier word := by
  have letter : ∀ {c : Char}, 'a' ≤ c ∧ c ≤ 'z' → isNameStart c = true := by
    intro c range
    simp [isNameStart,range]
  cases word with
  | nil => exact lower
  | cons head rest =>
    refine ⟨letter lower.1,fun c member => ?_⟩
    have word := lower.2 c member
    simp only [isLowerWord,Bool.or_eq_true,Bool.and_eq_true,decide_eq_true_eq] at word
    rcases word with (range | digit) | underscore
    · rw [isNameChar,letter range,Bool.true_or]
    · rw [isNameChar,digit,Bool.or_true]
    · simp [isNameChar,isNameStart,underscore]

theorem commandContent_plain {name : List Char} (plain : Plain name) (data : Option Bytes) :
    Plain (commandContent name data) := by
  have digit : ∀ value, Plain (digits value) := fun value c member =>
    nameChar_plain (by rw [isNameChar,digits_ascii value c member,Bool.or_true])
  have colon : isBrace ':' = false := by decide
  have blank : isBrace ' ' = false := by decide
  cases data with
  | none => exact List.forall_mem_cons.mpr ⟨colon,plain⟩
  | some data =>
    refine List.forall_mem_cons.mpr ⟨colon,List.forall_mem_append.mpr ⟨plain,?_⟩⟩
    exact List.forall_mem_cons.mpr ⟨blank,digit _⟩

-- A line feed after a name counts as the white space that ends it.
theorem commandContent_fed {word : List Char} (identifier : Identifier word) (data : Option Bytes) :
    ∃ rest argument, commandContent (word ++ ['\n']) data = ':' :: rest ∧ commandToken? rest = some ⟨word,argument⟩ := by
  have feed : isBlank '\n' = true := by decide
  cases data with
  | none =>
    have given := argument_blank.mpr (List.forall_mem_singleton.mpr feed)
    exact ⟨word ++ ['\n'],none,rfl,commandToken_exact.mpr ⟨['\n'],rfl,identifier,given⟩⟩
  | some data =>
    let number := digits (CommandRow.argumentValue data)
    have solid : ∀ c ∈ number, isBlank c = false := fun c member => ascii_solid (digits_ascii _ c member)
    have blank : Blank ['\n',' '] := List.forall_mem_cons.mpr ⟨feed,List.forall_mem_singleton.mpr (by decide)⟩
    have given := argument_word.mpr
      ⟨['\n',' '],[],rfl,List.cons_ne_nil _ _,blank,digits_nonempty _,solid,List.forall_mem_nil _⟩
    refine ⟨_,some number,?_,commandToken_exact.mpr ⟨_,rfl,identifier,given⟩⟩
    simp [commandContent,argumentContent]

theorem denoted_row {content word : List Char} {argument : Option (List Char)} {entry : Entry}
    (reading : commandToken? content = some ⟨word,argument⟩) (meaning : Denotes tables (':' :: content) entry) :
    ∃ row ∈ tables.commands.rows, row.name = some (String.ofList word) ∧ entry.command = row.command := by
  cases meaning with
  | complex symbol => exact absurd rfl symbol
  | icon symbol => exact absurd rfl symbol
  | lineBreak again named command =>
    cases reading.symm.trans again
    obtain ⟨member,name⟩ := CommandTable.byName_mem named
    exact ⟨_,member,name,command.symm⟩
  | bare again named =>
    cases reading.symm.trans again
    obtain ⟨member,name⟩ := CommandTable.byName_mem named
    exact ⟨_,member,name,rfl⟩
  | argument again named =>
    cases reading.symm.trans again
    obtain ⟨member,name⟩ := CommandTable.byName_mem named
    exact ⟨_,member,name,rfl⟩

-- Under a name with a line feed the word before it is looked for, which is at best the name
-- of another row.
theorem command_astray (loaded : tables.Loaded) {row : CommandRow} (member : row ∈ tables.commands.rows)
    {name : String} (named : row.name = some name) (fed : name.toList.getLast? = some '\n') {entry : Entry}
    {entries : Message} (parsed : parse tables (commandText name entry) = .ok entries) :
    ∃ other ∈ tables.commands.rows, other.name = some (String.ofList (withoutFinalNewline name.toList)) ∧
      other.command ≠ row.command ∧ entries.map Entry.command = [other.command] := by
  have consistent := loaded.accepted.consistent
  have identifier := lowerWord_identifier ((loaded.formed.rows row member).name name named)
  have split := ((withoutFinalNewline_cases name.toList).resolve_left fun other => other.1 fed).2
  generalize withoutFinalNewline name.toList = word at identifier split ⊢
  have plain : Plain name.toList := by
    rw [split]
    exact List.forall_mem_append.mpr ⟨fun c member => nameChar_plain (identifier.chars c member),
      List.forall_mem_singleton.mpr (by decide)⟩
  rw [commandText,parse_token (commandContent_plain plain entry.data?)] at parsed
  obtain ⟨made,token,rfl⟩ := map_ok.mp parsed
  have meaning := (tokenEntry_exact consistent).mp token
  obtain ⟨rest,argument,content,reading⟩ := commandContent_fed identifier entry.data?
  rw [split,content] at meaning
  obtain ⟨other,listed,found,same⟩ := denoted_row reading meaning
  refine ⟨other,listed,found,fun equal => ?_,congrArg (fun command => [command]) same⟩
  cases (consistent.commands.rowFor member).symm.trans (equal ▸ consistent.commands.rowFor listed)
  cases named.symm.trans found
  simp at split

section
variable (loaded : tables.Loaded) {row : CommandRow} (member : row ∈ tables.commands.rows) {name : String}
  (named : row.name = some name) (line : row.command ≠ .newLine) {entry : Entry} (carries : row.Carries entry)
include loaded member named line carries

theorem command_shown (unsymbolic : ¬ Symbolic tables entry) : entryText tables entry = .ok (commandText name entry) := by
  have consistent := loaded.accepted.consistent
  rcases carries.cases consistent member line with ⟨fits,rfl⟩ | ⟨data,fits,width,rfl⟩
  · exact bare_shown consistent member named fits
  · have unnamed : row.command = .printIcon → iconName? tables data = none := by
      intro printed
      cases known : iconName? tables data with
      | none => rfl
      | some symbol => exact absurd ⟨printed,Option.isSome_of_eq_some known⟩ unsymbolic
    rw [entryText_argument unnamed fits]
    exact argument_shown consistent member named (loaded.formed.short member width)

omit line carries in
theorem name_identifier (ends : name.toList.getLast? ≠ some '\n') : Identifier name.toList := by
  have lower : LowerWord _ := (loaded.formed.rows row member).name name named
  rw [((withoutFinalNewline_cases name.toList).resolve_right fun fed => ends fed.1).2] at lower
  exact lowerWord_identifier lower

theorem command_recalled (spelled : Symbolic tables entry ∨
    name.toList.getLast? ≠ some '\n' ∧ (row.hasArgument = true → row.isWhole = true)) :
    ∃ text, entryText tables entry = .ok text ∧ parse tables text = .ok [entry] := by
  have consistent := loaded.accepted.consistent
  have back : Legible tables entry ∧ Message.flat [entry] = [entry] →
      ∃ text, entryText tables entry = .ok text ∧ parse tables text = .ok [entry] := by
    intro ⟨legible,same⟩
    obtain ⟨text,written,scripted⟩ := parse_legible consistent legible
    exact ⟨text,written,same ▸ scripted⟩
  by_cases symbol : Symbolic tables entry
  · obtain ⟨printed,icon⟩ := symbol
    obtain ⟨symbol,known⟩ := Option.isSome_iff_exists.mp icon
    rcases carries.cases consistent member line with ⟨fits,rfl⟩ | ⟨data,fits,_,rfl⟩
    · cases known
    · match data,known with
      | [byte],known =>
        change row.command = .printIcon at printed
        simp only [printed] at back ⊢
        exact back ⟨legible_icon consistent loaded.formed known _,rfl⟩
  · obtain ⟨ends,whole⟩ := spelled.resolve_left symbol
    have identifier := name_identifier loaded member named ends
    rcases carries.cases consistent member line with ⟨fits,rfl⟩ | ⟨data,fits,width,rfl⟩
    · exact back ⟨legible_bare consistent member named identifier fits,rfl⟩
    · have has := (consistent.commands.payloads row member).2.mp fits
      exact back ⟨legible_argument consistent loaded.formed member named identifier fits (whole has) width,rfl⟩

theorem command_unmeasured (ends : name.toList.getLast? ≠ some '\n') (has : row.hasArgument = true)
    (real : row.isWhole = false) : parse tables (commandText name entry) = .error .notAnInteger := by
  have consistent := loaded.accepted.consistent
  have identifier := name_identifier loaded member named ends
  rcases carries.cases consistent member line with ⟨fits,rfl⟩ | ⟨data,fits,width,rfl⟩
  · cases ((consistent.commands.bare member).mp (Entry.payload_of_bare fits)).symm.trans has
  · have few := argument_digits (loaded.formed.short member width)
    refine parse_founders consistent ?_
    rw [commandText,String.toList_ofList]
    exact argument_founders identifier (consistent.commands.byName member named) has (digits_nonempty _)
      (digits_ascii _) (.real few real)

end

theorem line_shown {entry : Entry} (line : entry.command = .newLine) : entryText tables entry = .ok "\n" := by
  cases entry with
  | lineBreak strayText strayData => rfl
  | bare command fits =>
    cases line
    cases fits
  | argument command data fits =>
    cases line
    cases fits
  | _ => cases line

theorem icon_recalled (loaded : tables.Loaded) {id : Nat} {name : String}
    (place : tables.commands.icons[id]? = some name) :
    ∃ byte, byte.toNat = id ∧ parse tables (symbolText name) = .ok [.argument .printIcon [byte] rfl] := by
  have few := loaded.formed.few
  have inside := (List.getElem?_eq_some_iff.mp place).1
  have number : (UInt8.ofNat id).toNat = id := UInt8.toNat_ofNat_of_lt' (by change id < 256; omega)
  have icon : iconName? tables [UInt8.ofNat id] = some name := by
    simp [iconName?,CommandTable.iconName?,number,place]
  have shown : entryText tables (.argument .printIcon [UInt8.ofNat id] rfl) = .ok (symbolText name) := by
    simp only [entryText,if_true,icon]
  have consistent := loaded.accepted.consistent
  obtain ⟨text,written,parsed⟩ := parse_legible consistent (legible_icon consistent loaded.formed icon rfl)
  cases shown.symm.trans written
  exact ⟨_,number,parsed⟩

-- What the tables say and how scripts read it. A character comes back from a script with its
-- bytes where it is not reserved, and text that was decoded where it has no brace. A named
-- command is read as itself where an icon's name stands for it or its own name is one word,
-- and otherwise as a command of another row or not at all; an argument is not read where the
-- width is a real number. A line break is a line feed, and the symbols stand for themselves.
theorem parse_vocabulary (loaded : tables.Loaded) :
    (∀ glyph ∈ tables.characters.glyphs,
      (∃ entries last, parse tables (String.singleton glyph.1) = .ok entries ∧
        Wire.encode tables entries = .ok (glyph.2 ++ [last])) ↔ glyph.1 ∉ reserved) ∧
    (∀ data entries, Wire.decode tables data = .ok entries → ∀ content, .text content ∈ entries →
      (∀ c ∈ content.toList, ∃ code, (c,code) ∈ tables.characters.glyphs) ∧
        (parse tables content = .ok [.text content] ↔ ∀ c ∈ content.toList, isBrace c = false)) ∧
    (∀ row ∈ tables.commands.rows, ∀ name, row.name = some name → row.command ≠ .newLine →
      ∀ entry, row.Carries entry →
        (¬ Symbolic tables entry → serialize tables [entry] = .ok (commandText name entry)) ∧
        (Symbolic tables entry ∨ name.toList.getLast? ≠ some '\n' ∧ (row.hasArgument = true → row.isWhole = true) →
          ∃ text, serialize tables [entry] = .ok text ∧ parse tables text = .ok [entry]) ∧
        (name.toList.getLast? ≠ some '\n' → row.hasArgument = true → row.isWhole = false →
          parse tables (commandText name entry) = .error .notAnInteger) ∧
        (name.toList.getLast? = some '\n' → ∀ entries, parse tables (commandText name entry) = .ok entries →
          ∃ other ∈ tables.commands.rows, other.name = some (String.ofList (withoutFinalNewline name.toList)) ∧
            other.command ≠ row.command ∧ entries.map Entry.command = [other.command])) ∧
    (∀ entry : Entry, entry.command = .newLine → serialize tables [entry] = .ok "\n") ∧
    (∀ glyph ∈ tables.commands.complex, parse tables (symbolText glyph.1) = .ok [.complex glyph.1]) ∧
    ∀ id name, tables.commands.icons[id]? = some name →
      ∃ byte, byte.toNat = id ∧ parse tables (symbolText name) = .ok [.argument .printIcon [byte] rfl] := by
  have consistent := loaded.accepted.consistent
  refine ⟨fun glyph member => glyph_recalled loaded member,?_,?_,?_,?_,?_⟩
  · intro data entries decoded content member
    obtain ⟨filled,glyphs⟩ := decoded_text loaded decoded member
    exact ⟨glyphs,parse_text consistent filled⟩
  · intro row member name named line entry carries
    rw [serialize_single]
    exact ⟨command_shown loaded member named line carries,command_recalled loaded member named line carries,
      command_unmeasured loaded member named line carries,fun fed entries => command_astray loaded member named fed⟩
  · intro entry line
    rw [serialize_single]
    exact line_shown line
  · intro glyph member
    obtain ⟨text,written,parsed⟩ :=
      parse_legible consistent (legible_complex loaded.formed (consistent.commands.isComplex member))
    cases written
    exact parsed
  · exact fun id name => icon_recalled loaded

theorem parse_vocabulary_sample :
    (∃ entries last, parse TableSet.sample "é" = .ok entries ∧
      Wire.encode TableSet.sample entries = .ok ([0x1A,0x00] ++ [last])) ∧
    (∃ text, serialize TableSet.sample [.argument .delay [0x00,0x02] rfl] = .ok text ∧
      parse TableSet.sample text = .ok [.argument .delay [0x00,0x02] rfl]) ∧
    serialize TableSet.sample [.lineBreak none none] = .ok "\n" ∧
    parse TableSet.sample (symbolText "square") = .ok [.complex "square"] ∧
    ∃ byte, byte.toNat = 0 ∧ parse TableSet.sample (symbolText "item-key") = .ok [.argument .printIcon [byte] rfl] := by
  obtain ⟨glyphs,_,commands,lines,keys,icons⟩ := parse_vocabulary TableSet.sample_loaded
  have delay := commands ⟨.delay,0x14,2,some "delay",.whole⟩ (by decide) "delay" rfl (by decide)
    (.argument .delay [0x00,0x02] rfl) ⟨rfl,rfl⟩
  exact ⟨(glyphs ('é',[0x1A,0x00]) (by decide)).mpr (by decide),delay.2.1 (.inr ⟨by decide,fun _ => rfl⟩),lines _ rfl,
    keys ("square",[0x1A,0x02]) (by decide),icons 0 "item-key" rfl⟩

-- Tables with glyphs for the characters that structure a script, and with two names that
-- differ in a line feed.
def structured : TableSet where
  characters := ⟨"structured",[('\x7b',[0x61]),('\x7d',[0x62]),('\n',[0x63])],[]⟩
  commands := ⟨"structured",0x00,
    [⟨.newLine,0x02,0,none,.whole⟩,⟨.reset,0x03,0,some "reset\n",.whole⟩,⟨.printIcon,0x09,1,none,.whole⟩,⟨.clear,0x10,0,some "reset",.whole⟩],
    [],[],by decide⟩

def structuredCharacters : CharacterSheet := ⟨"structured",[],[⟨0x61,"\x7b\x7d\n"⟩],[]⟩

def structuredCommands : CommandSheet :=
  ⟨"structured",0x00,[⟨"NEW_LINE",0x02,0,none,.whole⟩,⟨"RESET",0x03,0,some "reset\n",.whole⟩,⟨"PRINT_ICON",0x09,1,none,.whole⟩,
    ⟨"CLEAR",0x10,0,some "reset",.whole⟩]⟩

def structuredSymbols : SymbolSheet := ⟨"structured",[],[]⟩

theorem structured_loaded : structured.Loaded :=
  TableDirectory.written_loaded structuredCharacters structuredCommands structuredSymbols
    (by decide +kernel) (by decide +kernel) (by decide +kernel) rfl

theorem parse_vocabulary_structured :
    (¬ ∀ tables : TableSet, tables.Loaded → ∀ glyph ∈ tables.characters.glyphs, glyph.1 ∉ reserved) ∧
    ¬ ∀ tables : TableSet, tables.Loaded → ∀ row ∈ tables.commands.rows, ∀ name, row.name = some name →
      row.command ≠ .newLine → ∀ entry, row.Carries entry →
        ∃ text, serialize tables [entry] = .ok text ∧ parse tables text = .ok [entry] := by
  constructor
  · intro law
    have brace := law structured structured_loaded ('\x7b',[0x61]) (by decide)
    exact absurd brace (by decide)
  · intro law
    obtain ⟨text,written,parsed⟩ := law structured structured_loaded ⟨.reset,0x03,0,some "reset\n",.whole⟩ (by decide)
      "reset\n" rfl (by decide) (.bare .reset rfl) ⟨rfl,rfl⟩
    have shown : serialize structured [.bare .reset rfl] = .ok "\x7b:reset\n\x7d" := by decide +kernel
    cases shown.symm.trans written
    have clear : parse structured "\x7b:reset\n\x7d" = .ok [.bare .clear rfl] := by decide +kernel
    cases clear.symm.trans parsed

end
end Script
end GameText
