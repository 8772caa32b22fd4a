import GameText.Proofs.Tables.Set
import GameText.Proofs.Tables.Sheet
import GameText.Tables.Assets

namespace GameText
open Outcome Sheet Text

-- What the form of the sheets guarantees beyond the checks of the tables.
structure CommandTable.Formed (table : CommandTable) : Prop where
  terminator : IsByte table.terminator
  rows : ∀ row ∈ table.rows, RowForm row.opcode row.width row.name
  keys : ∀ glyph ∈ table.complex, SymbolForm glyph.1
  codes : ∀ glyph ∈ table.complex, glyph.2.length = 1 ∨ glyph.2.length = 2
  icons : ∀ icon ∈ table.icons, SymbolForm icon
  few : table.icons.length ≤ 256

theorem CommandTable.Formed.short {table : CommandTable} (formed : table.Formed) {row : CommandRow}
    (member : row ∈ table.rows) {data : Bytes} (width : data.length = row.argumentSize) : data.length ≤ 8 := by
  have range := (formed.rows row member).width
  rw [width,CommandRow.argumentSize]
  omega

-- Tables that come from files: those of a directory, or the packaged ones.
inductive TableSet.Loaded : TableSet → Prop where
  | directory {tables : TableSet} (host : Host) (source : TableDirectory) (reading : source.read host = .ok tables) :
      Loaded tables
  | packaged {tables : TableSet} (reading : Packaged.tables = .ok tables) : Loaded tables

theorem CommandSheetRow.build_same {source : CommandSheetRow} {row : CommandRow} (built : source.build = .ok row) :
    row.opcode = source.opcode ∧ row.width = source.width ∧ row.name = source.name := by
  unfold build at built
  split at built
  · cases built
  · cases built
    exact ⟨rfl,rfl,rfl⟩

theorem CommandSheet.build_formed {sheet : CommandSheet} {symbols : SymbolSheet} {table : CommandTable}
    (rows : sheet.Formed) (glyphs : symbols.Formed) (built : sheet.build symbols = .ok table) :
    table.Formed := by
  obtain ⟨made,builtRows,built⟩ := bind_ok.mp built
  obtain ⟨_,sameTerminator,sameRows,sameComplex,sameIcons⟩ := CommandTable.ofRows_fields built
  refine ⟨sameTerminator ▸ rows.terminator,fun row member => ?_,sameComplex ▸ glyphs.keys,
    sameComplex ▸ glyphs.codes,sameIcons ▸ glyphs.icons,sameIcons ▸ glyphs.few⟩
  obtain ⟨source,present,copied⟩ := mapM_made builtRows row (sameRows ▸ member)
  obtain ⟨opcode,width,name⟩ := CommandSheetRow.build_same copied
  rw [opcode,width,name]
  exact rows.rows source present

theorem TableSet.ofTables_same {characters : CharacterTable} {commands : CommandTable} {tables : TableSet}
    (built : ofTables characters commands = .ok tables) : tables = ⟨characters,commands⟩ := by
  obtain ⟨_,_,made⟩ := bind_ok.mp built
  obtain ⟨_,_,made⟩ := bind_ok.mp made
  obtain ⟨_,_,made⟩ := bind_ok.mp made
  cases made
  rfl

theorem TableSet.ofSheets_accepted {characters : CharacterSheet} {commands : CommandSheet}
    {symbols : SymbolSheet} {tables : TableSet} (built : ofSheets characters commands symbols = .ok tables) :
    tables.Accepted ∧ commands.build symbols = .ok tables.commands := by
  obtain ⟨chars,builtChars,built⟩ := bind_ok.mp built
  obtain ⟨table,builtTable,checked⟩ := bind_ok.mp built
  cases ofTables_same checked
  have builtTable := mapError_ok.mp builtTable
  refine ⟨⟨?_,?_,checked⟩,builtTable⟩
  · obtain ⟨_,_,made⟩ := bind_ok.mp builtChars
    obtain ⟨glyphs,_,made⟩ := bind_ok.mp made
    have made := mapError_ok.mp made
    have id : chars.id = characters.id := by
      obtain ⟨_,_,same⟩ := bind_ok.mp made
      cases same; rfl
    exact ⟨glyphs,characters.prefixes,id ▸ made⟩
  · obtain ⟨rows,_,made⟩ := bind_ok.mp builtTable
    obtain ⟨id,terminator,_⟩ := CommandTable.ofRows_fields made
    refine ⟨rows,symbols.complex,symbols.icons,?_⟩
    rw [TableSet.terminator,id,terminator]
    exact made

theorem TableDirectory.sheetOf_ok {α : Type} {make : Json → Option α} {json : Json} {sheet : α} :
    sheetOf make json = .ok sheet ↔ make json = some sheet := by
  unfold sheetOf
  split <;> rename_i made <;> simp [made]

theorem TableDirectory.read_exact {host : Host} {directory : TableDirectory} {tables : TableSet} :
    directory.read host = .ok tables ↔ ∃ schemas glyphs rows tokens characters commands symbols,
      directory.readSchemas host = .ok schemas ∧
      directory.readDocument host schemas .characters = .ok glyphs ∧
      directory.readDocument host schemas .commands = .ok rows ∧
      directory.readDocument host schemas .symbols = .ok tokens ∧
      CharacterSheet.ofJson? glyphs = some characters ∧ CommandSheet.ofJson? rows = some commands ∧
      SymbolSheet.ofJson? tokens = some symbols ∧ TableSet.ofSheets characters commands symbols = .ok tables := by
  simp only [read,bind_ok,sheetOf_ok]
  grind

namespace TableSet.Loaded
variable {tables : TableSet}

theorem sheets (loaded : tables.Loaded) : ∃ characters commands symbols,
    ofSheets characters commands symbols = .ok tables ∧ commands.Formed ∧ symbols.Formed := by
  cases loaded with
  | packaged reading => exact ⟨_,_,_,reading,Packaged.commands_formed,Packaged.symbols_formed⟩
  | directory host source reading =>
    obtain ⟨_,_,_,_,characters,commands,symbols,_,_,_,_,_,formedRows,formedGlyphs,built⟩ :=
      TableDirectory.read_exact.mp reading
    exact ⟨characters,commands,symbols,built,CommandSheet.ofJson_formed formedRows,
      SymbolSheet.ofJson_formed formedGlyphs⟩

theorem accepted (loaded : tables.Loaded) : tables.Accepted := by
  obtain ⟨_,_,_,built,_,_⟩ := loaded.sheets
  exact (ofSheets_accepted built).1

theorem formed (loaded : tables.Loaded) : tables.commands.Formed := by
  obtain ⟨_,_,_,built,rows,glyphs⟩ := loaded.sheets
  exact CommandSheet.build_formed rows glyphs (ofSheets_accepted built).2

theorem advancing (loaded : tables.Loaded) : ∀ row ∈ tables.commands.rows, 0 ≤ row.width :=
  fun row member => (loaded.formed.rows row member).width.1

end TableSet.Loaded

namespace TableDirectory

theorem readJson_text {host : Host} {unreadable : TableError} {text : List Char} {json : Json}
    (reading : Json.read host.depth text = .ok json) : readJson host unreadable (encodeUtf8 text) = .ok json := by
  simp only [readJson,decode_encode_utf8,reading]

-- Three sheets as documents.
def documents (characters : CharacterSheet) (commands : CommandSheet) (symbols : SymbolSheet) : Category → Json
  | .characters => characters.toJson
  | .commands => commands.toJson
  | .symbols => symbols.toJson

def packagedSchemas : SchemaFiles := .listed (Category.all.map fun category =>
  (category.name ++ ".schema.json",some (encodeUtf8 (Packaged.schema category).written)))

-- A directory that holds sheets as they are written, and the packaged schemas.
def holding (sheet : Category → Json) : TableDirectory where
  path := ⟨"",["sample"]⟩
  schemas := packagedSchemas
  assets category := some (encodeUtf8 (sheet category).written)

-- A host for such directories, with room enough for what they hold.
def sampleHost : Host := Packaged.host 64

theorem schema_read (category : Category) : ∃ json, Json.read sampleHost.depth (Packaged.schema category).written = .ok json ∧
    json.written = (Packaged.schema category).written := by
  have back : (Json.read sampleHost.depth (Packaged.schema category).written).toOption.map Json.written =
      some (Packaged.schema category).written := by cases category <;> decide +kernel
  obtain ⟨json,reading,same⟩ := Option.map_eq_some_iff.mp back
  exact ⟨json,toOption_ok.mp reading,same⟩

theorem schemas_read {directory : TableDirectory} (packaged : directory.schemas = packagedSchemas) :
    ∃ schemas, directory.readSchemas sampleHost = .ok schemas ∧ ∀ category, ∃ schema,
      schemaFor? schemas category = some schema ∧ schema.written = (Packaged.schema category).written := by
  choose schema reading same using schema_read
  have each : ∀ category, directory.readSchema sampleHost
      (category.name ++ ".schema.json",some (encodeUtf8 (Packaged.schema category).written)) =
        .ok (category.name ++ ".schema.json",schema category) := by
    intro category
    simp only [readSchema,readJson_text (reading category)]
    rfl
  refine ⟨Category.all.map fun category => (category.name ++ ".schema.json",schema category),?_,fun category =>
    ⟨schema category,?_,same category⟩⟩
  · rw [readSchemas,packaged]
    refine mapM_each.mpr (List.forall₂_map_left_iff.mpr (List.forall₂_map_right_iff.mpr ?_))
    exact List.forall₂_same.mpr fun category _ => each category
  · have filled : schema category ≠ .null := by
      intro null
      have written := same category
      rw [null] at written
      cases category <;> exact absurd written (by decide +kernel)
    have found : (Category.all.map fun category => (category.name ++ ".schema.json",schema category)).lookup
        (category.name ++ ".schema.json") = some (schema category) := by
      cases category <;> rfl
    rw [schemaFor?,found]
    cases given : schema category with
    | null => exact absurd given filled
    | _ => rfl

theorem validate_packaged {given : Json} {category : Category} (same : given.written = (Packaged.schema category).written)
    (json : Json) : Packaged.validate given json = if Packaged.hasForm json category then .valid else .invalid := by
  have found : (Category.all.find? fun other => given.written = (Packaged.schema other).written) = some category := by
    rw [same]
    cases category <;> decide +kernel
  rw [Packaged.validate,found]

section
variable {sheet : Category → Json}

theorem holding_loaded {characters : CharacterSheet} {commands : CommandSheet} {symbols : SymbolSheet}
    {tables : TableSet}
    (readCharacters : (Json.read sampleHost.depth (sheet .characters).written).toOption.bind CharacterSheet.ofJson? =
      some characters)
    (readCommands : (Json.read sampleHost.depth (sheet .commands).written).toOption.bind CommandSheet.ofJson? = some commands)
    (readSymbols : (Json.read sampleHost.depth (sheet .symbols).written).toOption.bind SymbolSheet.ofJson? = some symbols)
    (built : TableSet.ofSheets characters commands symbols = .ok tables) : tables.Loaded := by
  obtain ⟨schemas,reading,found⟩ := @schemas_read (holding sheet) rfl
  have document : ∀ {category : Category} {json : Json}, Json.read sampleHost.depth (sheet category).written = .ok json →
      Packaged.hasForm json category = true →
      (holding sheet).readDocument sampleHost schemas category = .ok json := by
    intro category json text form
    obtain ⟨schema,known,same⟩ := found category
    have valid : sampleHost.validate schema json = .valid := (validate_packaged same json).trans (if_pos form)
    simp only [readDocument,known,holding,readJson_text text]
    exact bind_ok.mpr ⟨json,rfl,by rw [valid]⟩
  obtain ⟨glyphs,first,formGlyphs⟩ := Option.bind_eq_some_iff.mp readCharacters
  obtain ⟨rows,second,formRows⟩ := Option.bind_eq_some_iff.mp readCommands
  obtain ⟨tokens,third,formTokens⟩ := Option.bind_eq_some_iff.mp readSymbols
  refine .directory sampleHost (holding sheet) (read_exact.mpr ⟨schemas,glyphs,rows,tokens,characters,commands,symbols,
    reading,document (toOption_ok.mp first) ?_,document (toOption_ok.mp second) ?_,
    document (toOption_ok.mp third) ?_,formGlyphs,formRows,formTokens,built⟩)
  · exact Option.isSome_of_eq_some formGlyphs
  · exact Option.isSome_of_eq_some formRows
  · exact Option.isSome_of_eq_some formTokens

theorem written_loaded (characters : CharacterSheet) (commands : CommandSheet) (symbols : SymbolSheet) {tables : TableSet}
    (readCharacters : (Json.read sampleHost.depth characters.toJson.written).toOption.bind CharacterSheet.ofJson? =
      some characters)
    (readCommands : (Json.read sampleHost.depth commands.toJson.written).toOption.bind CommandSheet.ofJson? = some commands)
    (readSymbols : (Json.read sampleHost.depth symbols.toJson.written).toOption.bind SymbolSheet.ofJson? = some symbols)
    (built : TableSet.ofSheets characters commands symbols = .ok tables) : tables.Loaded :=
  @holding_loaded (documents characters commands symbols) _ _ _ _ readCharacters readCommands readSymbols built

end
end TableDirectory

namespace TableSet

-- Tables in which the escape prefix, the terminator and the opcodes all occur as
-- later bytes of tokens, and the sheets they are loaded from.
def sample : TableSet where
  characters := ⟨"sample",[('a',[0x61]),('é',[0x1A,0x00])],[0x1A]⟩
  commands := ⟨"sample",0x00,
    [⟨.newLine,0x02,0,none,.whole⟩,⟨.reset,0x03,0,some "reset",.whole⟩,⟨.printIcon,0x09,1,some "icon",.whole⟩,
     ⟨.delay,0x14,2,some "delay",.whole⟩],
    [("VII",[0x7A]),("square",[0x1A,0x02])],["item-key"],by decide⟩

def sampleCharacters : CharacterSheet := ⟨"sample",[0x1A],[⟨0x61,"a"⟩],[⟨0x1A,0x00,"é"⟩]⟩

def sampleCommands : CommandSheet :=
  ⟨"sample",0x00,[⟨"NEW_LINE",0x02,0,none,.whole⟩,⟨"RESET",0x03,0,some "reset",.whole⟩,⟨"PRINT_ICON",0x09,1,some "icon",.whole⟩,
    ⟨"DELAY",0x14,2,some "delay",.whole⟩]⟩

def sampleSymbols : SymbolSheet := ⟨"sample",[("VII",[0x7A]),("square",[0x1A,0x02])],["item-key"]⟩

def sampleSheet : Category → Json
  | .characters => sampleCharacters.toJson
  | .commands => sampleCommands.toJson
  | .symbols => sampleSymbols.toJson

theorem sample_loaded : sample.Loaded :=
  @TableDirectory.holding_loaded sampleSheet sampleCharacters sampleCommands sampleSymbols sample
    (by decide +kernel) (by decide +kernel) (by decide +kernel) rfl

-- Tables with a width that the sheet gives as 1.0.
def scaled : TableSet where
  characters := ⟨"scaled",[('a',[0x61])],[]⟩
  commands := ⟨"scaled",0x00,[⟨.newLine,0x02,0,none,.whole⟩,⟨.printIcon,0x09,1,some "icon",.whole⟩,
    ⟨.textScale,0x0A,1,some "scale",.real⟩],[],[],by decide⟩

def scaledCharacters : CharacterSheet := ⟨"scaled",[],[⟨0x61,"a"⟩],[]⟩

def scaledCommands : CommandSheet :=
  ⟨"scaled",0x00,[⟨"NEW_LINE",0x02,0,none,.whole⟩,⟨"PRINT_ICON",0x09,1,some "icon",.whole⟩,
    ⟨"TEXT_SCALE",0x0A,1,some "scale",.real⟩]⟩

def scaledSymbols : SymbolSheet := ⟨"scaled",[],[]⟩

theorem scaled_loaded : scaled.Loaded :=
  TableDirectory.written_loaded scaledCharacters scaledCommands scaledSymbols
    (by decide +kernel) (by decide +kernel) (by decide +kernel) rfl

end TableSet
end GameText
