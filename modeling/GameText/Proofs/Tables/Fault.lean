import GameText.Proofs.Tables.Loaded

namespace GameText
open Outcome Sheet Text

def Fault.IsTable (fault : Fault) : Prop := ∃ error, fault = .table error

-- The categories whose files are read before those of another.
def Category.earlier : Category → List Category
  | .characters => []
  | .commands => [.characters]
  | .symbols => [.characters,.commands]

theorem Fault.isTable_raised {α : Type} (result : Except TableError α) :
    Fails IsTable (result.mapError .table) :=
  .mapError fun e => ⟨e,rfl⟩

namespace CharacterTable

-- A run overflows before it comes to a number that is no byte.
theorem addRun_fails {overflow : TableError} {code? : Int → Option Bytes}
    (codes : ∀ position, IsByte position → ∃ code, code? position = some code) {position : Int} (low : 0 ≤ position)
    (chars : List Char) (glyphs : OrderedMap String Bytes) :
    Fails Fault.IsTable (addRun overflow code? position chars glyphs) := by
  induction chars generalizing position glyphs with
  | nil => exact .ok glyphs
  | cons c rest ih =>
    unfold addRun
    split
    · exact .error ⟨_,rfl⟩
    · rename_i inside
      obtain ⟨code,coded⟩ := codes position ⟨low,by omega⟩
      rw [coded]
      dsimp only
      split
      · exact .error ⟨_,rfl⟩
      · exact ih (by omega) _

theorem addRange_fails {range : GlyphRange} (start : IsByte range.start) (glyphs : OrderedMap String Bytes) :
    Fails Fault.IsTable (addRange glyphs range) := by
  refine addRun_fails (fun position byte => ?_) start.1 _ glyphs
  obtain ⟨made,exact⟩ := byte.made
  exact ⟨[made],by simp only [exact,Option.map_some]⟩

theorem addEscaped_fails {range : EscapedRange} (lead : IsByte range.lead) (start : IsByte range.start)
    (glyphs : OrderedMap String Bytes) : Fails Fault.IsTable (addEscaped glyphs range) := by
  refine addRun_fails (fun position byte => ?_) start.1 _ glyphs
  obtain ⟨first,exactLead⟩ := lead.made
  obtain ⟨second,exact⟩ := byte.made
  exact ⟨[first,second],by simp only [exactLead,exact,Option.bind_eq_bind,Option.bind_some]⟩

end CharacterTable

theorem CharacterSheet.build_fails {sheet : CharacterSheet} (formed : sheet.Formed) :
    Fails Fault.IsTable sheet.build := by
  have ranges := Fails.fold fun range member => CharacterTable.addRange_fails (formed.ranges range member)
  have escaped := Fails.fold fun range member =>
    CharacterTable.addEscaped_fails (formed.escaped range member).1 (formed.escaped range member).2
  exact (ranges ∅).bind fun glyphs _ => (escaped glyphs).bind fun _ _ => Fault.isTable_raised _

namespace TableSet

theorem checkRow_fails (characters : CharacterTable) {row : CommandRow} (byte : IsByte row.opcode) :
    Fails Fault.IsTable (checkRow characters row) := by
  obtain ⟨made,exact⟩ := byte.made
  simp only [checkRow,exact]
  split
  · exact .error ⟨_,rfl⟩
  · exact .ok ()

theorem checkTerminator_fails (characters : CharacterTable) {terminator : Int} (byte : IsByte terminator) :
    Fails Fault.IsTable (checkTerminator characters terminator) := by
  obtain ⟨made,exact⟩ := byte.made
  simp only [checkTerminator,exact]
  split
  · exact .error ⟨_,rfl⟩
  · exact .ok ()

theorem ofSheets_fails {characters : CharacterSheet} {commands : CommandSheet} {symbols : SymbolSheet}
    (glyphs : characters.Formed) (rows : commands.Formed) (tokens : symbols.Formed) :
    Fails Fault.IsTable (ofSheets characters commands symbols) := by
  apply (CharacterSheet.build_fails glyphs).bind
  intro table _
  apply (Fault.isTable_raised (commands.build symbols)).bind
  intro built made
  have formed := CommandSheet.build_formed rows tokens (mapError_ok.mp made)
  have complexChecks := Fails.forM fun glyph (_ : glyph ∈ built.complex) =>
    Fault.isTable_raised (checkComplex table glyph)
  have rowChecks := Fails.forM fun row member => checkRow_fails table (formed.rows row member).opcode
  exact complexChecks.bind fun _ _ => rowChecks.bind fun _ _ =>
    (checkTerminator_fails table formed.terminator).bind fun _ _ => .ok _

end TableSet

namespace TableDirectory

-- Bytes whose reading ends in something else than an error of the tables: they are no
-- text, or a text refused for its size and not for its form.
inductive Unloadable (host : Host) (bytes : Bytes) : Fault → Prop where
  | undecodable (lost : decodeUtf8 bytes = none) : Unloadable host bytes .undecodable
  | digits {text : List Char} (decoded : decodeUtf8 bytes = some text)
      (refused : Json.read host.depth text = .error .numeralTooLong) : Unloadable host bytes (.value .numeralTooLong)
  | brackets {text : List Char} (decoded : decodeUtf8 bytes = some text)
      (refused : Json.read host.depth text = .error .tooDeep) : Unloadable host bytes .tooDeep

-- Bytes in which no escape stands for half of a surrogate pair.
def Paired (host : Host) (bytes : Bytes) : Prop :=
  ∀ text, decodeUtf8 bytes = some text → Json.read host.depth text ≠ .error .unpaired

-- The directories that loading has an answer for: escapes come in pairs, and what a schema
-- lets through has the form of a sheet.
structure Covered (host : Host) (directory : TableDirectory) : Prop where
  schemas : ∀ files, directory.schemas = .listed files → ∀ file ∈ files, ∀ bytes, file.2 = some bytes → Paired host bytes
  assets : ∀ category bytes, directory.assets category = some bytes → Paired host bytes
  formed : ∀ schemas category json, directory.readSchemas host = .ok schemas →
    directory.readDocument host schemas category = .ok json → Packaged.hasForm json category = true

section
variable {host : Host} {bytes : Bytes} {fault : Fault}

theorem Unloadable.other (unloadable : Unloadable host bytes fault) : ¬ fault.IsTable := by
  rintro ⟨e,same⟩
  cases unloadable <;> cases same

theorem readJson_unloadable {unreadable : TableError} (unloadable : Unloadable host bytes fault) :
    readJson host unreadable bytes = .error fault := by
  cases unloadable with
  | undecodable lost => simp only [readJson,lost]
  | digits decoded refused => simp only [readJson,decoded,refused]
  | brackets decoded refused => simp only [readJson,decoded,refused]

theorem readJson_fails (unreadable : TableError) (paired : Paired host bytes) :
    Fails (fun fault => fault.IsTable ∨ Unloadable host bytes fault) (readJson host unreadable bytes) := by
  unfold readJson
  split
  · rename_i lost
    exact .error (.inr (.undecodable lost))
  rename_i text decoded
  split
  · exact .ok _
  · exact .error (.inl ⟨_,rfl⟩)
  · rename_i refused
    exact .error (.inr (.digits decoded refused))
  · rename_i refused
    exact .error (.inr (.brackets decoded refused))
  · rename_i refused
    exact absurd refused (paired text decoded)

end

section
variable {host : Host} {directory : TableDirectory} {schemas : List (String × Json)} {category : Category} {fault : Fault}

theorem readSchema_fails (host : Host) (directory : TableDirectory) {file : String × Option Bytes}
    (paired : ∀ bytes, file.2 = some bytes → Paired host bytes) :
    Fails (fun fault => fault.IsTable ∨ ∃ bytes, file.2 = some bytes ∧ Unloadable host bytes fault)
      (directory.readSchema host file) := by
  unfold readSchema
  dsimp only
  split
  · exact .error (.inl ⟨_,rfl⟩)
  rename_i bytes found
  refine Fails.bind (fun fault failed => ?_) fun _ _ => .ok _
  exact (readJson_fails _ (paired bytes found) fault failed).imp_right fun unloadable => ⟨bytes,found,unloadable⟩

-- What stops a document behind its schema, other than an error of the tables: its file cannot
-- be loaded, or the validator breaks on the schema.
inductive Spoiled (host : Host) (directory : TableDirectory) (schemas : List (String × Json)) (category : Category) :
    Fault → Prop where
  | file {schema : Json} {bytes : Bytes} {fault : Fault} (described : schemaFor? schemas category = some schema)
      (found : directory.assets category = some bytes) (unloadable : Unloadable host bytes fault) :
      Spoiled host directory schemas category fault
  | schema {schema json : Json} {bytes : Bytes} {unreadable : TableError}
      (described : schemaFor? schemas category = some schema) (found : directory.assets category = some bytes)
      (reading : readJson host unreadable bytes = .ok json) (broken : host.validate schema json = .broken) :
      Spoiled host directory schemas category .badSchema

theorem readJson_same {unreadable other : TableError} {bytes : Bytes} {json : Json}
    (reading : readJson host unreadable bytes = .ok json) : readJson host other bytes = .ok json := by
  unfold readJson at reading ⊢
  split at reading
  · cases reading
  · split at reading <;> simp_all

theorem readDocument_spoiled (spoiled : Spoiled host directory schemas category fault) :
    directory.readDocument host schemas category = .error fault := by
  cases spoiled with
  | file described found unloadable =>
    simp only [readDocument,described,found]
    exact bind_error.mpr (.inl (readJson_unloadable unloadable))
  | schema described found reading broken =>
    simp only [readDocument,described,found]
    exact bind_error.mpr (.inr ⟨_,readJson_same reading,by rw [broken]⟩)

theorem readDocument_fails (paired : ∀ bytes, directory.assets category = some bytes → Paired host bytes)
    (schemas : List (String × Json)) :
    Fails (fun fault => fault.IsTable ∨ Spoiled host directory schemas category fault)
      (directory.readDocument host schemas category) := by
  unfold readDocument
  dsimp only
  split
  · exact .error (.inl ⟨_,rfl⟩)
  rename_i schema described
  split
  · exact .error (.inl ⟨_,rfl⟩)
  rename_i bytes found
  refine Fails.bind (fun fault failed => ?_) fun json reading => ?_
  · exact (readJson_fails _ (paired bytes found) fault failed).imp_right (.file described found)
  · split
    · exact .ok _
    · exact .error (.inl ⟨_,rfl⟩)
    · rename_i broken
      exact .error (.inr (.schema described found reading broken))

-- The first file that stops the reading is one of those no error is made of.
inductive Breaks (host : Host) (directory : TableDirectory) : Fault → Prop where
  | unreachable (lost : directory.schemas = .unreachable) :
      Breaks host directory (.unreachable directory.schemaDirectory.toString)
  | schema {front back : List (String × Option Bytes)} {name : String} {bytes : Bytes} {fault : Fault}
      (listed : directory.schemas = .listed (front ++ (name,some bytes) :: back))
      (earlier : ∀ file ∈ front, ∃ schema, directory.readSchema host file = .ok schema)
      (unloadable : Unloadable host bytes fault) : Breaks host directory fault
  | document {schemas : List (String × Json)} {category : Category} {fault : Fault}
      (read : directory.readSchemas host = .ok schemas)
      (earlier : ∀ other ∈ category.earlier, ∃ json, directory.readDocument host schemas other = .ok json)
      (spoiled : Spoiled host directory schemas category fault) : Breaks host directory fault

theorem Breaks.other (breaks : directory.Breaks host fault) : ¬ fault.IsTable := by
  cases breaks with
  | unreachable => exact fun ⟨_,same⟩ => nomatch same
  | schema _ _ unloadable => exact unloadable.other
  | document _ _ spoiled =>
    cases spoiled with
    | file _ _ unloadable => exact unloadable.other
    | schema => exact fun ⟨_,same⟩ => nomatch same

theorem readSchemas_spoiled {front back : List (String × Option Bytes)} {name : String} {bytes : Bytes}
    (listed : directory.schemas = .listed (front ++ (name,some bytes) :: back))
    (earlier : ∀ file ∈ front, ∃ schema, directory.readSchema host file = .ok schema)
    (unloadable : Unloadable host bytes fault) : directory.readSchemas host = .error fault := by
  simp only [readSchemas,listed]
  exact mapM_error.mpr ⟨front,_,back,rfl,earlier,bind_error.mpr (.inl (readJson_unloadable unloadable))⟩

theorem readSchemas_fails (covered : directory.Covered host) :
    Fails (fun fault => fault.IsTable ∨ directory.Breaks host fault) (directory.readSchemas host) := by
  unfold readSchemas
  split
  · exact .error (.inl ⟨_,rfl⟩)
  · rename_i lost
    exact .error (.inr (.unreachable lost))
  rename_i files listed
  intro fault failed
  obtain ⟨front,⟨name,content⟩,back,rfl,earlier,stopped⟩ := mapM_error.mp failed
  have paired := covered.schemas _ listed (name,content) (List.mem_append_right _ List.mem_cons_self)
  refine (readSchema_fails host directory paired fault stopped).imp_right fun ⟨bytes,found,unloadable⟩ => ?_
  cases found
  exact .schema listed earlier unloadable

theorem read_breaks (breaks : directory.Breaks host fault) : directory.read host = .error fault := by
  cases breaks with
  | unreachable lost => exact bind_error.mpr (.inl (by simp only [readSchemas,lost]))
  | schema listed earlier unloadable => exact bind_error.mpr (.inl (readSchemas_spoiled listed earlier unloadable))
  | @document schemas category _ read earlier spoiled =>
    refine bind_error.mpr (.inr ⟨schemas,read,bind_error.mpr ?_⟩)
    cases category with
    | characters => exact .inl (readDocument_spoiled spoiled)
    | commands =>
      obtain ⟨characters,first⟩ := earlier .characters (by decide)
      exact .inr ⟨characters,first,bind_error.mpr (.inl (readDocument_spoiled spoiled))⟩
    | symbols =>
      obtain ⟨characters,first⟩ := earlier .characters (by decide)
      obtain ⟨commands,second⟩ := earlier .commands (by decide)
      exact .inr ⟨characters,first,bind_error.mpr (.inr ⟨commands,second,
        bind_error.mpr (.inl (readDocument_spoiled spoiled))⟩)⟩

theorem read_fails (covered : directory.Covered host) :
    Fails (fun fault => fault.IsTable ∨ directory.Breaks host fault) (directory.read host) := by
  unfold read
  refine (readSchemas_fails covered).bind fun schemas read => ?_
  have documents : ∀ {category : Category},
      (∀ other ∈ category.earlier, ∃ json, directory.readDocument host schemas other = .ok json) →
        Fails (fun fault => fault.IsTable ∨ directory.Breaks host fault) (directory.readDocument host schemas category) :=
    fun earlier => (readDocument_fails (covered.assets _) schemas).imp fun _ => Or.imp_right (.document read earlier)
  refine (documents (List.forall_mem_nil _)).bind fun glyphs first => ?_
  refine (documents (List.forall_mem_singleton.mpr ⟨glyphs,first⟩)).bind fun rows second => ?_
  refine (documents (List.forall_mem_cons.mpr ⟨⟨glyphs,first⟩,List.forall_mem_singleton.mpr ⟨rows,second⟩⟩)).bind
    fun tokens third => ?_
  obtain ⟨characters,formGlyphs⟩ := Option.isSome_iff_exists.mp (covered.formed _ _ _ read first)
  obtain ⟨commands,formRows⟩ := Option.isSome_iff_exists.mp (covered.formed _ _ _ read second)
  obtain ⟨symbols,formTokens⟩ := Option.isSome_iff_exists.mp (covered.formed _ _ _ read third)
  have built := TableSet.ofSheets_fails (CharacterSheet.ofJson_formed formGlyphs) (CommandSheet.ofJson_formed formRows)
    (SymbolSheet.ofJson_formed formTokens)
  simp only [sheetOf_ok.mpr formGlyphs,sheetOf_ok.mpr formRows,sheetOf_ok.mpr formTokens]
  exact built.imp fun _ => .inl

theorem load_read (host : Host) (directory : TableDirectory) : (directory.load host).1 = directory.read host := by
  unfold load
  split <;> rename_i reading <;> exact reading.symm

end

-- Loading ends in something else than tables or an error of the tables only where the schemas
-- cannot be looked for, or at a file that is no UTF-8, that is refused for the digits of an
-- integer or for its open brackets, or whose schema the validator breaks on. What passed as
-- sheets is built, or is an error of the tables.
theorem load_fails {host : Host} {directory : TableDirectory} (covered : directory.Covered host) :
    (∀ fault, (directory.load host).1 = .error fault ∧ ¬ fault.IsTable ↔ directory.Breaks host fault) ∧
    ∀ characters commands symbols, (∃ json, CharacterSheet.ofJson? json = some characters) →
      (∃ json, CommandSheet.ofJson? json = some commands) → (∃ json, SymbolSheet.ofJson? json = some symbols) →
        (∃ tables, TableSet.ofSheets characters commands symbols = .ok tables) ∨
          ∃ error, TableSet.ofSheets characters commands symbols = .error (.table error) := by
  rw [load_read]
  refine ⟨fun fault => ⟨?_,fun breaks => ⟨read_breaks breaks,breaks.other⟩⟩,?_⟩
  · intro ⟨failed,other⟩
    exact (read_fails covered fault failed).resolve_left other
  · intro characters commands symbols ⟨_,glyphs⟩ ⟨_,rows⟩ ⟨_,tokens⟩
    cases built : TableSet.ofSheets characters commands symbols with
    | ok tables => exact .inl ⟨tables,rfl⟩
    | error fault =>
      obtain ⟨error,rfl⟩ := TableSet.ofSheets_fails (CharacterSheet.ofJson_formed glyphs)
        (CommandSheet.ofJson_formed rows) (SymbolSheet.ofJson_formed tokens) fault built
      exact .inr ⟨error,rfl⟩

-- With the packaged schemas, and a validator that finds in them the forms of the sheets, the
-- documents are as they have to be.
theorem Covered.packaged {directory : TableDirectory} (packaged : directory.schemas = packagedSchemas)
    (assets : ∀ category bytes, directory.assets category = some bytes → Paired sampleHost bytes) :
    directory.Covered sampleHost := by
  obtain ⟨read,reading,found⟩ := schemas_read packaged
  refine ⟨fun files listed file member bytes content => ?_,assets,fun schemas category json again document => ?_⟩
  · rw [packaged,packagedSchemas] at listed
    cases listed
    obtain ⟨category,_,rfl⟩ := List.mem_map.mp member
    cases content
    obtain ⟨json,text,_⟩ := schema_read category
    intro other decoded refused
    rw [decode_encode_utf8] at decoded
    cases decoded
    cases text.symm.trans refused
  · cases reading.symm.trans again
    obtain ⟨schema,known,same⟩ := found category
    rw [readDocument,known] at document
    dsimp only at document
    split at document
    · cases document
    obtain ⟨value,_,valid⟩ := bind_ok.mp document
    rw [show sampleHost.validate schema value = _ from validate_packaged same value] at valid
    by_cases form : Packaged.hasForm value category = true
    · rw [if_pos form] at valid
      cases valid
      exact form
    · rw [if_neg form] at valid
      cases valid

-- The sheets of the sample, with other bytes for the characters.
def spoiled (bytes : Bytes) : TableDirectory where
  path := ⟨"",["sample"]⟩
  schemas := packagedSchemas
  assets category := if category = .characters then some bytes else some (encodeUtf8 (TableSet.sampleSheet category).written)

theorem spoiled_breaks {bytes : Bytes} {fault : Fault} (unloadable : Unloadable sampleHost bytes fault) :
    (spoiled bytes).Breaks sampleHost fault := by
  obtain ⟨schemas,reading,found⟩ := @schemas_read (spoiled bytes) rfl
  obtain ⟨schema,known,_⟩ := found .characters
  exact .document reading (List.forall_mem_nil _) (.file known rfl unloadable)

theorem spoiled_covered : (spoiled [0xFF]).Covered sampleHost := by
  refine .packaged rfl fun category bytes found text decoded refused => ?_
  have sheets : ∀ category, (Json.read sampleHost.depth (TableSet.sampleSheet category).written).toBool = true := by
    intro category
    cases category <;> decide +kernel
  by_cases characters : category = .characters
  · subst characters
    cases found
    cases decoded.symm.trans (by decide : decodeUtf8 [0xFF] = none)
  · cases (if_neg characters).symm.trans found
    rw [decode_encode_utf8] at decoded
    cases decoded
    have read := sheets category
    rw [refused] at read
    cases read

theorem load_fails_sample :
    (spoiled [0xFF]).Covered sampleHost ∧ ((spoiled [0xFF]).load sampleHost).1 = .error .undecodable ∧
      ((∃ tables, TableSet.ofSheets TableSet.sampleCharacters TableSet.sampleCommands TableSet.sampleSymbols = .ok tables) ∨
        ∃ error, TableSet.ofSheets TableSet.sampleCharacters TableSet.sampleCommands TableSet.sampleSymbols =
          .error (.table error)) := by
  obtain ⟨breaks,builds⟩ := load_fails spoiled_covered
  have unloadable : Unloadable sampleHost [0xFF] .undecodable := .undecodable (by decide)
  exact ⟨spoiled_covered,((breaks _).mpr (spoiled_breaks unloadable)).1,builds _ _ _
    ⟨TableSet.sampleCharacters.toJson,by decide +kernel⟩ ⟨TableSet.sampleCommands.toJson,by decide +kernel⟩
    ⟨TableSet.sampleSymbols.toJson,by decide +kernel⟩⟩

theorem load_fails_spoiled :
    ¬ ∀ (host : Host) (directory : TableDirectory), (∃ tables, (directory.load host).1 = .ok tables) ∨
      ∃ error, (directory.load host).1 = .error (.table error) := by
  intro law
  have failed := read_breaks (spoiled_breaks (.undecodable (by decide : decodeUtf8 [0xFF] = none)))
  rcases law sampleHost (spoiled [0xFF]) with ⟨_,loaded⟩ | ⟨_,table⟩
  · cases failed.symm.trans ((load_read _ _).symm.trans loaded)
  · cases failed.symm.trans ((load_read _ _).symm.trans table)

end TableDirectory
end GameText
