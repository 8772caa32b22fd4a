import GameText.Proofs.Outcome
import GameText.Tables.Packaged

namespace GameText
open Sheet Text

-- What sheets say is more than what tables check: numbers are bytes, rows are at
-- most eight bytes wide, and names and symbols are spelled in certain characters.
def IsByte (value : Int) : Prop := 0 ≤ value ∧ value < 256

instance : DecidablePred IsByte := fun _ => instDecidableAnd

theorem IsByte.made {value : Int} (byte : IsByte value) : ∃ made, Bytes.byteOf? value = some made :=
  ⟨_,if_pos byte⟩

-- A word in lower case, and the name of a row: such a word, after which a line
-- feed may stand.
def LowerWord : List Char → Prop
  | [] => False
  | head :: rest => ('a' ≤ head ∧ head ≤ 'z') ∧ ∀ c ∈ rest, isLowerWord c = true

instance : DecidablePred LowerWord
  | [] => .isFalse id
  | _ :: rest => @instDecidableAnd _ _ inferInstance (List.decidableBAll _ rest)

def NameForm (name : String) : Prop := LowerWord (withoutFinalNewline name.toList)

instance : DecidablePred NameForm := fun name => inferInstanceAs (Decidable (LowerWord (withoutFinalNewline name.toList)))

structure RowForm (opcode width : Int) (name : Option String) : Prop where
  opcode : IsByte opcode
  width : 0 ≤ width ∧ width ≤ 8
  name : ∀ text ∈ name, NameForm text

instance {opcode width : Int} {name : Option String} : Decidable (RowForm opcode width name) :=
  decidable_of_iff (IsByte opcode ∧ (0 ≤ width ∧ width ≤ 8) ∧ ∀ text ∈ name, NameForm text)
    ⟨fun form => ⟨form.1,form.2.1,form.2.2⟩,fun form => ⟨form.opcode,form.width,form.name⟩⟩

-- The text of a symbol is not empty and holds no character that structures a
-- script.
def SymbolForm (text : String) : Prop :=
  text ≠ "" ∧ ∀ c ∈ text.toList, c ≠ '\x7b' ∧ c ≠ '\x7d' ∧ c ≠ ':'

instance : DecidablePred SymbolForm := fun text =>
  @instDecidableAnd _ _ inferInstance (List.decidableBAll _ text.toList)

structure CharacterSheet.Formed (sheet : CharacterSheet) : Prop where
  ranges : ∀ range ∈ sheet.ranges, IsByte range.start
  escaped : ∀ range ∈ sheet.escaped, IsByte range.lead ∧ IsByte range.start

structure CommandSheet.Formed (sheet : CommandSheet) : Prop where
  terminator : IsByte sheet.terminator
  rows : ∀ row ∈ sheet.rows, RowForm row.opcode row.width row.name

structure SymbolSheet.Formed (sheet : SymbolSheet) : Prop where
  keys : ∀ glyph ∈ sheet.complex, SymbolForm glyph.1
  codes : ∀ glyph ∈ sheet.complex, glyph.2.length = 1 ∨ glyph.2.length = 2
  icons : ∀ icon ∈ sheet.icons, SymbolForm icon
  few : sheet.icons.length ≤ 256

namespace Sheet

theorem required_read {α : Type} {fields : List (String × Json)} {key : String} {read : Json → Option α}
    {value : α} (found : required fields key read = some value) : ∃ json, read json = some value := by
  obtain ⟨json,_,made⟩ := Option.bind_eq_some_iff.mp found
  exact ⟨json,made⟩

theorem optional_read {α : Type} {fields : List (String × Json)} {key : String} {default value : α}
    {read : Json → Option α} (found : optional fields key default read = some value) :
    value = default ∨ ∃ json, read json = some value := by
  unfold optional at found
  split at found
  · cases found
    exact .inl rfl
  · exact .inr ⟨_,found⟩

theorem asArray_read {α : Type} {read : Json → Option α} {json : Json} {values : List α}
    (found : asArray read json = some values) : ∀ value ∈ values, ∃ item, read item = some value := by
  cases json with
  | array items =>
    intro value member
    obtain ⟨item,_,made⟩ := Outcome.mapM_read found value member
    exact ⟨item,made⟩
  | _ => cases found

theorem hexValue_lt {c : Char} {value : Nat} (found : hexValue? c = some value) : value < 16 := by
  simp only [hexValue?,Char.le_def,UInt32.le_iff_toNat_le] at found
  split at found
  · rename_i digit
    cases found
    have high : c.toNat ≤ 57 := digit.2
    omega
  split at found
  · rename_i upper
    cases found
    have high : c.toNat ≤ 70 := upper.2
    omega
  split at found
  · rename_i lower
    cases found
    have high : c.toNat ≤ 102 := lower.2
    omega
  · cases found

theorem asByte_range {json : Json} {value : Int} (found : asByte json = some value) : IsByte value := by
  obtain ⟨text,_,found⟩ := Option.bind_eq_some_iff.mp found
  unfold byteForm at found
  split at found
  · obtain ⟨high,readHigh,found⟩ := Option.bind_eq_some_iff.mp found
    obtain ⟨low,readLow,made⟩ := Option.bind_eq_some_iff.mp found
    cases made
    have := hexValue_lt readHigh
    have := hexValue_lt readLow
    constructor <;> omega
  · cases found

theorem whole_range {number : Fraction} {most : Nat} {read : Bool × Nat} (found : number.whole? most = some read) :
    read.2 ≤ most := by
  unfold Fraction.whole? at found
  split at found
  · dsimp only at found
    split at found
    · cases found
      exact Nat.zero_le most
    split at found
    · cases found
    · obtain ⟨value,listed,given⟩ := Option.bind_eq_some_iff.mp found
      have within := List.mem_range.mp (List.mem_of_find?_eq_some listed)
      split at given
      · cases given
      · cases given
        exact Nat.le_of_lt_succ within
  · cases found

theorem asWidth_range {json : Json} {read : Int × WidthForm} (found : asWidth json = some read) :
    0 ≤ read.1 ∧ read.1 ≤ 8 := by
  cases json with
  | integer value =>
    rw [asWidth] at found
    split at found
    · rename_i range
      cases found
      exact range
    · cases found
  | fraction number =>
    obtain ⟨value,given,rfl⟩ := Option.map_eq_some_iff.mp found
    have range := whole_range given
    dsimp only
    omega
  | _ => cases found

theorem withoutFinalNewline_cases (text : List Char) :
    (text.getLast? ≠ some '\n' ∧ withoutFinalNewline text = text) ∨
      (text.getLast? = some '\n' ∧ text = withoutFinalNewline text ++ ['\n']) := by
  unfold withoutFinalNewline
  split
  · rename_i last
    exact .inr ⟨last,(List.dropLast_append_getLast? _ last).symm⟩
  · rename_i other
    exact .inl ⟨other,rfl⟩

theorem asScriptName_form {json : Json} {name : String} (found : asScriptName json = some name) : NameForm name := by
  obtain ⟨text,_,found⟩ := Option.bind_eq_some_iff.mp found
  split at found
  · rename_i head rest word
    split at found
    · rename_i spelled
      cases found
      rw [NameForm,word]
      simpa [LowerWord] using spelled
    · cases found
  · cases found

theorem asSymbol_form {json : Json} {text : String} (found : asSymbol json = some text) : SymbolForm text := by
  obtain ⟨value,_,made⟩ := Option.bind_eq_some_iff.mp found
  split at made
  · cases made
  · rename_i free
    cases made
    rw [not_or] at free
    refine ⟨by simpa using free.1,fun c member => ?_⟩
    have plain := free.2
    simp only [List.any_eq_true,not_exists,not_and] at plain
    simpa [and_assoc] using plain c member

theorem asCode_short {json : Json} {code : Bytes} (found : asCode json = some code) :
    code.length = 1 ∨ code.length = 2 := by
  obtain ⟨values,_,found⟩ := Option.bind_eq_some_iff.mp found
  obtain ⟨bytes,_,made⟩ := Option.bind_eq_some_iff.mp found
  split at made
  · rename_i short
    cases made
    exact short
  · cases made

theorem asRange_byte {json : Json} {range : GlyphRange} (found : asRange json = some range) : IsByte range.start := by
  simp only [asRange,Option.bind_eq_bind,Option.bind_eq_some_iff,Option.some.injEq] at found
  obtain ⟨_,_,start,reading,_,_,rfl⟩ := found
  obtain ⟨_,byte⟩ := required_read reading
  exact asByte_range byte

theorem asEscaped_byte {json : Json} {range : EscapedRange} (found : asEscaped json = some range) :
    IsByte range.lead ∧ IsByte range.start := by
  simp only [asEscaped,Option.bind_eq_bind,Option.bind_eq_some_iff,Option.some.injEq] at found
  obtain ⟨_,_,lead,readLead,start,readStart,_,_,rfl⟩ := found
  obtain ⟨_,leadByte⟩ := required_read readLead
  obtain ⟨_,startByte⟩ := required_read readStart
  exact ⟨asByte_range leadByte,asByte_range startByte⟩

theorem asCommandRow_form {json : Json} {row : CommandSheetRow} (found : asCommandRow json = some row) :
    RowForm row.opcode row.width row.name := by
  simp only [asCommandRow,Option.bind_eq_bind,Option.bind_eq_some_iff,Option.some.injEq] at found
  obtain ⟨_,_,width,readWidth,_,_,opcode,readOpcode,name,readName,rfl⟩ := found
  obtain ⟨_,byte⟩ := required_read readOpcode
  obtain ⟨_,range⟩ := required_read readWidth
  refine ⟨asByte_range byte,asWidth_range range,?_⟩
  rcases optional_read readName with rfl | ⟨_,given⟩
  · intro text named
    cases named
  · obtain ⟨text,spelled,rfl⟩ := Option.map_eq_some_iff.mp given
    intro same named
    cases named
    exact asScriptName_form spelled

theorem asComplex_form {json : Json} {glyph : String × Bytes} (found : asComplex json = some glyph) :
    SymbolForm glyph.1 ∧ (glyph.2.length = 1 ∨ glyph.2.length = 2) := by
  simp only [asComplex,Option.bind_eq_bind,Option.bind_eq_some_iff,Option.some.injEq] at found
  obtain ⟨_,_,key,readKey,code,readCode,rfl⟩ := found
  obtain ⟨_,symbol⟩ := required_read readKey
  obtain ⟨_,bytes⟩ := required_read readCode
  exact ⟨asSymbol_form symbol,asCode_short bytes⟩

end Sheet

theorem CharacterSheet.ofJson_formed {json : Json} {sheet : CharacterSheet}
    (found : CharacterSheet.ofJson? json = some sheet) : sheet.Formed := by
  simp only [CharacterSheet.ofJson?,Option.bind_eq_bind,Option.bind_eq_some_iff,Option.some.injEq] at found
  obtain ⟨_,_,_,_,_,_,_,_,ranges,readRanges,escaped,readEscaped,rfl⟩ := found
  obtain ⟨_,array⟩ := required_read readRanges
  constructor
  · intro range member
    obtain ⟨_,exact⟩ := asArray_read array range member
    exact asRange_byte exact
  · rcases optional_read readEscaped with rfl | ⟨_,given⟩
    · exact List.forall_mem_nil _
    · intro range member
      obtain ⟨_,exact⟩ := asArray_read given range member
      exact asEscaped_byte exact

theorem CommandSheet.ofJson_formed {json : Json} {sheet : CommandSheet}
    (found : CommandSheet.ofJson? json = some sheet) : sheet.Formed := by
  obtain ⟨fields,_,found⟩ := Option.bind_eq_some_iff.mp found
  obtain ⟨rows,readRows,found⟩ := Option.bind_eq_some_iff.mp found
  split at found
  · cases found
  · obtain ⟨id,_,found⟩ := Option.bind_eq_some_iff.mp found
    obtain ⟨terminator,readTerminator,made⟩ := Option.bind_eq_some_iff.mp found
    obtain ⟨_,array⟩ := required_read readRows
    obtain ⟨_,byte⟩ := required_read readTerminator
    cases made
    refine ⟨asByte_range byte,fun row member => ?_⟩
    obtain ⟨_,exact⟩ := asArray_read array row member
    exact asCommandRow_form exact

theorem SymbolSheet.ofJson_formed {json : Json} {sheet : SymbolSheet}
    (found : SymbolSheet.ofJson? json = some sheet) : sheet.Formed := by
  obtain ⟨fields,_,found⟩ := Option.bind_eq_some_iff.mp found
  obtain ⟨icons,readIcons,found⟩ := Option.bind_eq_some_iff.mp found
  split at found
  · cases found
  · rename_i few
    obtain ⟨id,_,found⟩ := Option.bind_eq_some_iff.mp found
    obtain ⟨complex,readComplex,made⟩ := Option.bind_eq_some_iff.mp found
    obtain ⟨_,iconArray⟩ := required_read readIcons
    obtain ⟨_,complexArray⟩ := required_read readComplex
    cases made
    have formed : ∀ glyph ∈ complex, SymbolForm glyph.1 ∧ (glyph.2.length = 1 ∨ glyph.2.length = 2) := by
      intro glyph member
      obtain ⟨_,exact⟩ := asArray_read complexArray glyph member
      exact asComplex_form exact
    refine ⟨fun glyph member => (formed glyph member).1,fun glyph member => (formed glyph member).2,?_,
      Nat.le_of_not_lt few⟩
    intro icon member
    obtain ⟨_,exact⟩ := asArray_read iconArray icon member
    exact asSymbol_form exact

theorem Packaged.commands_formed : Packaged.commands.Formed := ⟨by decide,by decide +kernel⟩

theorem Packaged.symbols_formed : Packaged.symbols.Formed :=
  ⟨by decide +kernel,by decide,by decide +kernel,by decide⟩

end GameText
