import GameText.Proofs.Tables.Command

namespace GameText.CommandTable
open Outcome Lookup

-- What has to hold of rows and symbols for a table.
structure Sound (terminator : Int) (rows : List CommandRow) (complex : List (String × Bytes)) (icons : List String) : Prop where
  commands : (rows.map CommandRow.command).Nodup
  opcodes : (rows.map CommandRow.opcode).Nodup
  names : (rows.filterMap CommandRow.name).Nodup
  unterminated : ∀ row ∈ rows, row.opcode ≠ terminator
  widths : ∀ row ∈ rows, 0 < row.width ↔ row.command.payload = .data
  textless : ∀ row ∈ rows, row.command.payload ≠ .text
  newLine : ∃ row ∈ rows, row.command = .newLine
  printIcon : ∃ row ∈ rows, row.command = .printIcon
  keys : (complex.map Prod.fst).Nodup
  codes : (complex.map Prod.snd).Nodup
  apart : ∀ row ∈ rows, ∀ (key : String) (byte : UInt8), (key,[byte]) ∈ complex → row.opcode ≠ byte.toNat
  places : icons.Nodup
  symbols : ∀ icon ∈ icons, ∀ code, (icon,code) ∉ complex

-- A table whose lookups all show the same rows and symbols. The number of an icon is its place.
structure Views (table : CommandTable) (rows : List CommandRow) (complex : List (String × Bytes)) (icons : List String) :
    Prop where
  rowFor : ∀ command row, table.rowFor? command = some row ↔ row ∈ rows ∧ row.command = command
  byOpcode : ∀ opcode row, table.byOpcode? opcode = some row ↔ row ∈ rows ∧ row.opcode = opcode
  byName : ∀ name row, table.byName? name = some row ↔ row ∈ rows ∧ row.name = some name
  newLine : ∃ row, table.rowFor? .newLine = some row ∧ row.opcode = table.newLineOpcode
  complexCode : ∀ key code, table.complexCode? key = some code ↔ (key,code) ∈ complex
  complexKey : ∀ key code, table.complexKey? code = some key ↔ table.complexCode? key = some code
  iconName : ∀ name (place : Nat), table.iconName? place = some name ↔ icons[place]? = some name
  iconId : ∀ name id, table.iconName? id = some name ↔ ∃ place : Nat, table.iconId? name = some place ∧ id = place
  unterminated : table.byOpcode? table.terminator = none
  apart : ∀ key byte, table.complexKey? [byte] = some key → table.byOpcode? byte.toNat = none
  symbols : ∀ name id, table.iconId? name = some id → table.isComplex name = false

theorem rowFor_some {table : CommandTable} {command : Command} :
    (∃ row, table.rowFor? command = some row) ↔ ∃ row ∈ table.rows, row.command = command := by
  rw [rowFor?,← Option.isSome_iff_exists,List.find?_isSome]
  simp only [decide_eq_true_eq]

theorem consistent_sound {table : CommandTable} :
    (table.Consistent ∧ ∃ row, table.rowFor? .printIcon = some row) ↔
      Sound table.terminator table.rows table.complex table.icons := by
  rw [rowFor_some]
  constructor
  · intro ⟨⟨⟨commands,opcodes,names,unterminated,payloads⟩,keys,codes,apart,icons,symbols⟩,printIcon⟩
    obtain ⟨row,found,_⟩ := newLine_row table
    exact ⟨commands,opcodes,(names_distinct (.of_map _ commands)).mpr names,unterminated,
      fun row member => by simpa [CommandRow.hasArgument] using (payloads row member).2.symm,
      fun row member => (payloads row member).1,⟨row,rowFor_mem found⟩,printIcon,keys,codes,
      fun row member key byte glyph => apart _ glyph row member byte rfl,icons,
      fun icon member code glyph => symbols icon member _ glyph rfl⟩
  · intro sound
    refine ⟨⟨⟨sound.commands,sound.opcodes,(names_distinct (.of_map _ sound.commands)).mp sound.names,sound.unterminated,
      fun row member => ⟨sound.textless row member,?_⟩⟩,sound.keys,sound.codes,?_,sound.places,?_⟩,sound.printIcon⟩
    · simpa [CommandRow.hasArgument] using (sound.widths row member).symm
    · intro ⟨key,code⟩ glyph row member byte single
      exact sound.apart row member key byte (single ▸ glyph)
    · intro icon member ⟨key,code⟩ glyph same
      exact sound.symbols icon member code (same ▸ glyph)

section
variable {id : String} {terminator : Int} {rows : List CommandRow} {complex : List (String × Bytes)}
  {icons : List String} {table : CommandTable}

theorem ofRows_sound : (∃ table, ofRows id terminator rows complex icons = .ok table) ↔
    Sound terminator rows complex icons := by
  simp only [ofRows_exact,consistent_sound]
  constructor
  · intro ⟨table,⟨_,ended,same,glyphs,names⟩,sound⟩
    rwa [ended,same,glyphs,names] at sound
  · intro sound
    have newLine : (rows.find? fun row => row.command = .newLine).isSome := by
      simpa using sound.newLine
    exact ⟨⟨id,terminator,rows,complex,icons,newLine⟩,⟨rfl,rfl,rfl,rfl,rfl⟩,sound⟩

theorem iconName_nat (table : CommandTable) (place : Nat) : table.iconName? place = table.icons[place]? := by
  rw [iconName?,if_pos (Int.natCast_nonneg place),Int.toNat_natCast]

theorem Consistent.iconName (consistent : table.Consistent) {name : String} {id : Int} :
    table.iconName? id = some name ↔ ∃ place : Nat, table.iconId? name = some place ∧ id = place := by
  constructor
  · intro found
    have inside : 0 ≤ id := by
      by_contra before
      rw [iconName?,if_neg before] at found
      cases found
    obtain ⟨place,rfl⟩ := Int.eq_ofNat_of_zero_le inside
    exact ⟨place,consistent.iconId (iconName_nat table place ▸ found),rfl⟩
  · intro ⟨place,found,same⟩
    rw [same,iconName_nat]
    exact iconId_place found

theorem ofRows_views (built : ofRows id terminator rows complex icons = .ok table) : table.Views rows complex icons := by
  obtain ⟨⟨_,_,rfl,rfl,rfl⟩,consistent,_⟩ := ofRows_exact.mp built
  have codes : ∀ key code, table.complexCode? key = some code ↔ (key,code) ∈ table.complex :=
    fun key code => ⟨complexCode_mem,consistent.complexCode⟩
  have absent : ∀ opcode, (∀ row ∈ table.rows, row.opcode ≠ opcode) → table.byOpcode? opcode = none := by
    intro opcode free
    simpa [byOpcode?] using free
  refine ⟨fun command row => ⟨rowFor_mem,?_⟩,fun opcode row => ⟨byOpcode_mem,?_⟩,fun name row => ⟨byName_mem,?_⟩,
    newLine_row table,codes,fun key code => ?_,?_,fun _ _ => consistent.iconName,?_,?_,?_⟩
  · exact fun ⟨member,same⟩ => same ▸ consistent.rowFor member
  · exact fun ⟨member,same⟩ => same ▸ consistent.byOpcode member
  · exact fun ⟨member,named⟩ => consistent.byName member named
  · rw [codes]
    exact ⟨complexKey_mem,consistent.complexKey⟩
  · intro name place
    rw [iconName_nat]
  · exact absent _ consistent.unterminated
  · intro key byte found
    exact absent _ fun row member => consistent.apart _ (complexKey_mem found) row member byte rfl
  · intro name id found
    exact consistent.icon_apart (List.mem_of_getElem? (iconId_place found))

-- Rows and symbols become a table in which every lookup shows them, or are an error of the tables.
theorem ofRows_answers : ((∃ table, ofRows id terminator rows complex icons = .ok table) ↔ Sound terminator rows complex icons) ∧
    (∀ table, ofRows id terminator rows complex icons = .ok table → table.terminator = terminator ∧ table.Views rows complex icons) ∧
    (¬ Sound terminator rows complex icons → ∃ error, ofRows id terminator rows complex icons = .error error) := by
  refine ⟨ofRows_sound,fun table built => ⟨(ofRows_fields built).2.1,ofRows_views built⟩,fun unsound => ?_⟩
  cases built : ofRows id terminator rows complex icons with
  | ok table => exact absurd (ofRows_sound.mp ⟨table,built⟩) unsound
  | error error => exact ⟨error,rfl⟩

end

def shortRows : List CommandRow :=
  [⟨.newLine,0x02,0,none,.whole⟩,⟨.printIcon,0x09,1,some "icon",.whole⟩,⟨.reset,0x03,0,some "reset",.whole⟩]

theorem ofRows_answers_sample :
    (∃ table, ofRows "sample" 0x00 shortRows [("VII",[0x7A])] ["item-key"] = .ok table ∧
      table.byName? "reset" = some ⟨.reset,0x03,0,some "reset",.whole⟩ ∧ table.iconName? 0 = some "item-key") ∧
    ∃ error, ofRows "sample" 0x00 shortRows [("VII",[0x7A])] ["item-key","VII"] = .error error := by
  have sound : Sound 0x00 shortRows [("VII",[0x7A])] ["item-key"] := by
    refine ⟨by decide,by decide,by decide,by decide,by decide,by decide,by decide,by decide,by decide,by decide,?_,
      by decide,?_⟩
    · intro row member key byte glyph
      have apart : ∀ row ∈ shortRows, row.opcode ≠ (0x7A : UInt8).toNat := by decide
      simp only [List.mem_singleton,Prod.mk.injEq,List.cons.injEq,and_true] at glyph
      exact glyph.2 ▸ apart row member
    · intro icon member code glyph
      rw [List.mem_singleton] at member
      simp [member] at glyph
  obtain ⟨accepted,views,_⟩ := @ofRows_answers "sample" 0x00 shortRows [("VII",[0x7A])] ["item-key"]
  obtain ⟨table,built⟩ := accepted.mpr sound
  obtain ⟨_,shown⟩ := views table built
  refine ⟨⟨table,built,(shown.byName _ _).mpr ⟨by decide,rfl⟩,(shown.iconName _ 0).mpr rfl⟩,?_⟩
  refine ofRows_answers.2.2 fun shadowed => ?_
  exact shadowed.symbols "VII" (by decide) [0x7A] (by decide)

end GameText.CommandTable
