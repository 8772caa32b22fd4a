import GameText.Proofs.Outcome
import GameText.Proofs.Tables.Lookup
import GameText.Tables.Command

namespace GameText

namespace CommandRow
open Outcome
variable {row : CommandRow}

theorem argumentBound_ok {bound : Nat} :
    row.argumentBound = .ok bound ↔ row.isWhole = true ∧ 0 ≤ row.width ∧ bound = row.maxArgument := by
  rw [argumentBound,unless_ok,unless_ok,Bool.not_eq_false,Int.not_lt,Except.ok.injEq,@eq_comm _ bound]

theorem argumentBound_real (real : row.isWhole = false) : row.argumentBound = .error .notAnInteger := if_pos real

end CommandRow

namespace CommandTable
open Outcome Lookup

-- What the checks of the rows leave true of any prefix that was accepted. A row
-- carries data exactly if it has argument bytes, and no row carries text.
structure RowsConsistent (terminator : Int) (rows : List CommandRow) : Prop where
  commands : (rows.map CommandRow.command).Nodup
  opcodes : (rows.map CommandRow.opcode).Nodup
  names : ∀ a ∈ rows, ∀ b ∈ rows, a.name = b.name → a.name ≠ none → a = b
  unterminated : ∀ row ∈ rows, row.opcode ≠ terminator
  payloads : ∀ row ∈ rows, row.command.payload ≠ .text ∧
    (row.command.payload = .data ↔ row.hasArgument = true)

-- The same of a whole table, with its symbols: keys, codes and icons are
-- distinct, and neither an opcode nor an icon is taken for a complex glyph.
structure Consistent (table : CommandTable) : Prop extends
    RowsConsistent table.terminator table.rows where
  keys : (table.complex.map Prod.fst).Nodup
  codes : (table.complex.map Prod.snd).Nodup
  apart : ∀ glyph ∈ table.complex, ∀ row ∈ table.rows, ∀ byte, glyph.2 = [byte] → row.opcode ≠ byte.toNat
  icons : table.icons.Nodup
  symbols : ∀ icon ∈ table.icons, ∀ glyph ∈ table.complex, glyph.1 ≠ icon

-- Two rows that stand in one table.
structure RowsApart (one other : CommandRow) : Prop where
  command : one.command ≠ other.command
  opcode : one.opcode ≠ other.opcode
  name : other.name ≠ none → one.name ≠ other.name

-- A row by itself.
structure RowValid (terminator : Int) (row : CommandRow) : Prop where
  unterminated : row.opcode ≠ terminator
  textless : row.command.payload ≠ .text
  data : row.command.payload = .data ↔ row.hasArgument = true

theorem checked_exact {rows after : List CommandRow} {row : CommandRow} :
    addRow.checked rows row = .ok after ↔
      row.command.payload ≠ .text ∧ (row.command.payload = .data ↔ row.hasArgument = true) ∧
        after = rows ++ [row] := by
  rw [addRow.checked,unless_ok,unless_ok,ne_eq,not_not,eq_iff_iff,Except.ok.injEq,@eq_comm _ after]

theorem addRow_exact {terminator : Int} {rows after : List CommandRow} {row : CommandRow} :
    addRow terminator rows row = .ok after ↔
      (∀ other ∈ rows, RowsApart other row) ∧ RowValid terminator row ∧ after = rows ++ [row] := by
  have checks : addRow terminator rows row = .ok after ↔ (∀ other ∈ rows, other.command ≠ row.command) ∧
      ((∀ other ∈ rows, other.opcode ≠ row.opcode) ∧ row.opcode ≠ terminator) ∧
      (∀ other ∈ rows, row.name ≠ none → other.name ≠ row.name) ∧ addRow.checked rows row = .ok after := by
    rw [addRow,unless_ok,unless_ok]
    simp only [List.any_eq_true,decide_eq_true_eq,not_or,not_exists,not_and]
    cases row.name with
    | none => simp
    | some name => simp
  rw [checks,checked_exact]
  constructor
  · rintro ⟨command,⟨opcode,ended⟩,name,text,data,made⟩
    exact ⟨fun other member => ⟨command other member,opcode other member,name other member⟩,⟨ended,text,data⟩,made⟩
  · rintro ⟨free,⟨ended,text,data⟩,made⟩
    exact ⟨fun other member => (free other member).command,⟨fun other member => (free other member).opcode,ended⟩,
      fun other member => (free other member).name,text,data,made⟩

theorem addComplex_exact {rows : List CommandRow} {glyphs after : List (String × Bytes)} {glyph : String × Bytes} :
    addComplex rows glyphs glyph = .ok after ↔
      (∀ other ∈ glyphs, other.1 ≠ glyph.1 ∧ other.2 ≠ glyph.2) ∧
        (∀ row ∈ rows, ∀ byte, glyph.2 = [byte] → row.opcode ≠ byte.toNat) ∧ after = glyphs ++ [glyph] := by
  have checks : addComplex rows glyphs glyph = .ok after ↔ (∀ other ∈ glyphs, other.1 ≠ glyph.1) ∧
      (∀ other ∈ glyphs, other.2 ≠ glyph.2) ∧
      (∀ row ∈ rows, ∀ byte, glyph.2 = [byte] → row.opcode ≠ byte.toNat) ∧ after = glyphs ++ [glyph] := by
    rw [addComplex,unless_ok,unless_ok]
    simp only [List.any_eq_true,decide_eq_true_eq,not_exists,not_and]
    refine and_congr_right fun _ => and_congr_right fun _ => ?_
    split
    · rename_i byte single
      rw [unless_ok]
      simp [single,eq_comm]
    · rename_i longer
      rw [Except.ok.injEq,eq_comm]
      exact ⟨fun made => ⟨fun _ _ byte single => absurd single (longer byte),made⟩,And.right⟩
  rw [checks,← and_assoc,forall₂_and]

theorem addIcon_exact {complex : List (String × Bytes)} {icons after : List String} {icon : String} :
    addIcon complex icons icon = .ok after ↔
      (∀ other ∈ icons, other ≠ icon) ∧ (∀ glyph ∈ complex, glyph.1 ≠ icon) ∧ after = icons ++ [icon] := by
  rw [addIcon,unless_ok,unless_ok]
  simp only [List.any_eq_true,decide_eq_true_eq,not_exists,not_and,List.contains_iff_mem,Except.ok.injEq,@eq_comm _ after,ne_eq]
  refine and_congr_left fun _ => ?_
  exact ⟨fun new other member same => new (same ▸ member),fun new member => new icon member rfl⟩

theorem rows_apart {rows : List CommandRow} : rows.Pairwise RowsApart ↔
    (rows.map CommandRow.command).Nodup ∧ (rows.map CommandRow.opcode).Nodup ∧
      (rows.filterMap CommandRow.name).Nodup := by
  have each : ∀ one other : CommandRow, RowsApart one other ↔ one.command ≠ other.command ∧ one.opcode ≠ other.opcode ∧
      ∀ name, one.name = some name → ∀ second, other.name = some second → name ≠ second := by
    intro one other
    constructor
    · intro ⟨command,opcode,named⟩
      refine ⟨command,opcode,fun name given second present same => ?_⟩
      exact named (by simp [present]) (by rw [given,present,same])
    · intro ⟨command,opcode,named⟩
      refine ⟨command,opcode,fun present same => ?_⟩
      obtain ⟨name,given⟩ := Option.ne_none_iff_exists'.mp present
      exact named name (same.trans given) name given rfl
  rw [List.Pairwise.iff each,List.pairwise_and_iff,List.pairwise_and_iff]
  simp only [List.Nodup,List.pairwise_map,List.pairwise_filterMap]

theorem addRows_exact {terminator : Int} {rows accepted : List CommandRow} :
    rows.foldlM (addRow terminator) [] = .ok accepted ↔ RowsConsistent terminator rows ∧ accepted = rows := by
  rw [fold_checks (fun _ _ _ => addRow_exact) .nil,List.nil_append,← and_assoc,rows_apart]
  refine and_congr_left fun _ => ⟨?_,?_⟩
  · intro ⟨⟨commands,opcodes,names⟩,valid⟩
    exact ⟨commands,opcodes,(names_distinct (.of_map _ commands)).mp names,
      fun row member => (valid row member).unterminated,
      fun row member => ⟨(valid row member).textless,(valid row member).data⟩⟩
  · intro ⟨commands,opcodes,names,unterminated,payloads⟩
    exact ⟨⟨commands,opcodes,(names_distinct (.of_map _ commands)).mpr names⟩,
      fun row member => ⟨unterminated row member,(payloads row member).1,(payloads row member).2⟩⟩

theorem addComplexes_exact {rows : List CommandRow} {complex accepted : List (String × Bytes)} :
    complex.foldlM (addComplex rows) [] = .ok accepted ↔
      (complex.map Prod.fst).Nodup ∧ (complex.map Prod.snd).Nodup ∧
        (∀ glyph ∈ complex, ∀ row ∈ rows, ∀ byte, glyph.2 = [byte] → row.opcode ≠ byte.toNat) ∧ accepted = complex := by
  rw [fold_checks (fun _ _ _ => addComplex_exact) .nil,List.nil_append,List.pairwise_and_iff,and_assoc,
    List.Nodup,List.Nodup,List.pairwise_map,List.pairwise_map]

theorem addIcons_exact {complex : List (String × Bytes)} {icons accepted : List String} :
    icons.foldlM (addIcon complex) [] = .ok accepted ↔
      icons.Nodup ∧ (∀ icon ∈ icons, ∀ glyph ∈ complex, glyph.1 ≠ icon) ∧ accepted = icons := by
  rw [fold_checks (fun _ _ _ => addIcon_exact) .nil,List.nil_append,List.Nodup]

theorem ofRows_exact {id : String} {terminator : Int} {rows : List CommandRow} {complex : List (String × Bytes)}
    {icons : List String} {table : CommandTable} : ofRows id terminator rows complex icons = .ok table ↔
      (table.id = id ∧ table.terminator = terminator ∧ table.rows = rows ∧ table.complex = complex ∧
        table.icons = icons) ∧ table.Consistent ∧ ∃ row, table.rowFor? .printIcon = some row := by
  constructor
  · intro built
    obtain ⟨_,ranRows,given⟩ := bind_ok.mp built
    split at given
    · rw [unless_ok,Option.isNone_iff_eq_none] at given
      obtain ⟨present,given⟩ := given
      obtain ⟨_,ranComplex,given⟩ := bind_ok.mp given
      obtain ⟨_,ranIcons,made⟩ := bind_ok.mp given
      cases made
      obtain ⟨rowsConsistent,rfl⟩ := addRows_exact.mp ranRows
      obtain ⟨keys,codes,apart,rfl⟩ := addComplexes_exact.mp ranComplex
      obtain ⟨distinct,symbols,rfl⟩ := addIcons_exact.mp ranIcons
      exact ⟨⟨rfl,rfl,rfl,rfl,rfl⟩,⟨rowsConsistent,keys,codes,apart,distinct,symbols⟩,
        Option.ne_none_iff_exists'.mp present⟩
    · cases given
  · rintro ⟨⟨rfl,rfl,rfl,rfl,rfl⟩,⟨rowsConsistent,keys,codes,apart,distinct,symbols⟩,row,icon⟩
    refine bind_ok.mpr ⟨_,addRows_exact.mpr ⟨rowsConsistent,rfl⟩,?_⟩
    rw [dif_pos table.hasNewLine,unless_ok]
    refine ⟨by rw [show table.rows.find? _ = some row from icon]; simp,?_⟩
    exact bind_ok.mpr ⟨_,addComplexes_exact.mpr ⟨keys,codes,apart,rfl⟩,
      bind_ok.mpr ⟨_,addIcons_exact.mpr ⟨distinct,symbols,rfl⟩,rfl⟩⟩

theorem ofRows_fields {id : String} {terminator : Int} {rows : List CommandRow} {complex : List (String × Bytes)}
    {icons : List String} {table : CommandTable} (built : ofRows id terminator rows complex icons = .ok table) :
    table.id = id ∧ table.terminator = terminator ∧ table.rows = rows ∧ table.complex = complex ∧
      table.icons = icons := (ofRows_exact.mp built).1

theorem ofRows_consistent {id : String} {terminator : Int} {rows : List CommandRow}
    {complex : List (String × Bytes)} {icons : List String} {table : CommandTable}
    (built : ofRows id terminator rows complex icons = .ok table) : table.Consistent := (ofRows_exact.mp built).2.1

theorem RowsConsistent.bare {terminator : Int} {rows : List CommandRow} (consistent : RowsConsistent terminator rows)
    {row : CommandRow} (member : row ∈ rows) : row.command.payload = .nothing ↔ row.hasArgument = false := by
  obtain ⟨noText,data⟩ := consistent.payloads row member
  rw [Bool.eq_false_iff,ne_eq,← data]
  cases form : row.command.payload with
  | text => exact absurd form noText
  | data => simp
  | nothing => simp

section
variable {table : CommandTable}

theorem rowFor_mem {command : Command} {row : CommandRow} (found : table.rowFor? command = some row) :
    row ∈ table.rows ∧ row.command = command := find_key found

theorem byOpcode_mem {opcode : Int} {row : CommandRow} (found : table.byOpcode? opcode = some row) :
    row ∈ table.rows ∧ row.opcode = opcode := find_key found

theorem byName_mem {name : String} {row : CommandRow} (found : table.byName? name = some row) :
    row ∈ table.rows ∧ row.name = some name := find_key found

theorem Consistent.rowFor (consistent : table.Consistent) {row : CommandRow} (member : row ∈ table.rows) :
    table.rowFor? row.command = some row := find_mem consistent.commands member

theorem Consistent.byOpcode (consistent : table.Consistent) {row : CommandRow} (member : row ∈ table.rows) :
    table.byOpcode? row.opcode = some row := find_mem consistent.opcodes member

theorem Consistent.byName (consistent : table.Consistent) {row : CommandRow} {name : String}
    (member : row ∈ table.rows) (named : row.name = some name) : table.byName? name = some row := by
  cases found : table.byName? name with
  | none => exact absurd named (find_none found row member)
  | some other =>
    obtain ⟨present,same⟩ := byName_mem found
    rw [consistent.names other present row member (same.trans named.symm) (by simp [same])]

theorem newLine_row (table : CommandTable) :
    ∃ row, table.rowFor? .newLine = some row ∧ row.opcode = table.newLineOpcode :=
  ⟨_,(Option.some_get table.hasNewLine).symm,rfl⟩

theorem complexCode_mem {key : String} {code : Bytes} (found : table.complexCode? key = some code) :
    (key,code) ∈ table.complex := by
  obtain ⟨glyph,search,rfl⟩ := Option.map_eq_some_iff.mp found
  obtain ⟨member,rfl⟩ := find_key search
  exact member

theorem complexKey_mem {key : String} {code : Bytes} (found : table.complexKey? code = some key) :
    (key,code) ∈ table.complex := by
  obtain ⟨glyph,search,rfl⟩ := Option.map_eq_some_iff.mp found
  obtain ⟨member,rfl⟩ := find_key search
  exact member

theorem Consistent.complexCode (consistent : table.Consistent) {key : String} {code : Bytes}
    (member : (key,code) ∈ table.complex) : table.complexCode? key = some code := by
  rw [complexCode?,find_mem consistent.keys member]; rfl

theorem Consistent.complexKey (consistent : table.Consistent) {key : String} {code : Bytes}
    (member : (key,code) ∈ table.complex) : table.complexKey? code = some key := by
  rw [complexKey?,find_mem consistent.codes member]; rfl

theorem iconId_place {name : String} {id : Nat} (found : table.iconId? name = some id) :
    table.icons[id]? = some name := by
  obtain ⟨inside,same,_⟩ := List.findIdx?_eq_some_iff_getElem.mp found
  rw [List.getElem?_eq_getElem inside]
  exact congrArg some (of_decide_eq_true same)

theorem Consistent.iconId (consistent : table.Consistent) {name : String} {id : Nat}
    (place : table.icons[id]? = some name) : table.iconId? name = some id := by
  obtain ⟨inside,same⟩ := List.getElem?_eq_some_iff.mp place
  refine List.findIdx?_eq_some_iff_getElem.mpr ⟨inside,decide_eq_true same,fun other earlier => ?_⟩
  intro equal
  have twice : table.icons[other] = table.icons[id] := (of_decide_eq_true equal).trans same.symm
  exact absurd ((List.Nodup.getElem_inj_iff consistent.icons).mp twice) (Nat.ne_of_lt earlier)

theorem Consistent.icon_apart (consistent : table.Consistent) {name : String} (icon : name ∈ table.icons) :
    table.isComplex name = false := by
  unfold isComplex complexCode?
  rw [Option.isSome_map,Bool.eq_false_iff,ne_eq,List.find?_isSome]
  rintro ⟨glyph,member,same⟩
  exact consistent.symbols name icon glyph member (of_decide_eq_true same)

theorem Consistent.isComplex (consistent : table.Consistent) {key : String} {code : Bytes}
    (member : (key,code) ∈ table.complex) : table.isComplex key = true := by
  rw [CommandTable.isComplex,consistent.complexCode member]; rfl

theorem isComplex_mem {key : String} (known : table.isComplex key = true) : ∃ code, (key,code) ∈ table.complex := by
  obtain ⟨code,found⟩ := Option.isSome_iff_exists.mp known
  exact ⟨code,complexCode_mem found⟩

end
end CommandTable
end GameText
