import GameText.Proofs.Bytes
import GameText.Proofs.Tables.Character
import GameText.Proofs.Tables.Command
import GameText.Tables.Set

namespace GameText.TableSet
open Outcome

-- Tables that the three constructors accept. Runs of glyphs are a way to write
-- the glyphs down and end in the same constructor.
def Accepted (tables : TableSet) : Prop :=
  (∃ glyphs prefixes,
    CharacterTable.ofGlyphs tables.characters.id glyphs prefixes = .ok tables.characters) ∧
  (∃ rows complex icons,
    CommandTable.ofRows tables.commands.id tables.terminator rows complex icons = .ok tables.commands) ∧
  ofTables tables.characters tables.commands = .ok tables

-- The checks inside either table, and those of the two against each other. The
-- terminator is compared with the characters and the opcodes only.
structure Consistent (tables : TableSet) : Prop where
  characters : tables.characters.Consistent
  commands : tables.commands.Consistent
  complexFree : ∀ glyph ∈ tables.commands.complex, tables.characters.hasCode glyph.2 = false
  complexForm : ∀ glyph ∈ tables.commands.complex, (glyph.2.length = 1 ∨ glyph.2.length = 2) →
    tables.characters.CodeForm glyph.2
  rows : ∀ row ∈ tables.commands.rows, ∃ byte : UInt8, row.opcode = byte.toNat ∧
    tables.characters.hasCode [byte] = false ∧ tables.characters.isPrefix byte.toNat = false
  ended : ∃ byte : UInt8, tables.terminator = byte.toNat ∧ tables.characters.hasCode [byte] = false

theorem checkComplex_facts {characters : CharacterTable} {glyph : String × Bytes}
    (checked : checkComplex characters glyph = .ok ()) :
    characters.hasCode glyph.2 = false ∧
      ((glyph.2.length = 1 ∨ glyph.2.length = 2) → characters.CodeForm glyph.2) := by
  unfold checkComplex at checked
  split at checked
  · cases checked
  · rename_i free
    refine ⟨by simpa using free,fun short => ?_⟩
    split at checked
    · rename_i byte single
      simpa [single,CharacterTable.CodeForm] using checked
    · rename_i lead index pair
      simpa [pair,CharacterTable.CodeForm] using checked
    · rename_i notOne notTwo
      rcases short with one | two
      · obtain ⟨byte,single⟩ := List.length_eq_one_iff.mp one
        exact absurd single (notOne byte)
      · obtain ⟨lead,index,pair⟩ := List.length_eq_two.mp two
        exact absurd pair (notTwo lead index)

theorem checkRow_facts {characters : CharacterTable} {row : CommandRow}
    (checked : checkRow characters row = .ok ()) :
    ∃ byte : UInt8, row.opcode = byte.toNat ∧
      characters.hasCode [byte] = false ∧ characters.isPrefix byte.toNat = false := by
  unfold checkRow at checked
  split at checked
  · cases checked
  · rename_i byte made
    have same := Bytes.byteOf_exact.mp made
    split at checked
    · cases checked
    · rename_i free
      rw [not_or,same] at free
      exact ⟨byte,same,by simpa using free.1,by simpa using free.2⟩

theorem checkTerminator_facts {characters : CharacterTable} {terminator : Int}
    (checked : checkTerminator characters terminator = .ok ()) :
    ∃ byte : UInt8, terminator = byte.toNat ∧ characters.hasCode [byte] = false := by
  unfold checkTerminator at checked
  split at checked
  · cases checked
  · rename_i byte made
    split at checked
    · cases checked
    · rename_i free
      exact ⟨byte,Bytes.byteOf_exact.mp made,by simpa using free⟩

theorem Accepted.consistent {tables : TableSet} (accepted : tables.Accepted) : tables.Consistent := by
  obtain ⟨⟨_,_,characters⟩,⟨_,_,_,commands⟩,checked⟩ := accepted
  obtain ⟨_,complex,checked⟩ := bind_ok.mp checked
  obtain ⟨_,rows,checked⟩ := bind_ok.mp checked
  obtain ⟨_,ended,_⟩ := bind_ok.mp checked
  have complexFacts := fun glyph member =>
    checkComplex_facts (mapError_ok.mp (forM_ok.mp complex glyph member))
  exact ⟨CharacterTable.ofGlyphs_consistent characters,CommandTable.ofRows_consistent commands,
    fun glyph member => (complexFacts glyph member).1,fun glyph member => (complexFacts glyph member).2,
    fun row member => checkRow_facts (forM_ok.mp rows row member),checkTerminator_facts ended⟩

theorem Accepted.icon {tables : TableSet} (accepted : tables.Accepted) :
    ∃ row, tables.commands.rowFor? .printIcon = some row := by
  obtain ⟨_,⟨_,_,_,commands⟩,_⟩ := accepted
  exact (CommandTable.ofRows_exact.mp commands).2.2

end GameText.TableSet
