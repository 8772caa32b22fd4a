import GameText.Tables.Character
import GameText.Tables.Command

namespace GameText

structure TableSet where
  characters : CharacterTable
  commands : CommandTable

namespace TableSet

def terminator (tables : TableSet) : Int := tables.commands.terminator

def checkComplex (characters : CharacterTable) (glyph : String × Bytes) : Except TableError Unit :=
  if characters.hasCode glyph.2 then .error (.complexIsCharacter glyph.2)
  else match glyph.2 with
    | [byte] =>
      if characters.isPrefix byte.toNat then .error (.complexIsPrefix byte) else .ok ()
    | [lead,_] =>
      if characters.isPrefix lead.toNat then .ok () else .error (.complexWithoutPrefix glyph.2)
    | _ => .ok ()

def checkRow (characters : CharacterTable) (row : CommandRow) : Except Fault Unit :=
  match Bytes.byteOf? row.opcode with
  | none => .error (.value (.notAByte row.opcode))
  | some byte =>
    if characters.hasCode [byte] ∨ characters.isPrefix row.opcode then
      .error (.table (.opcodeIsCharacter row.opcode))
    else .ok ()

def checkTerminator (characters : CharacterTable) (terminator : Int) : Except Fault Unit :=
  match Bytes.byteOf? terminator with
  | none => .error (.value (.notAByte terminator))
  | some byte =>
    if characters.hasCode [byte] then .error (.table .terminatorIsCharacter) else .ok ()

-- Nothing here compares the terminator with the escape prefixes or with the complex glyphs.
def ofTables (characters : CharacterTable) (commands : CommandTable) : Except Fault TableSet := do
  commands.complex.forM fun glyph => (checkComplex characters glyph).mapError .table
  commands.rows.forM (checkRow characters)
  checkTerminator characters commands.terminator
  .ok ⟨characters,commands⟩

end TableSet
end GameText
