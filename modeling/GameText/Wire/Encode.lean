import GameText.Entry
import GameText.Tables.Set

namespace GameText.Wire

-- The stream the renderer reads: glyph codes, opcodes with their argument
-- bytes, and one terminator. Nothing tells the length of a message.
def fail {α : Type} (cause : EncodingCause) (position : Int) : Except Fault α :=
  .error (.encoding ⟨cause,some position⟩)

def byte (value : Int) : Except Fault UInt8 :=
  match Bytes.byteOf? value with
  | none => .error (.value (.notAByte value))
  | some byte => .ok byte

-- A line feed in a text is the line break's opcode, whatever glyph it has.
def charBytes (tables : TableSet) (index : Nat) (c : Char) : Except Fault Bytes :=
  if c = '\n' then do
    let opcode ← byte tables.commands.newLineOpcode
    .ok [opcode]
  else match tables.characters.encodeChar? c with
    | none => fail (.noGlyph c) index
    | some code => .ok code

def textBytes (tables : TableSet) (index : Nat) : List Char → Except Fault Bytes
  | [] => .ok []
  | c :: rest => do
    let head ← charBytes tables index c
    let tail ← textBytes tables index rest
    .ok (head ++ tail)

def opcodeOf (tables : TableSet) (index : Nat) (command : Command) :
    Except Fault (CommandRow × UInt8) :=
  match tables.commands.rowFor? command with
  | none => fail (.noOpcode command) index
  | some row => do
    let opcode ← byte row.opcode
    .ok (row,opcode)

def entryBytes (tables : TableSet) (index : Nat) : Entry → Except Fault Bytes
  | .text content => textBytes tables index content.toList
  | .complex key => match tables.commands.complexCode? key with
    | none => fail (.unknownComplex key) index
    | some code => .ok code
  | .lineBreak _ _ => do
    let (_,opcode) ← opcodeOf tables index .newLine
    .ok [opcode]
  | .bare command _ => do
    let (_,opcode) ← opcodeOf tables index command
    .ok [opcode]
  | .argument command data _ => do
    let (row,opcode) ← opcodeOf tables index command
    if (data.length : Int) = row.width then .ok (opcode :: data)
    else fail (.wrongArgument command row.width data row.form) index

def encodeFrom (tables : TableSet) (index : Nat) : List Entry → Except Fault Bytes
  | [] => do
    let terminator ← byte tables.terminator
    .ok [terminator]
  | entry :: rest => do
    let head ← entryBytes tables index entry
    let tail ← encodeFrom tables (index + 1) rest
    .ok (head ++ tail)

def encode (tables : TableSet) (entries : List Entry) : Except Fault Bytes :=
  encodeFrom tables 0 entries

end GameText.Wire
