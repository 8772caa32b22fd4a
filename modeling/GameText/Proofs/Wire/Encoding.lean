import GameText.Proofs.Message.Normal
import GameText.Proofs.Wire.Grammar

namespace GameText.Wire
open Outcome
variable {tables : TableSet}

@[simp]
theorem byte_exact {value : Int} {head : UInt8} : byte value = .ok head ↔ value = head.toNat := by
  unfold byte
  rw [← Bytes.byteOf_exact]
  split <;> simp_all

theorem charBytes_exact {index : Nat} {c : Char} {bytes : Bytes} :
    charBytes tables index c = .ok bytes ↔
      if c = '\n' then ∃ head : UInt8, tables.commands.newLineOpcode = head.toNat ∧ bytes = [head]
      else tables.characters.encodeChar? c = some bytes := by
  unfold charBytes
  split
  · simp [@eq_comm _ bytes]
  · cases tables.characters.encodeChar? c <;> simp [fail]

theorem textBytes_cons {index : Nat} {c : Char} {rest : List Char} {bytes : Bytes} :
    textBytes tables index (c :: rest) = .ok bytes ↔
      ∃ head tail, charBytes tables index c = .ok head ∧ textBytes tables index rest = .ok tail ∧
        bytes = head ++ tail := by
  simp [textBytes,@eq_comm _ bytes]

@[simp]
theorem opcodeOf_exact {index : Nat} {command : Command} {row : CommandRow} {head : UInt8} :
    opcodeOf tables index command = .ok (row,head) ↔
      tables.commands.rowFor? command = some row ∧ row.opcode = head.toNat := by
  unfold opcodeOf
  cases found : tables.commands.rowFor? command with
  | none => simp [fail]
  | some other =>
    rw [bind_ok]
    simp only [byte_exact,Except.ok.injEq,Prod.mk.injEq,Option.some.injEq]
    constructor
    · rintro ⟨_,opcode,rfl,rfl⟩
      exact ⟨rfl,opcode⟩
    · rintro ⟨rfl,opcode⟩
      exact ⟨head,opcode,rfl,rfl⟩

theorem complexBytes_exact {index : Nat} {key : String} {bytes : Bytes} :
    entryBytes tables index (.complex key) = .ok bytes ↔ tables.commands.complexCode? key = some bytes := by
  rw [entryBytes]
  cases tables.commands.complexCode? key <;> simp [fail]

theorem lineBytes_exact {index : Nat} {text : Option String} {data : Option Bytes} {bytes : Bytes} :
    entryBytes tables index (.lineBreak text data) = .ok bytes ↔
      ∃ row head, tables.commands.rowFor? .newLine = some row ∧ row.opcode = UInt8.toNat head ∧
        bytes = [head] := by
  simp [entryBytes,and_assoc,@eq_comm _ bytes]

theorem bareBytes_exact {index : Nat} {command : Command} {fits : command.isBare = true} {bytes : Bytes} :
    entryBytes tables index (.bare command fits) = .ok bytes ↔
      ∃ row head, tables.commands.rowFor? command = some row ∧ row.opcode = UInt8.toNat head ∧
        bytes = [head] := by
  simp [entryBytes,and_assoc,@eq_comm _ bytes]

theorem argumentBytes_exact {index : Nat} {command : Command} {data : Bytes}
    {fits : command.payload = .data} {bytes : Bytes} :
    entryBytes tables index (.argument command data fits) = .ok bytes ↔
      ∃ row head, tables.commands.rowFor? command = some row ∧ row.opcode = UInt8.toNat head ∧
        (data.length : Int) = row.width ∧ bytes = head :: data := by
  simp only [entryBytes,bind_ok,Prod.exists,opcodeOf_exact]
  constructor
  · rintro ⟨row,head,⟨found,opcode⟩,made⟩
    split at made
    · rename_i width
      cases made
      exact ⟨row,head,found,opcode,width,rfl⟩
    · cases made
  · rintro ⟨row,head,found,opcode,width,rfl⟩
    exact ⟨row,head,⟨found,opcode⟩,if_pos width⟩

theorem textBytes_index {i j : Nat} {text : List Char} {bytes : Bytes}
    (encoded : textBytes tables i text = .ok bytes) : textBytes tables j text = .ok bytes := by
  induction text generalizing bytes with
  | nil => exact encoded
  | cons c rest ih =>
    obtain ⟨head,tail,char,others,rfl⟩ := textBytes_cons.mp encoded
    exact textBytes_cons.mpr ⟨head,tail,charBytes_exact.mpr (charBytes_exact.mp char),ih others,rfl⟩

theorem entryBytes_index {i j : Nat} {entry : Entry} {bytes : Bytes}
    (encoded : entryBytes tables i entry = .ok bytes) : entryBytes tables j entry = .ok bytes := by
  cases entry with
  | text content => exact textBytes_index encoded
  | complex key => exact complexBytes_exact.mpr (complexBytes_exact.mp encoded)
  | lineBreak text data => exact lineBytes_exact.mpr (lineBytes_exact.mp encoded)
  | bare command fits => exact bareBytes_exact.mpr (bareBytes_exact.mp encoded)
  | argument command data fits => exact argumentBytes_exact.mpr (argumentBytes_exact.mp encoded)

theorem encodeFrom_cons {index : Nat} {entry : Entry} {rest : List Entry} {bytes : Bytes} :
    encodeFrom tables index (entry :: rest) = .ok bytes ↔
      ∃ head tail, entryBytes tables index entry = .ok head ∧ encodeFrom tables (index + 1) rest = .ok tail ∧
        bytes = head ++ tail := by
  simp [encodeFrom,@eq_comm _ bytes]

theorem encodeFrom_index {i j : Nat} {entries : List Entry} {bytes : Bytes}
    (encoded : encodeFrom tables i entries = .ok bytes) : encodeFrom tables j entries = .ok bytes := by
  induction entries generalizing i j bytes with
  | nil => exact encoded
  | cons entry rest ih =>
    obtain ⟨head,tail,first,others,rfl⟩ := encodeFrom_cons.mp encoded
    exact encodeFrom_cons.mpr ⟨head,tail,entryBytes_index first,ih others,rfl⟩

theorem encodeFrom_ends {index : Nat} {entries : List Entry} {bytes : Bytes}
    (encoded : encodeFrom tables index entries = .ok bytes) :
    ∃ front last, bytes = front ++ [last] ∧ tables.terminator = UInt8.toNat last := by
  induction entries generalizing index bytes with
  | nil =>
    obtain ⟨last,terminator,made⟩ := bind_ok.mp encoded
    cases made
    exact ⟨[],last,rfl,byte_exact.mp terminator⟩
  | cons entry rest ih =>
    obtain ⟨head,tail,_,others,rfl⟩ := encodeFrom_cons.mp encoded
    obtain ⟨front,last,rfl,terminator⟩ := ih others
    exact ⟨head ++ front,last,(List.append_assoc _ _ _).symm,terminator⟩

def charToken (c : Char) : Token := if c = '\n' then .entry Entry.newLine else .glyph c

def tokensOf : Entry → List Token
  | .text content => content.toList.map charToken
  | .lineBreak _ _ => [.entry Entry.newLine]
  | entry => [.entry entry]

theorem lineBreak_spelled {row : CommandRow} {head : UInt8}
    (found : tables.commands.rowFor? .newLine = some row) (opcode : row.opcode = head.toNat) :
    Spelled tables (.entry Entry.newLine) [head] := by
  obtain ⟨member,command⟩ := CommandTable.rowFor_mem found
  exact .lineBreak member opcode command

theorem char_spelled {index : Nat} {c : Char} {bytes : Bytes}
    (encoded : charBytes tables index c = .ok bytes) : Spelled tables (charToken c) bytes := by
  have exact := charBytes_exact.mp encoded
  unfold charToken
  split at exact
  · rename_i line
    obtain ⟨head,opcode,rfl⟩ := exact
    obtain ⟨row,found,same⟩ := CommandTable.newLine_row tables.commands
    rw [if_pos line]
    exact lineBreak_spelled found (same.trans opcode)
  · rename_i plain
    rw [if_neg plain]
    exact .glyph (CharacterTable.encodeChar_mem exact)

theorem text_stream {index : Nat} {text : List Char} {bytes : Bytes}
    (encoded : textBytes tables index text = .ok bytes) {tokens : List Token} {rest : Bytes}
    (stream : Stream tables tokens rest) : Stream tables (text.map charToken ++ tokens) (bytes ++ rest) := by
  induction text generalizing bytes with
  | nil =>
    cases encoded
    exact stream
  | cons c more ih =>
    obtain ⟨head,tail,char,others,rfl⟩ := textBytes_cons.mp encoded
    rw [List.append_assoc]
    exact .token (char_spelled char) (ih others)

theorem entry_stream (short : ∀ glyph ∈ tables.commands.complex, glyph.2.length = 1 ∨ glyph.2.length = 2)
    {index : Nat} {entry : Entry} {bytes : Bytes} (encoded : entryBytes tables index entry = .ok bytes)
    {tokens : List Token} {rest : Bytes} (stream : Stream tables tokens rest) :
    Stream tables (tokensOf entry ++ tokens) (bytes ++ rest) := by
  cases entry with
  | text content => exact text_stream encoded stream
  | complex key =>
    have member := CommandTable.complexCode_mem (complexBytes_exact.mp encoded)
    exact .token (.complex member (short _ member)) stream
  | lineBreak text data =>
    obtain ⟨row,head,found,opcode,rfl⟩ := lineBytes_exact.mp encoded
    exact .token (lineBreak_spelled found opcode) stream
  | bare command fits =>
    obtain ⟨row,head,found,opcode,rfl⟩ := bareBytes_exact.mp encoded
    obtain ⟨member,rfl⟩ := CommandTable.rowFor_mem found
    exact .token (.bare member opcode fits) stream
  | argument command data fits =>
    obtain ⟨row,head,found,opcode,width,rfl⟩ := argumentBytes_exact.mp encoded
    obtain ⟨member,rfl⟩ := CommandTable.rowFor_mem found
    exact .token (.argument member opcode fits width) stream

theorem stream_of_encode (short : ∀ glyph ∈ tables.commands.complex, glyph.2.length = 1 ∨ glyph.2.length = 2)
    {index : Nat} {entries : List Entry} {bytes : Bytes}
    (encoded : encodeFrom tables index entries = .ok bytes) :
    Stream tables (entries.flatMap tokensOf) bytes := by
  induction entries generalizing index bytes with
  | nil =>
    obtain ⟨head,terminator,made⟩ := bind_ok.mp encoded
    cases made
    exact .ended (byte_exact.mp terminator)
  | cons entry rest ih =>
    obtain ⟨head,tail,first,others,rfl⟩ := encodeFrom_cons.mp encoded
    exact entry_stream short first (ih others)

theorem textBytes_append {index : Nat} {left right : List Char} {a b : Bytes}
    (first : textBytes tables index left = .ok a) (second : textBytes tables index right = .ok b) :
    textBytes tables index (left ++ right) = .ok (a ++ b) := by
  induction left generalizing a with
  | nil =>
    cases first
    exact second
  | cons c more ih =>
    obtain ⟨head,tail,char,others,rfl⟩ := textBytes_cons.mp first
    exact textBytes_cons.mpr ⟨head,tail ++ b,char,ih others,List.append_assoc _ _ _⟩

theorem encodeFrom_prepend {index : Nat} {text : String} {entries : List Entry} {a b : Bytes}
    (first : textBytes tables index text.toList = .ok a) (others : encodeFrom tables index entries = .ok b) :
    encodeFrom tables index (Message.prepend text entries) = .ok (a ++ b) := by
  have apart : encodeFrom tables index (.text text :: entries) = .ok (a ++ b) :=
    encodeFrom_cons.mpr ⟨a,b,first,encodeFrom_index others,rfl⟩
  unfold Message.prepend
  split
  · rename_i empty
    subst empty
    cases first
    exact others
  · split
    · rename_i next rest
      obtain ⟨head,tail,content,more,rfl⟩ := encodeFrom_cons.mp others
      rw [← List.append_assoc]
      refine encodeFrom_cons.mpr ⟨a ++ head,tail,?_,more,rfl⟩
      rw [entryBytes,String.toList_append]
      exact textBytes_append first content
    · exact apart

theorem lineFeed_bytes {index : Nat} {text : Option String} {data : Option Bytes} {bytes : Bytes}
    (encoded : entryBytes tables index (.lineBreak text data) = .ok bytes) :
    textBytes tables index "\n".toList = .ok bytes := by
  obtain ⟨row,head,found,opcode,rfl⟩ := lineBytes_exact.mp encoded
  obtain ⟨other,same,line⟩ := CommandTable.newLine_row tables.commands
  rw [found] at same
  cases same
  rw [show "\n".toList = ['\n'] by decide]
  refine textBytes_cons.mpr ⟨[head],[],charBytes_exact.mpr ?_,rfl,rfl⟩
  rw [if_pos rfl]
  exact ⟨head,line.symm.trans opcode,rfl⟩

theorem encodeFrom_flat {index : Nat} {entries : List Entry} {bytes : Bytes}
    (encoded : encodeFrom tables index entries = .ok bytes) :
    encodeFrom tables index (Message.flat entries) = .ok bytes := by
  induction entries generalizing index bytes with
  | nil => exact encoded
  | cons entry rest ih =>
    obtain ⟨head,tail,first,others,rfl⟩ := encodeFrom_cons.mp encoded
    have kept : encodeFrom tables index (entry :: Message.flat rest) = .ok (head ++ tail) :=
      encodeFrom_cons.mpr ⟨head,tail,first,ih others,rfl⟩
    cases entry with
    | text content => exact encodeFrom_prepend first (encodeFrom_index (ih others))
    | lineBreak text data => exact encodeFrom_prepend (lineFeed_bytes first) (encodeFrom_index (ih others))
    | complex key => exact kept
    | bare command fits => exact kept
    | argument command data fits => exact kept

end GameText.Wire
