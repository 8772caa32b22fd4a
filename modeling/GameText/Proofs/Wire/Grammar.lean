import GameText.Proofs.Message.Build
import GameText.Proofs.Tables.Set
import GameText.Wire.Decode

namespace GameText.Wire
open Outcome

-- How each token stands in a stream, said by the rows of the tables alone.
inductive Spelled (tables : TableSet) : Token → Bytes → Prop where
  | glyph {c : Char} {code : Bytes} (member : (c,code) ∈ tables.characters.glyphs) :
      Spelled tables (.glyph c) code
  | complex {key : String} {code : Bytes} (member : (key,code) ∈ tables.commands.complex)
      (short : code.length = 1 ∨ code.length = 2) : Spelled tables (.entry (.complex key)) code
  | lineBreak {row : CommandRow} {head : UInt8} (member : row ∈ tables.commands.rows)
      (opcode : row.opcode = head.toNat) (command : row.command = .newLine) :
      Spelled tables (.entry Entry.newLine) [head]
  | bare {row : CommandRow} {head : UInt8} (member : row ∈ tables.commands.rows)
      (opcode : row.opcode = head.toNat) (fits : row.command.isBare = true) :
      Spelled tables (.entry (.bare row.command fits)) [head]
  | argument {row : CommandRow} {head : UInt8} {data : Bytes} (member : row ∈ tables.commands.rows)
      (opcode : row.opcode = head.toNat) (fits : row.command.payload = .data)
      (width : (data.length : Int) = row.width) :
      Spelled tables (.entry (.argument row.command data fits)) (head :: data)

-- A message: its tokens one after another, then the terminator.
inductive Stream (tables : TableSet) : List Token → Bytes → Prop where
  | ended {byte : UInt8} (terminator : tables.terminator = byte.toNat) : Stream tables [] [byte]
  | token {token : Token} {tokens : List Token} {piece rest : Bytes} (spelled : Spelled tables token piece)
      (stream : Stream tables tokens rest) : Stream tables (token :: tokens) (piece ++ rest)

-- What the wire asks of tables beyond their checks: complex glyphs have codes
-- that a reader can take in, and nothing but the end starts with the terminator.
structure Delimited (tables : TableSet) : Prop where
  short : ∀ glyph ∈ tables.commands.complex, glyph.2.length = 1 ∨ glyph.2.length = 2
  unescaped : tables.characters.isPrefix tables.terminator = false
  unshared : ∀ glyph ∈ tables.commands.complex,
    glyph.2.map (fun byte => (byte.toNat : Int)) ≠ [tables.terminator]

-- What a reading cannot go on with: no more bytes, a token that the data cut short, or a code
-- that neither table knows.
inductive Stuck (tables : TableSet) : Bytes → EncodingCause → Prop where
  | ended : Stuck tables [] (.missingTerminator .whole)
  | argument {head : UInt8} {rest : Bytes} {row : CommandRow} (going : tables.terminator ≠ head.toNat)
      (claimed : tables.commands.byOpcode? head.toNat = some row) (short : rest.length < row.argumentSize) :
      Stuck tables (head :: rest) (.truncatedArgument row.command head)
  | glyph {head : UInt8} {rest : Bytes} (going : tables.terminator ≠ head.toNat)
      (unclaimed : tables.commands.byOpcode? head.toNat = none)
      (short : (head :: rest).length < tables.characters.codeLength head.toNat) :
      Stuck tables (head :: rest) (.truncatedGlyph (head :: rest))
  | unassigned {head : UInt8} {more rest : Bytes} (going : tables.terminator ≠ head.toNat)
      (unclaimed : tables.commands.byOpcode? head.toNat = none)
      (length : (head :: more).length = tables.characters.codeLength head.toNat)
      (glyphless : tables.characters.decodeCode? (head :: more) = none)
      (keyless : tables.commands.complexKey? (head :: more) = none) :
      Stuck tables (head :: (more ++ rest)) (.unassignedGlyph (head :: more))

section
variable {tables : TableSet}

theorem bare_row (consistent : tables.Consistent) {row : CommandRow} (member : row ∈ tables.commands.rows)
    (form : row.command.payload = .nothing) : row.hasArgument = false ∧ row.argumentSize = 0 := by
  have has := (consistent.commands.bare member).mp form
  have bare : ¬ 0 < row.width := by simpa [CommandRow.hasArgument] using has
  refine ⟨has,?_⟩
  unfold CommandRow.argumentSize
  omega

theorem rowEntry_spelled (consistent : tables.Consistent) {row : CommandRow}
    (member : row ∈ tables.commands.rows) {head : UInt8} (opcode : row.opcode = head.toNat)
    {argument : Bytes} (width : argument.length = row.argumentSize) :
    ∃ entry, rowEntry row argument = .ok entry ∧ Spelled tables (.entry entry) (head :: argument) := by
  obtain ⟨noText,data⟩ := consistent.commands.payloads row member
  unfold rowEntry
  cases form : row.command.payload with
  | text => exact absurd form noText
  | data =>
    have has := data.mp form
    have positive : 0 < row.width := by simpa [CommandRow.hasArgument] using has
    unfold CommandRow.argumentSize at width
    rw [if_pos has]
    exact ⟨_,Entry.build_argument form,.argument member opcode form (by omega)⟩
  | nothing =>
    obtain ⟨bare,none⟩ := bare_row consistent member form
    rw [bare,List.eq_nil_of_length_eq_zero (width.trans none)]
    rcases Entry.bare_or_newLine form with fits | line
    · exact ⟨_,Entry.build_bare fits,.bare member opcode fits⟩
    · rw [line]
      exact ⟨_,Entry.build_newLine,.lineBreak member opcode line⟩

theorem byOpcode_head (consistent : tables.Consistent) {row : CommandRow} (member : row ∈ tables.commands.rows)
    {head : UInt8} (opcode : row.opcode = head.toNat) :
    tables.commands.byOpcode? head.toNat = some row := opcode ▸ consistent.commands.byOpcode member

theorem code_unclaimed (consistent : tables.Consistent) {head : UInt8} {more : Bytes}
    (form : tables.characters.CodeForm (head :: more))
    (single : more = [] → ∀ row ∈ tables.commands.rows, row.opcode ≠ head.toNat) :
    tables.commands.byOpcode? head.toNat = none := by
  cases found : tables.commands.byOpcode? head.toNat with
  | none => rfl
  | some row =>
    obtain ⟨member,opcode⟩ := CommandTable.byOpcode_mem found
    match more,form with
    | [],_ => exact absurd opcode (single rfl row member)
    | [_],lead =>
      obtain ⟨byte,same,_,free⟩ := consistent.rows row member
      rw [← same,opcode] at free
      exact absurd (lead.symm.trans free) (by simp)

theorem codeLength_form {head : UInt8} {more : Bytes} (form : tables.characters.CodeForm (head :: more)) :
    tables.characters.codeLength head.toNat = more.length + 1 := by
  unfold CharacterTable.codeLength
  match more,form with
  | [],plain => rw [plain]; rfl
  | [_],lead => rw [lead]; rfl

-- What a reader makes of a piece by its first byte: the entry of a row, or what a
-- code stands for.
def named (tables : TableSet) (position : Nat) (head : UInt8) (more : Bytes) : Except Fault Token :=
  match tables.commands.byOpcode? head.toNat with
  | some row => (rowEntry row more).map .entry
  | none => codeToken tables position (head :: more)

theorem token_cut {head : UInt8} {rest : Bytes} (enough : tokenLength tables head - 1 ≤ rest.length) :
    ∃ more tail, rest = more ++ tail ∧ tokenLength tables head = more.length + 1 := by
  have positive := tokenLength_pos tables head
  refine ⟨_,_,(List.take_append_drop (tokenLength tables head - 1) rest).symm,?_⟩
  rw [List.length_take_of_le enough]
  omega

theorem row_length {head : UInt8} {more : Bytes} {row : CommandRow}
    (claimed : tables.commands.byOpcode? head.toNat = some row) (length : tokenLength tables head = more.length + 1) :
    row.argumentSize = more.length := by
  rw [tokenLength,claimed] at length
  exact Nat.add_left_cancel (length.trans (Nat.add_comm _ 1))

theorem code_length {head : UInt8} {more : Bytes} (unclaimed : tables.commands.byOpcode? head.toNat = none)
    (length : tokenLength tables head = more.length + 1) :
    tables.characters.codeLength head.toNat = more.length + 1 := by
  rwa [tokenLength,unclaimed] at length

theorem read_cut {head : UInt8} {more rest : Bytes} {position : Nat} (going : tables.terminator ≠ head.toNat)
    (length : tokenLength tables head = more.length + 1) :
    tokensFrom tables position (head :: (more ++ rest)) = named tables position head more >>= fun token =>
      tokensFrom tables (position + (more.length + 1)) rest >>= fun found => .ok (token :: found.1,found.2) := by
  rw [tokensFrom,if_neg (Ne.symm going),named,Nat.add_comm more.length,← Nat.add_assoc]
  cases claimed : tables.commands.byOpcode? head.toNat with
  | some row =>
    simp only [row_length claimed length,List.take_left,List.drop_left]
    rw [if_neg (by simp)]
    cases rowEntry row more <;> rfl
  | none =>
    simp only [code_length claimed length,Nat.add_sub_cancel,List.take_left,List.drop_left]
    exact if_neg (by simp)

theorem read_named {head : UInt8} {more rest : Bytes} {position after : Nat} {token : Token} {tokens : List Token}
    (going : tables.terminator ≠ head.toNat) (length : tokenLength tables head = more.length + 1)
    (name : named tables position head more = .ok token)
    (reading : tokensFrom tables (position + (more.length + 1)) rest = .ok (tokens,after)) :
    tokensFrom tables position (head :: (more ++ rest)) = .ok (token :: tokens,after) := by
  rw [read_cut going length,name,ok_bind,reading]
  rfl

theorem glyph_code (consistent : tables.Consistent) {c : Char} {code : Bytes}
    (member : (c,code) ∈ tables.characters.glyphs) :
    ∃ head more, code = head :: more ∧ tables.characters.CodeForm (head :: more) ∧
      tables.commands.byOpcode? head.toNat = none := by
  have form := consistent.characters.form _ member
  match code,form with
  | head :: more,form =>
    refine ⟨head,more,rfl,form,code_unclaimed consistent form ?_⟩
    rintro rfl row present opcode
    obtain ⟨byte,same,free,_⟩ := consistent.rows row present
    have equal : byte = head := UInt8.toNat_inj.mp (by omega)
    exact absurd (CharacterTable.hasCode_mem member) (by simp [← equal,free])

theorem complex_code (consistent : tables.Consistent) {key : String} {code : Bytes}
    (member : (key,code) ∈ tables.commands.complex) (short : code.length = 1 ∨ code.length = 2) :
    ∃ head more, code = head :: more ∧ tables.characters.CodeForm (head :: more) ∧
      tables.commands.byOpcode? head.toNat = none := by
  have form := consistent.complexForm _ member short
  match code,form with
  | head :: more,form =>
    refine ⟨head,more,rfl,form,code_unclaimed consistent form ?_⟩
    rintro rfl row present
    exact consistent.commands.apart _ member row present head rfl

theorem code_unended (delimited : Delimited tables) {head : UInt8} {more : Bytes}
    (form : tables.characters.CodeForm (head :: more))
    (single : more = [] → tables.terminator ≠ head.toNat) : tables.terminator ≠ head.toNat := by
  match more,form with
  | [],_ => exact single rfl
  | [_],lead =>
    intro same
    have escaped := delimited.unescaped
    rw [same] at escaped
    exact absurd (lead.symm.trans escaped) (by simp)

theorem glyph_unended (consistent : tables.Consistent) (delimited : Delimited tables) {c : Char} {head : UInt8}
    {more : Bytes} (member : (c,head :: more) ∈ tables.characters.glyphs)
    (form : tables.characters.CodeForm (head :: more)) : tables.terminator ≠ head.toNat := by
  refine code_unended delimited form ?_
  rintro rfl same
  obtain ⟨byte,ended,free⟩ := consistent.ended
  have equal : byte = head := UInt8.toNat_inj.mp (by omega)
  exact absurd (CharacterTable.hasCode_mem member) (by simp [← equal,free])

theorem complex_unended (delimited : Delimited tables) {key : String} {head : UInt8} {more : Bytes}
    (member : (key,head :: more) ∈ tables.commands.complex)
    (form : tables.characters.CodeForm (head :: more)) : tables.terminator ≠ head.toNat := by
  refine code_unended delimited form ?_
  rintro rfl same
  exact delimited.unshared _ member (by rw [same]; rfl)

theorem spelled_named (consistent : tables.Consistent) {token : Token} {piece : Bytes}
    (spelled : Spelled tables token piece) (position : Nat) :
    ∃ head more, piece = head :: more ∧ tokenLength tables head = more.length + 1 ∧
      named tables position head more = .ok token := by
  have code : ∀ {head : UInt8} {more : Bytes}, tables.characters.CodeForm (head :: more) →
      tables.commands.byOpcode? head.toNat = none → codeToken tables position (head :: more) = .ok token →
      tokenLength tables head = more.length + 1 ∧ named tables position head more = .ok token := by
    intro head more form unclaimed name
    rw [tokenLength,named,unclaimed]
    exact ⟨codeLength_form form,name⟩
  have row : ∀ {row : CommandRow} {head : UInt8} {argument : Bytes} {entry : Entry},
      row ∈ tables.commands.rows → row.opcode = head.toNat → row.argumentSize = argument.length →
      rowEntry row argument = .ok entry →
      tokenLength tables head = argument.length + 1 ∧ named tables position head argument = .ok (.entry entry) := by
    intro row head argument entry member opcode width built
    rw [tokenLength,named,byOpcode_head consistent member opcode,← width,Nat.add_comm]
    exact ⟨rfl,map_ok.mpr ⟨_,built,rfl⟩⟩
  cases spelled with
  | @glyph c _ member =>
    obtain ⟨head,more,rfl,form,unclaimed⟩ := glyph_code consistent member
    refine ⟨head,more,rfl,code form unclaimed ?_⟩
    rw [codeToken,consistent.characters.decodeCode member]
  | @complex key _ member short =>
    obtain ⟨head,more,rfl,form,unclaimed⟩ := complex_code consistent member short
    refine ⟨head,more,rfl,code form unclaimed ?_⟩
    rw [codeToken,CharacterTable.decodeCode_none (consistent.complexFree _ member),
      consistent.commands.complexKey member]
    rfl
  | @lineBreak other head member opcode command =>
    obtain ⟨bare,none⟩ := bare_row consistent member (command ▸ rfl)
    refine ⟨head,[],rfl,row member opcode none ?_⟩
    rw [rowEntry,bare,command]
    exact Entry.build_newLine
  | @bare other head member opcode fits =>
    obtain ⟨bare,none⟩ := bare_row consistent member (Entry.payload_of_bare fits)
    refine ⟨head,[],rfl,row member opcode none ?_⟩
    rw [rowEntry,bare]
    exact Entry.build_bare fits
  | @argument other head data member opcode fits width =>
    refine ⟨head,data,rfl,row member opcode ?_ ?_⟩
    · rw [CommandRow.argumentSize]
      omega
    · rw [rowEntry,if_pos ((consistent.commands.payloads other member).2.mp fits)]
      exact Entry.build_argument fits

theorem spelled_unended (consistent : tables.Consistent) (delimited : Delimited tables) {token : Token}
    {head : UInt8} {more : Bytes} (spelled : Spelled tables token (head :: more)) :
    tables.terminator ≠ head.toNat := by
  have row : ∀ {row : CommandRow}, row ∈ tables.commands.rows → row.opcode = head.toNat →
      tables.terminator ≠ head.toNat :=
    fun member opcode same => consistent.commands.unterminated _ member (opcode.trans same.symm)
  cases spelled with
  | glyph member => exact glyph_unended consistent delimited member (consistent.characters.form _ member)
  | complex member short => exact complex_unended delimited member (consistent.complexForm _ member short)
  | lineBreak member opcode command => exact row member opcode
  | bare member opcode fits => exact row member opcode
  | argument member opcode fits width => exact row member opcode

theorem read_spelled (consistent : tables.Consistent) (delimited : Delimited tables) {token : Token}
    {piece rest : Bytes} (spelled : Spelled tables token piece) {position after : Nat} {tokens : List Token}
    (reading : tokensFrom tables (position + piece.length) rest = .ok (tokens,after)) :
    tokensFrom tables position (piece ++ rest) = .ok (token :: tokens,after) := by
  obtain ⟨head,more,rfl,length,name⟩ := spelled_named consistent spelled position
  exact read_named (spelled_unended consistent delimited spelled) length name reading

theorem read_stream (consistent : tables.Consistent) (delimited : Delimited tables) {tokens : List Token}
    {bytes : Bytes} (stream : Stream tables tokens bytes) (position : Nat) (rest : Bytes) :
    tokensFrom tables position (bytes ++ rest) = .ok (tokens,position + bytes.length) := by
  induction stream generalizing position with
  | ended terminator =>
    rw [List.singleton_append,tokensFrom,if_pos terminator.symm]
    rfl
  | @token token tokens piece tail spelled _ ih =>
    rw [List.append_assoc,List.length_append,← Nat.add_assoc]
    exact read_spelled consistent delimited spelled (ih (position + piece.length))

theorem codeToken_spelled {position : Int} {code : Bytes} {token : Token}
    (short : code.length = 1 ∨ code.length = 2) (named : codeToken tables position code = .ok token) :
    Spelled tables token code := by
  unfold codeToken at named
  split at named
  · rename_i c found
    cases named
    exact .glyph (CharacterTable.decodeCode_mem found)
  · split at named
    · cases named
    · rename_i key found
      cases named
      exact .complex (CommandTable.complexKey_mem found) short

theorem named_spelled (consistent : tables.Consistent) {position : Nat} {head : UInt8} {more : Bytes} {token : Token}
    (length : tokenLength tables head = more.length + 1) (name : named tables position head more = .ok token) :
    Spelled tables token (head :: more) := by
  rw [named] at name
  cases claimed : tables.commands.byOpcode? head.toNat with
  | some row =>
    rw [claimed] at name
    obtain ⟨member,opcode⟩ := CommandTable.byOpcode_mem claimed
    obtain ⟨entry,built,spelled⟩ := rowEntry_spelled consistent member opcode (row_length claimed length).symm
    obtain ⟨_,same,rfl⟩ := map_ok.mp name
    cases same.symm.trans built
    exact spelled
  | none =>
    rw [claimed] at name
    refine codeToken_spelled ?_ name
    rw [List.length_cons,← code_length claimed length]
    exact tables.characters.codeLength_cases head.toNat

theorem read_turn {position : Nat} {head : UInt8} {rest : Bytes} (going : tables.terminator ≠ head.toNat) :
    (rest.length < tokenLength tables head - 1 ∧ ∃ cause, Stuck tables (head :: rest) cause ∧
      tokensFrom tables position (head :: rest) = fail cause position) ∨
    ∃ more tail, rest = more ++ tail ∧ tokenLength tables head = more.length + 1 := by
  by_cases enough : tokenLength tables head - 1 ≤ rest.length
  · exact .inr (token_cut enough)
  have short := Nat.lt_of_not_le enough
  refine .inl ⟨short,?_⟩
  rw [tokenLength] at short
  rw [tokensFrom,if_neg (Ne.symm going)]
  cases claimed : tables.commands.byOpcode? head.toNat with
  | some row =>
    rw [claimed,Nat.add_sub_cancel_left] at short
    exact ⟨_,.argument going claimed short,if_pos short⟩
  | none =>
    rw [claimed] at short
    dsimp only at short ⊢
    rw [if_pos short,List.take_of_length_le (Nat.le_of_lt short)]
    exact ⟨_,.glyph going claimed (by rw [List.length_cons]; omega),rfl⟩

theorem read_cases (consistent : tables.Consistent) {position after : Nat} {head : UInt8} {rest : Bytes}
    {tokens : List Token} (reading : tokensFrom tables position (head :: rest) = .ok (tokens,after)) :
    (tables.terminator = head.toNat ∧ tokens = [] ∧ after = position + 1) ∨
    ∃ token more tail others, Spelled tables token (head :: more) ∧ rest = more ++ tail ∧
      tokensFrom tables (position + (more.length + 1)) tail = .ok (others,after) ∧ tokens = token :: others := by
  by_cases ended : tables.terminator = head.toNat
  · rw [tokensFrom,if_pos ended.symm] at reading
    cases reading
    exact .inl ⟨ended,rfl,rfl⟩
  rcases @read_turn tables position head rest ended with ⟨_,_,_,stopped⟩ | ⟨more,tail,rfl,length⟩
  · cases stopped.symm.trans reading
  · rw [read_cut ended length] at reading
    obtain ⟨token,name,reading⟩ := bind_ok.mp reading
    obtain ⟨⟨others,_⟩,further,made⟩ := bind_ok.mp reading
    cases made
    exact .inr ⟨token,more,tail,others,named_spelled consistent length name,rfl,further,rfl⟩

theorem stream_of_read (consistent : tables.Consistent) {position after : Nat} {data : Bytes}
    {tokens : List Token} (reading : tokensFrom tables position data = .ok (tokens,after)) :
    ∃ bytes rest, data = bytes ++ rest ∧ Stream tables tokens bytes ∧ after = position + bytes.length := by
  induction size : data.length using Nat.strongRecOn generalizing position data tokens with
  | ind count ih =>
    cases data with
    | nil => rw [tokensFrom] at reading; cases reading
    | cons head rest =>
      rcases read_cases consistent reading with ⟨ended,rfl,rfl⟩ | ⟨token,more,tail,others,spelled,rfl,further,rfl⟩
      · exact ⟨[head],rest,rfl,.ended ended,rfl⟩
      · have shorter : tail.length < count := by
          rw [← size,List.length_cons,List.length_append]; omega
        obtain ⟨bytes,remaining,rfl,stream,rfl⟩ := ih _ shorter further rfl
        refine ⟨_,remaining,?_,.token spelled stream,?_⟩
        · rw [List.append_assoc,List.cons_append]
        · rw [List.length_append,List.length_cons]; omega

end
end GameText.Wire
