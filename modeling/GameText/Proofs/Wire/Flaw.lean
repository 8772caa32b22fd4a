import GameText.Proofs.Wire.Encoding

namespace GameText.Wire
open Outcome

section
variable (tables : TableSet)

-- A character that has no code and is not written as a line break.
def isUnseen (c : Char) : Bool := c != '\n' && (tables.characters.encodeChar? c).isNone

-- What keeps an entry off the wire: of a text its first character without a code, of a
-- command a row that it lacks or does not fill. A line break always has its row.
inductive Flawed : Entry → EncodingCause → Prop where
  | glyph {content : String} {c : Char} (first : content.toList.find? (isUnseen tables) = some c) :
      Flawed (.text content) (.noGlyph c)
  | complex {key : String} (unknown : tables.commands.complexCode? key = none) :
      Flawed (.complex key) (.unknownComplex key)
  | bare {command : Command} {fits : command.isBare = true} (absent : tables.commands.rowFor? command = none) :
      Flawed (.bare command fits) (.noOpcode command)
  | argument {command : Command} {data : Bytes} {fits : command.payload = .data}
      (absent : tables.commands.rowFor? command = none) : Flawed (.argument command data fits) (.noOpcode command)
  | width {command : Command} {data : Bytes} {fits : command.payload = .data} {row : CommandRow}
      (found : tables.commands.rowFor? command = some row) (unfilled : (data.length : Int) ≠ row.width) :
      Flawed (.argument command data fits) (.wrongArgument command row.width data row.form)

def Flawless (entry : Entry) : Prop := ∀ cause, ¬ Flawed tables entry cause

end

-- A failure names the place of its entry.
def flaw (cause : EncodingCause) (index : Nat) : Fault := .encoding ⟨cause,some index⟩

section
variable {tables : TableSet} (consistent : tables.Consistent)
include consistent

theorem charBytes_error {index : Nat} {c : Char} {fault : Fault} :
    charBytes tables index c = .error fault ↔ isUnseen tables c = true ∧ fault = flaw (.noGlyph c) index := by
  unfold charBytes isUnseen
  by_cases line : c = '\n'
  · obtain ⟨row,found,same⟩ := CommandTable.newLine_row tables.commands
    obtain ⟨head,opcode,_⟩ := consistent.rows row (CommandTable.rowFor_mem found).1
    rw [if_pos line,byte_exact.mpr (same.symm.trans opcode)]
    simp [line]
  · rw [if_neg line]
    cases tables.characters.encodeChar? c <;> simp [line,fail,flaw,@eq_comm _ fault]

theorem textBytes_error {index : Nat} {text : List Char} {fault : Fault} :
    textBytes tables index text = .error fault ↔
      ∃ c, text.find? (isUnseen tables) = some c ∧ fault = flaw (.noGlyph c) index := by
  induction text with
  | nil => simp [textBytes]
  | cons c rest ih =>
    cases unseen : isUnseen tables c with
    | true =>
      rw [List.find?_cons_of_pos unseen,textBytes,(charBytes_error consistent).mpr ⟨unseen,rfl⟩]
      simp [@eq_comm _ fault]
    | false =>
      rw [List.find?_cons_of_neg (by simp [unseen]),← ih,textBytes]
      cases written : charBytes tables index c with
      | error other =>
        obtain ⟨seen,_⟩ := (charBytes_error consistent).mp written
        cases unseen.symm.trans seen
      | ok head => cases textBytes tables index rest <;> simp

theorem opcodeOf_error {index : Nat} {command : Command} {fault : Fault} :
    opcodeOf tables index command = .error fault ↔
      tables.commands.rowFor? command = none ∧ fault = flaw (.noOpcode command) index := by
  unfold opcodeOf
  cases found : tables.commands.rowFor? command with
  | none => simp [fail,flaw,@eq_comm _ fault]
  | some row =>
    obtain ⟨head,opcode,_⟩ := consistent.rows row (CommandTable.rowFor_mem found).1
    simp [byte_exact.mpr opcode]

theorem entryBytes_error {index : Nat} {entry : Entry} {fault : Fault} :
    entryBytes tables index entry = .error fault ↔ ∃ cause, Flawed tables entry cause ∧ fault = flaw cause index := by
  constructor
  · intro failed
    cases entry with
    | text content =>
      obtain ⟨c,first,same⟩ := (textBytes_error consistent).mp failed
      exact ⟨_,.glyph first,same⟩
    | complex key =>
      rw [entryBytes] at failed
      split at failed
      · rename_i unknown
        cases failed
        exact ⟨_,.complex unknown,rfl⟩
      · cases failed
    | lineBreak text data =>
      obtain ⟨row,found,_⟩ := CommandTable.newLine_row tables.commands
      rcases bind_error.mp failed with early | ⟨_,_,late⟩
      · cases found.symm.trans ((opcodeOf_error consistent).mp early).1
      · cases late
    | bare command fits =>
      rcases bind_error.mp failed with early | ⟨_,_,late⟩
      · obtain ⟨absent,same⟩ := (opcodeOf_error consistent).mp early
        exact ⟨_,.bare absent,same⟩
      · cases late
    | argument command data fits =>
      rcases bind_error.mp failed with early | ⟨⟨row,head⟩,given,late⟩
      · obtain ⟨absent,same⟩ := (opcodeOf_error consistent).mp early
        exact ⟨_,.argument absent,same⟩
      · dsimp only at late
        split at late
        · cases late
        · rename_i unfilled
          cases late
          exact ⟨_,.width (opcodeOf_exact.mp given).1 unfilled,rfl⟩
  · rintro ⟨cause,flawed,rfl⟩
    cases flawed with
    | glyph first => exact (textBytes_error consistent).mpr ⟨_,first,rfl⟩
    | complex unknown =>
      rw [entryBytes,unknown]
      rfl
    | bare absent => exact bind_error.mpr (.inl ((opcodeOf_error consistent).mpr ⟨absent,rfl⟩))
    | argument absent => exact bind_error.mpr (.inl ((opcodeOf_error consistent).mpr ⟨absent,rfl⟩))
    | @width command data fits row found unfilled =>
      obtain ⟨head,opcode,_⟩ := consistent.rows row (CommandTable.rowFor_mem found).1
      exact bind_error.mpr (.inr ⟨(row,head),opcodeOf_exact.mpr ⟨found,opcode⟩,if_neg unfilled⟩)

theorem entryBytes_ok {index : Nat} {entry : Entry} :
    (∃ bytes, entryBytes tables index entry = .ok bytes) ↔ Flawless tables entry := by
  constructor
  · rintro ⟨bytes,encoded⟩ cause flawed
    cases encoded.symm.trans ((entryBytes_error consistent).mpr ⟨cause,flawed,rfl⟩)
  · intro flawless
    cases encoded : entryBytes tables index entry with
    | ok bytes => exact ⟨bytes,rfl⟩
    | error fault =>
      obtain ⟨cause,flawed,_⟩ := (entryBytes_error consistent).mp encoded
      exact absurd flawed (flawless cause)

theorem encodeFrom_error {index : Nat} {entries : List Entry} {fault : Fault} :
    encodeFrom tables index entries = .error fault ↔ ∃ front entry back cause, entries = front ++ entry :: back ∧
      (∀ other ∈ front, Flawless tables other) ∧ Flawed tables entry cause ∧
      fault = flaw cause (index + front.length) := by
  induction entries generalizing index with
  | nil =>
    obtain ⟨last,terminator,_⟩ := consistent.ended
    rw [encodeFrom,byte_exact.mpr terminator]
    simp
  | cons entry rest ih =>
    rw [encodeFrom,bind_error,entryBytes_error consistent]
    constructor
    · rintro (⟨cause,flawed,same⟩ | ⟨head,encoded,failed⟩)
      · exact ⟨[],entry,rest,cause,rfl,List.forall_mem_nil _,flawed,same⟩
      · rcases bind_error.mp failed with later | ⟨_,_,late⟩
        · obtain ⟨front,other,back,cause,rfl,flawless,flawed,same⟩ := ih.mp later
          refine ⟨entry :: front,other,back,cause,rfl,List.forall_mem_cons.mpr ⟨?_,flawless⟩,flawed,?_⟩
          · exact (entryBytes_ok consistent).mp ⟨head,encoded⟩
          · rw [same,List.length_cons,Nat.add_right_comm,Nat.add_assoc]
        · cases late
    · rintro ⟨front,other,back,cause,split,flawless,flawed,rfl⟩
      cases front with
      | nil =>
        cases split
        exact .inl ⟨cause,flawed,rfl⟩
      | cons first front =>
        cases split
        rw [List.forall_mem_cons] at flawless
        obtain ⟨head,encoded⟩ := (entryBytes_ok consistent).mpr flawless.1
        refine .inr ⟨head,encoded,bind_error.mpr (.inl (ih.mpr ⟨front,other,back,cause,rfl,flawless.2,flawed,?_⟩))⟩
        rw [List.length_cons,Nat.add_right_comm,Nat.add_assoc]

end
end GameText.Wire
