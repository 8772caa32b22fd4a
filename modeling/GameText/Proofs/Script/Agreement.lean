import GameText.Proofs.Script.RoundTrip

namespace GameText.Script
open Outcome Text
variable {tables : TableSet}

theorem serialize_cut (content : List Char) (rest : Message) :
    serialize tables (Message.merge (Message.cut (String.ofList content) ++ rest)) =
      (serialize tables (Message.merge rest)).map (String.ofList content ++ ·) := by
  have joined : ∀ (front back : String) (shown : Except Fault String),
      (shown.map (back ++ ·)).map (front ++ ·) = shown.map (front ++ back ++ ·) := by
    intro front back shown
    cases shown <;> simp [String.append_assoc]
  induction content with
  | nil => exact serialize_prepend "" (Message.merge rest)
  | cons c more ih =>
    rw [String.ofList_cons,← joined,← ih,← String.ofList_cons]
    by_cases line : c = '\n'
    · subst line
      rw [Message.merge_line,serialize_step]
      rfl
    · rw [Message.merge_char line,serialize_prepend]

theorem serialize_normal (entries : Message) :
    serialize tables (Message.normal entries) = serialize tables entries := by
  induction entries with
  | nil => rfl
  | cons entry rest ih =>
    have kept : ∀ single, entryText tables single = entryText tables entry →
        serialize tables (single :: Message.normal rest) = serialize tables (entry :: rest) := by
      intro single same
      rw [serialize_step,serialize_step,ih,same]
    cases entry with
    | text content =>
      rw [serialize_step,← ih]
      have whole := @serialize_cut tables content.toList (rest.flatMap Message.broken)
      rw [String.ofList_toList] at whole
      exact whole
    | lineBreak strayText strayData => exact kept Entry.newLine rfl
    | complex key => exact kept _ rfl
    | bare command fits => exact kept _ rfl
    | argument command data fits => exact kept _ rfl

theorem decode_encoded (consistent : tables.Consistent) (forward : tables.commands.isForward = true)
    (delimited : Wire.Delimited tables) {entries : Message} {bytes : Bytes}
    (encoded : Wire.encode tables entries = .ok bytes) :
    Wire.decode tables bytes = .ok (Message.normal entries) := by
  have stream := Wire.stream_of_encode delimited.short encoded
  have reading := Wire.read_stream consistent delimited stream 0 []
  rw [List.append_nil] at reading
  exact map_ok.mpr ⟨_,(Wire.read_forward forward).mpr ⟨_,_,reading,rfl,rfl⟩,Wire.entriesOf_tokens entries⟩

-- What a rendering can end with: a text, a command without a name, or an argument
-- that no row of the sheets has room for and whose numeral is beyond the digit limit.
inductive Shown (tables : TableSet) : Except Fault String → Prop where
  | text (text : String) : Shown tables (.ok text)
  | unnamed (command : Command) : Shown tables (noName command)
  | unwritten {row : CommandRow} (member : row ∈ tables.commands.rows) (wide : 8 < row.width) :
      Shown tables (.error (.value .numeralTooLong))

theorem argumentText_ends {row : CommandRow} (member : row ∈ tables.commands.rows) {data : Bytes}
    (width : (data.length : Int) = row.width) (command : Command) :
    Shown tables (argumentText tables command data) := by
  unfold argumentText
  split
  · exact .unnamed command
  · unfold CommandRow.argumentText
    split
    · rename_i long
      refine .unwritten member ?_
      by_contra narrow
      rw [(argument_numeral (by omega)).1] at long
      cases long
    · exact .text _

theorem entryText_ends {entry : Entry} {index : Nat} {piece : Bytes}
    (encoded : Wire.entryBytes tables index entry = .ok piece) : Shown tables (entryText tables entry) := by
  cases entry with
  | text content => exact .text content
  | complex key => exact .text _
  | lineBreak strayText strayData => exact .text _
  | bare command fits =>
    rw [entryText]
    split
    · exact .unnamed command
    · exact .text _
  | argument command data fits =>
    obtain ⟨row,head,found,_,width,_⟩ := Wire.argumentBytes_exact.mp encoded
    have ends := argumentText_ends (CommandTable.rowFor_mem found).1 width command
    rw [entryText]
    split
    · split
      · exact .text _
      · exact ends
    · exact ends

theorem serialize_ends {entries : Message} {index : Nat} {bytes : Bytes}
    (encoded : Wire.encodeFrom tables index entries = .ok bytes) : Shown tables (serialize tables entries) := by
  induction entries generalizing index bytes with
  | nil => exact .text ""
  | cons entry rest ih =>
    obtain ⟨piece,others,first,further,rfl⟩ := Wire.encodeFrom_cons.mp encoded
    have head := entryText_ends first
    have tail := ih further
    rw [serialize_step]
    generalize entryText tables entry = shown at head ⊢
    generalize serialize tables rest = more at tail ⊢
    cases head with
    | unnamed command => exact .unnamed command
    | unwritten member wide => exact .unwritten member wide
    | text front =>
      cases tail with
      | text back => exact .text _
      | unnamed command => exact .unnamed command
      | unwritten member wide => exact .unwritten member wide

-- A message is shown on its way through the wire as it is shown at once, with the same
-- failures.
theorem decodeText_encode (accepted : tables.Accepted) (forward : tables.commands.isForward = true)
    (delimited : Wire.Delimited tables) {entries : Message} {bytes : Bytes}
    (encoded : Wire.encode tables entries = .ok bytes) :
    Wire.decodeText tables bytes = serialize tables entries ∧ Shown tables (serialize tables entries) := by
  have decoded := decode_encoded accepted.consistent forward delimited encoded
  refine ⟨?_,serialize_ends encoded⟩
  rw [Wire.decodeText,decoded]
  exact serialize_normal entries

theorem decodeText_encode_sample :
    Wire.encode TableSet.sample [.text "a\né",.text "a",.lineBreak (some "x") none,.argument .delay [0x00,0x02] rfl,
      .argument .printIcon [0x00] rfl,.complex "square"] =
        .ok [0x61,0x02,0x1A,0x00,0x61,0x02,0x14,0x00,0x02,0x09,0x00,0x1A,0x02,0x00] ∧
    Wire.decodeText TableSet.sample [0x61,0x02,0x1A,0x00,0x61,0x02,0x14,0x00,0x02,0x09,0x00,0x1A,0x02,0x00] =
      .ok "a\néa\n\x7b:delay 512\x7d\x7bitem-key\x7d\x7bsquare\x7d" := by
  have encoded : Wire.encode TableSet.sample [.text "a\né",.text "a",.lineBreak (some "x") none,
      .argument .delay [0x00,0x02] rfl,.argument .printIcon [0x00] rfl,.complex "square"] =
        .ok [0x61,0x02,0x1A,0x00,0x61,0x02,0x14,0x00,0x02,0x09,0x00,0x1A,0x02,0x00] := rfl
  have agreed := decodeText_encode TableSet.sample_loaded.accepted rfl Wire.sample_delimited encoded
  exact ⟨encoded,agreed.1.trans (by decide +kernel)⟩

-- Tables with a row that is wider than any numeral that is written.
def wide : TableSet where
  characters := ⟨"wide",[('a',[0x61])],[]⟩
  commands := ⟨"wide",0x00,
    [⟨.newLine,0x02,0,none,.whole⟩,⟨.theme,0x04,1800,some "theme",.whole⟩,⟨.printIcon,0x09,1,some "icon",.whole⟩],[],[],by decide⟩

def wideArgument : Bytes := List.replicate 1799 0x00 ++ [0x01]

theorem wideArgument_length : wideArgument.length = 1800 := by
  rw [wideArgument,List.length_append,List.length_replicate]
  rfl

theorem value_high (count : Nat) : 256 ^ count ≤ Bytes.ofLittleEndian (List.replicate count 0x00 ++ [0x01]) := by
  rw [Bytes.ofLittleEndian_append,List.length_replicate]
  exact (Nat.le_of_eq (Nat.mul_one _).symm).trans (Nat.le_add_left _ _)

theorem wideArgument_long : numeral? (CommandRow.argumentValue wideArgument) = none := by
  have limit : Nat.pow 10 digitLimit ≤ 256 ^ 1799 := by decide +kernel
  exact if_neg (Nat.not_lt.mpr (limit.trans (value_high 1799)))

theorem serialize_long {command : Command} {data : Bytes} {fits : command.payload = .data} {name : String}
    (named : (tables.commands.rowFor? command).bind CommandRow.name = some name) (other : command ≠ .printIcon)
    (long : numeral? (CommandRow.argumentValue data) = none) :
    serialize tables [.argument command data fits] = .error (.value .numeralTooLong) := by
  have unwritten : CommandRow.argumentText data = .error (.value .numeralTooLong) := by
    unfold CommandRow.argumentText
    rw [long]
  rw [serialize_step,entryText,if_neg other,argumentText,named]
  simp only [unwritten]
  rfl

-- Rows of negative width send the reader back into what it has read, so that more is
-- shown than was written, and an argument of the width 1.0 is shown at once and cannot be read.
-- And without any such row both ways may fail for an argument that is too long to be written.
theorem decodeText_encode_stepping :
    (¬ ∀ tables : TableSet, tables.Accepted → (∀ row ∈ tables.commands.rows, row.isWhole = true) →
      Wire.Delimited tables → ∀ entries bytes, Wire.encode tables entries = .ok bytes →
        Wire.decodeText tables bytes = serialize tables entries) ∧
    (¬ ∀ tables : TableSet, tables.Accepted → Wire.Advancing tables → Wire.Delimited tables →
      ∀ entries bytes, Wire.encode tables entries = .ok bytes →
        Wire.decodeText tables bytes = serialize tables entries) ∧
    ¬ ∀ tables : TableSet, tables.Accepted → tables.commands.isForward = true → Wire.Delimited tables →
      ∀ entries bytes, Wire.encode tables entries = .ok bytes →
        (∃ text, serialize tables entries = .ok text) ∨ ∃ command, serialize tables entries = noName command := by
  refine ⟨fun law => ?_,fun law => ?_,fun law => ?_⟩
  · have claimed := law Wire.stepping Wire.stepping_accepted (by decide) Wire.stepping_delimited
      [.argument .theme [0x04] rfl,.bare .reset rfl] [0x04,0x04,0x03,0x00] rfl
    exact absurd claimed (by decide +kernel)
  · have claimed := law TableSet.scaled TableSet.scaled_loaded.accepted (by decide) Wire.scaled_delimited
      [.argument .textScale [0x22] rfl] [0x0A,0x22,0x00] rfl
    exact absurd claimed (by decide +kernel)
  · have accepted : wide.Accepted := ⟨⟨.ofList [("a",[0x61])],[],rfl⟩,⟨wide.commands.rows,[],[],rfl⟩,rfl⟩
    have encoded : Wire.encode wide [.argument .theme wideArgument rfl] =
        .ok (0x04 :: wideArgument ++ [0x00]) :=
      Wire.encodeFrom_cons.mpr ⟨_,_,Wire.argumentBytes_exact.mpr
        ⟨⟨.theme,0x04,1800,some "theme",.whole⟩,0x04,rfl,rfl,congrArg Nat.cast wideArgument_length,rfl⟩,rfl,rfl⟩
    have claimed := law wide accepted rfl ⟨by decide,by decide,by decide⟩ _ _ encoded
    have failed : serialize wide [.argument .theme wideArgument rfl] = .error (.value .numeralTooLong) :=
      serialize_long (show _ = some "theme" from rfl) (by decide) wideArgument_long
    rw [failed] at claimed
    rcases claimed with ⟨text,shown⟩ | ⟨command,shown⟩ <;> cases shown

end GameText.Script
