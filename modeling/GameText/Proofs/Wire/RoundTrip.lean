import GameText.Proofs.Tables.Loaded
import GameText.Proofs.Wire.Encoding
import GameText.Proofs.Wire.Walk

namespace GameText.Wire
open Outcome

-- No token of a text stands alone, so that gathered glyphs never meet one.
def Standing (tokens : List Token) : Prop := ∀ content, Token.entry (.text content) ∉ tokens

theorem entriesOf_entry (entry : Entry) (tokens : List Token) :
    entriesOf (.entry entry :: tokens) = entry :: entriesOf tokens := rfl

theorem entriesOf_glyph {tokens : List Token} (standing : Standing tokens) (c : Char) :
    entriesOf (.glyph c :: tokens) = Message.prepend (String.singleton c) (entriesOf tokens) := by
  have nonempty : String.singleton c ≠ "" := by simp
  have joined : ∀ run, String.ofList (c :: run) = String.singleton c ++ String.ofList run := by
    intro run
    rw [← String.toList_inj]; simp
  unfold Message.prepend
  rw [if_neg nonempty]
  match tokens with
  | [] => rfl
  | .glyph d :: rest =>
    simp only [entriesOf,splitRun,flush,List.isEmpty_cons,Bool.false_eq_true,if_false,List.singleton_append,joined]
  | .entry entry :: rest =>
    cases entry with
    | text content => exact absurd List.mem_cons_self (standing content)
    | _ => rfl

theorem Standing.tail {token : Token} {tokens : List Token} (standing : Standing (token :: tokens)) :
    Standing tokens := fun content member => standing content (List.mem_cons_of_mem _ member)

theorem charToken_standing {c : Char} (content : String) : charToken c ≠ .entry (.text content) := by
  unfold charToken
  split <;> simp [Entry.newLine]

theorem tokensOf_standing (entries : List Entry) : Standing (entries.flatMap tokensOf) := by
  intro content member
  obtain ⟨entry,_,member⟩ := List.mem_flatMap.mp member
  cases entry with
  | text text =>
    obtain ⟨c,_,same⟩ := List.mem_map.mp member
    exact charToken_standing content same
  | _ => simp [tokensOf,Entry.newLine] at member

theorem entriesOf_text {tokens : List Token} {rest : Message} (standing : Standing tokens)
    (same : entriesOf tokens = Message.merge rest) (text : List Char) :
    entriesOf (text.map charToken ++ tokens) =
      Message.merge (Message.cut (String.ofList text) ++ rest) := by
  induction text with
  | nil =>
    rw [show String.ofList [] = "" from rfl,Message.cut_empty,List.singleton_append,Message.merge,
      Message.prepend_empty]
    exact same
  | cons c more ih =>
    by_cases line : c = '\n'
    · subst line
      rw [Message.merge_line,← ih]
      rfl
    · have standingMore : Standing (more.map charToken ++ tokens) := by
        intro content member
        rcases List.mem_append.mp member with run | old
        · obtain ⟨d,_,equal⟩ := List.mem_map.mp run
          exact charToken_standing content equal
        · exact standing content old
      have glyph : charToken c = .glyph c := if_neg line
      rw [Message.merge_char line,← ih,List.map_cons,glyph,List.cons_append]
      exact entriesOf_glyph standingMore c

theorem entriesOf_tokens (entries : List Entry) :
    entriesOf (entries.flatMap tokensOf) = Message.normal entries := by
  induction entries with
  | nil => rfl
  | cons entry rest ih =>
    unfold Message.normal at ih ⊢
    cases entry with
    | text content =>
      have text := entriesOf_text (tokensOf_standing rest) ih content.toList
      rwa [String.ofList_toList] at text
    | lineBreak strayText strayData => exact congrArg _ ih
    | complex key => exact congrArg _ ih
    | bare command fits => exact congrArg _ ih
    | argument command data fits => exact congrArg _ ih

theorem entriesOf_mem {tokens : List Token} {entry : Entry} (member : entry ∈ entriesOf tokens) :
    (∃ run, run ≠ [] ∧ (∀ c ∈ run, .glyph c ∈ tokens) ∧ entry = .text (String.ofList run)) ∨ .entry entry ∈ tokens := by
  have flushed : ∀ {run : List Char}, entry ∈ flush run → run ≠ [] ∧ entry = .text (String.ofList run) := by
    intro run text
    unfold flush at text
    split at text
    · cases text
    · rename_i filled
      exact ⟨by simpa using filled,List.mem_singleton.mp text⟩
  have split : (∀ c ∈ (splitRun tokens).1, .glyph c ∈ tokens) ∧ (entry ∈ (splitRun tokens).2 →
      (∃ run, run ≠ [] ∧ (∀ c ∈ run, .glyph c ∈ tokens) ∧ entry = .text (String.ofList run)) ∨
        .entry entry ∈ tokens) := by
    clear member
    induction tokens with
    | nil => exact ⟨List.forall_mem_nil _,fun member => absurd member List.not_mem_nil⟩
    | cons token rest ih =>
      obtain ⟨chars,entries⟩ := ih
      have later : (∃ run, run ≠ [] ∧ (∀ c ∈ run, .glyph c ∈ rest) ∧ entry = .text (String.ofList run)) ∨
          .entry entry ∈ rest → (∃ run, run ≠ [] ∧ (∀ c ∈ run, .glyph c ∈ token :: rest) ∧
            entry = .text (String.ofList run)) ∨ .entry entry ∈ token :: rest := by
        rintro (⟨run,filled,glyphs,text⟩ | inside)
        · exact .inl ⟨run,filled,fun c member => List.mem_cons_of_mem _ (glyphs c member),text⟩
        · exact .inr (List.mem_cons_of_mem _ inside)
      cases token with
      | glyph c =>
        refine ⟨fun d member => ?_,fun member => later (entries member)⟩
        rcases List.mem_cons.mp member with rfl | inside
        · exact List.mem_cons_self
        · exact List.mem_cons_of_mem _ (chars d inside)
      | entry head =>
        refine ⟨List.forall_mem_nil _,fun member => ?_⟩
        rcases List.mem_cons.mp member with rfl | inside
        · exact .inr List.mem_cons_self
        · refine later ((List.mem_append.mp inside).elim (fun text => .inl ?_) entries)
          exact ⟨_,(flushed text).1,chars,(flushed text).2⟩
  exact (List.mem_append.mp member).elim (fun text => .inl ⟨_,(flushed text).1,split.1,(flushed text).2⟩) split.2

section
variable {tables : TableSet}

theorem read_forward (forward : tables.commands.isForward = true) {data : Bytes} {offset : Nat}
    {entries : List Entry} {after : Int} :
    read tables data offset = .ok (entries,after) ↔
      ∃ tokens stop, tokensFrom tables offset (data.drop offset) = .ok (tokens,stop) ∧
        entries = entriesOf tokens ∧ after = Int.ofNat stop := by
  unfold read tokensAt
  rw [if_pos forward]
  constructor
  · intro decoded
    obtain ⟨_,walked,made⟩ := bind_ok.mp decoded
    obtain ⟨⟨tokens,stop⟩,reading,passed⟩ := bind_ok.mp walked
    cases passed
    cases made
    exact ⟨tokens,stop,reading,rfl,rfl⟩
  · rintro ⟨tokens,stop,reading,rfl,rfl⟩
    rw [reading]
    rfl

theorem Stream.pieces {tokens : List Token} {bytes : Bytes} (stream : Stream tables tokens bytes) :
    ∀ token ∈ tokens, ∃ piece, Spelled tables token piece := by
  induction stream with
  | ended => exact List.forall_mem_nil _
  | token spelled _ ih => exact List.forall_mem_cons.mpr ⟨⟨_,spelled⟩,ih⟩

theorem read_pieces (consistent : tables.Consistent) (forward : tables.commands.isForward = true) {data : Bytes}
    {offset : Nat} {entries : List Entry} {after : Int}
    (decoded : read tables data offset = .ok (entries,after)) :
    ∃ tokens, entries = entriesOf tokens ∧ ∀ token ∈ tokens, ∃ piece, Spelled tables token piece := by
  obtain ⟨tokens,stop,reading,rfl,_⟩ := (read_forward forward).mp decoded
  obtain ⟨bytes,rest,_,stream,_⟩ := stream_of_read consistent reading
  exact ⟨tokens,rfl,stream.pieces⟩

theorem sample_delimited : Delimited TableSet.sample :=
  ⟨by decide,by decide,by decide⟩

-- Tables with a row that sends the reader back to the byte before it. They are
-- accepted: only for commands with data a width is compared with zero.
def stepping : TableSet where
  characters := ⟨"stepping",[('a',[0x61])],[]⟩
  commands := ⟨"stepping",0x00,
    [⟨.newLine,0x02,0,none,.whole⟩,⟨.reset,0x03,-2,some "reset",.whole⟩,⟨.theme,0x04,1,some "theme",.whole⟩,
     ⟨.printIcon,0x09,1,some "icon",.whole⟩,⟨.clear,0x10,0,some "clear",.whole⟩],[],[],by decide⟩

theorem stepping_accepted : stepping.Accepted :=
  ⟨⟨.ofList [("a",[0x61])],[],rfl⟩,⟨stepping.commands.rows,[],[],rfl⟩,rfl⟩

theorem stepping_delimited : Delimited stepping :=
  ⟨by decide,by decide,by decide⟩

-- Reading undoes writing, up to the form that the wire keeps of a message.
theorem read_encode (accepted : tables.Accepted) (forward : tables.commands.isForward = true)
    (delimited : Delimited tables) {entries : List Entry} {bytes : Bytes}
    (encoded : encode tables entries = .ok bytes) :
    read tables bytes 0 = .ok (Message.normal entries,bytes.length) := by
  have stream := stream_of_encode delimited.short encoded
  have reading := read_stream accepted.consistent delimited stream 0 []
  rw [List.append_nil,Nat.zero_add] at reading
  exact (read_forward forward).mpr ⟨_,_,reading,(entriesOf_tokens entries).symm,rfl⟩

theorem read_encode_sample :
    encode TableSet.sample [.text "a\né",.text "a",.lineBreak (some "x") none,.complex "square",
      .argument .delay [0x00,0x02] rfl,.text "",.bare .reset rfl] =
        .ok [0x61,0x02,0x1A,0x00,0x61,0x02,0x1A,0x02,0x14,0x00,0x02,0x03,0x00] ∧
    read TableSet.sample [0x61,0x02,0x1A,0x00,0x61,0x02,0x1A,0x02,0x14,0x00,0x02,0x03,0x00] 0 =
      .ok ([.text "a",.lineBreak none none,.text "éa",.lineBreak none none,.complex "square",
        .argument .delay [0x00,0x02] rfl,.bare .reset rfl],13) := by
  have encoded : encode TableSet.sample [.text "a\né",.text "a",.lineBreak (some "x") none,.complex "square",
      .argument .delay [0x00,0x02] rfl,.text "",.bare .reset rfl] =
        .ok [0x61,0x02,0x1A,0x00,0x61,0x02,0x1A,0x02,0x14,0x00,0x02,0x03,0x00] := rfl
  exact ⟨encoded,read_encode TableSet.sample_loaded.accepted rfl sample_delimited encoded⟩

theorem scaled_delimited : Delimited TableSet.scaled :=
  ⟨by decide,by decide,by decide⟩

-- Without forward rows the law fails: the reset sends the reader back to the argument of the
-- theme, which is read as a theme whose argument is the reset. And at the width 1.0 an argument
-- is written that no reader can cut out.
theorem read_encode_stepping :
    (¬ ∀ tables : TableSet, tables.Accepted → (∀ row ∈ tables.commands.rows, row.isWhole = true) → Delimited tables →
      ∀ entries bytes, encode tables entries = .ok bytes →
        read tables bytes 0 = .ok (Message.normal entries,bytes.length)) ∧
    ¬ ∀ tables : TableSet, tables.Accepted → Advancing tables → Delimited tables →
      ∀ entries bytes, encode tables entries = .ok bytes →
        read tables bytes 0 = .ok (Message.normal entries,bytes.length) := by
  constructor
  · intro law
    have claimed := law stepping stepping_accepted (by decide) stepping_delimited
      [.argument .theme [0x04] rfl,.bare .reset rfl] [0x04,0x04,0x03,0x00] rfl
    have found : read stepping [0x04,0x04,0x03,0x00] 0 =
        .ok ([.argument .theme [0x04] rfl,.bare .reset rfl,.argument .theme [0x03] rfl],4) := rfl
    have same := congrArg Prod.fst (Except.ok.inj (claimed.symm.trans found))
    exact absurd same (by decide)
  · intro law
    have claimed := law TableSet.scaled TableSet.scaled_loaded.accepted (by decide) scaled_delimited
      [.argument .textScale [0x22] rfl] [0x0A,0x22,0x00] rfl
    have failed : read TableSet.scaled [0x0A,0x22,0x00] 0 = .error .notAnInteger := rfl
    cases failed.symm.trans claimed

theorem Stream.standing {tokens : List Token} {bytes : Bytes} (stream : Stream tables tokens bytes) :
    Standing tokens := by
  induction stream with
  | ended => intro content member; cases member
  | token spelled _ ih =>
    intro content member
    rcases List.mem_cons.mp member with same | later
    · subst same
      cases spelled
    · exact ih content later

theorem entryBytes_spelled (consistent : tables.Consistent) {entry : Entry} {piece : Bytes}
    (spelled : Spelled tables (.entry entry) piece) (index : Nat) :
    entryBytes tables index entry = .ok piece := by
  cases spelled with
  | complex member short => exact complexBytes_exact.mpr (consistent.commands.complexCode member)
  | @lineBreak row head member opcode command =>
    exact lineBytes_exact.mpr ⟨row,head,command ▸ consistent.commands.rowFor member,opcode,rfl⟩
  | @bare row head member opcode fits =>
    exact bareBytes_exact.mpr ⟨row,head,consistent.commands.rowFor member,opcode,rfl⟩
  | @argument row head data member opcode fits width =>
    exact argumentBytes_exact.mpr ⟨row,head,consistent.commands.rowFor member,opcode,width,rfl⟩

theorem charBytes_spelled (consistent : tables.Consistent)
    (noLine : tables.characters.encodeChar? '\n' = none) {c : Char} {piece : Bytes}
    (spelled : Spelled tables (.glyph c) piece) (index : Nat) : charBytes tables index c = .ok piece := by
  cases spelled with
  | glyph member =>
    have found := consistent.characters.encodeChar member
    have plain : c ≠ '\n' := by
      rintro rfl
      rw [found] at noLine; cases noLine
    rw [charBytes_exact,if_neg plain]
    exact found

theorem encode_stream (consistent : tables.Consistent) (noLine : tables.characters.encodeChar? '\n' = none)
    {tokens : List Token} {bytes : Bytes} (stream : Stream tables tokens bytes) (index : Nat) :
    encodeFrom tables index (entriesOf tokens) = .ok bytes := by
  induction stream generalizing index with
  | ended terminator => exact bind_ok.mpr ⟨_,byte_exact.mpr terminator,rfl⟩
  | @token token tokens piece rest spelled stream ih =>
    cases token with
    | entry entry =>
      exact encodeFrom_cons.mpr ⟨piece,rest,entryBytes_spelled consistent spelled index,ih (index + 1),rfl⟩
    | glyph c =>
      rw [entriesOf_glyph stream.standing]
      refine encodeFrom_prepend ?_ (ih index)
      rw [String.toList_singleton]
      exact textBytes_cons.mpr ⟨piece,[],charBytes_spelled consistent noLine spelled index,rfl,
        (List.append_nil _).symm⟩

theorem slice_front {data bytes rest : Bytes} {offset : Nat} (split : data.drop offset = bytes ++ rest) :
    Bytes.slice data offset (Int.ofNat (offset + bytes.length)) = bytes := by
  rw [Int.ofNat_eq_natCast,Bytes.slice_nat,split,Nat.add_sub_cancel_left,List.take_left]

theorem encode_tokens (consistent : tables.Consistent) (noLine : tables.characters.encodeChar? '\n' = none) {data : Bytes}
    {offset stop : Nat} {tokens : List Token} (reading : tokensFrom tables offset (data.drop offset) = .ok (tokens,stop)) :
    encode tables (entriesOf tokens) = .ok (Bytes.slice data offset (Int.ofNat stop)) := by
  obtain ⟨bytes,rest,split,stream,rfl⟩ := stream_of_read consistent reading
  rw [slice_front split]
  exact encode_stream consistent noLine stream 0

end
end GameText.Wire
