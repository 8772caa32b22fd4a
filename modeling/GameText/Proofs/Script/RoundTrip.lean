import GameText.Proofs.Script.Token
import GameText.Proofs.Wire.Stumble

namespace GameText.Script
open Outcome Text
variable {tables : TableSet}

-- A message that does not begin with a text, so that a run in front of it
-- becomes an entry of its own.
def Apart (entries : Message) : Prop := ∀ content rest, entries ≠ .text content :: rest

theorem literal_prepend {entries : Message} (apart : Apart entries) (run : List Char) :
    literal run ++ entries = Message.prepend (String.ofList run) entries := by
  unfold literal Message.prepend
  cases run with
  | nil => rfl
  | cons c more =>
    rw [if_neg (by simp),if_neg (by simp)]
    match entries with
    | [] => rfl
    | entry :: rest =>
      cases entry with
      | text content => exact absurd rfl (apart content rest)
      | _ => rfl

theorem denoted_apart {content : List Char} {entry : Entry} (meaning : Denotes tables content entry)
    (entries : Message) : Apart (entry :: entries) := by
  intro text rest same
  cases same
  cases meaning

theorem literal_alone (run : List Char) : literal run = Message.prepend (String.ofList run) [] := by
  rw [← literal_prepend (by simp [Apart]) run,List.append_nil]

theorem scripted_prepend {run text : List Char} {entries : Message} (plain : Plain run)
    (scripted : Scripted tables text entries) :
    Scripted tables (run ++ text) (Message.prepend (String.ofList run) entries) := by
  have joined : ∀ more, Plain more → Plain (run ++ more) := by
    intro more others c member
    exact (List.mem_append.mp member).elim (plain c) (others c)
  cases scripted with
  | ended others =>
    rw [literal_alone,← Message.prepend_append,← String.ofList_append,← literal_alone]
    exact .ended (joined _ others)
  | @token more content after entry rest others inside meaning script =>
    have apart := denoted_apart meaning rest
    rw [literal_prepend apart,← Message.prepend_append,← String.ofList_append,← literal_prepend apart,
      ← List.append_assoc,← List.append_assoc]
    exact .token (joined more others) inside meaning script

theorem scripted_token {content after : List Char} {entry : Entry} {entries : Message} (inside : Plain content)
    (meaning : Denotes tables content entry) (more : Scripted tables after entries) :
    Scripted tables (tokenOf content ++ after) (entry :: entries) := by
  have whole := Scripted.token (show Plain [] by decide) inside meaning more
  exact whole

theorem serialize_cons {entry : Entry} {entries : Message} {text : String} :
    serialize tables (entry :: entries) = .ok text ↔
      ∃ head tail, entryText tables entry = .ok head ∧ serialize tables entries = .ok tail ∧ text = head ++ tail := by
  simp [serialize,@eq_comm _ text]

theorem flat_token {entry : Entry} {content : List Char} (meaning : Denotes tables content entry)
    (shown : entryText tables entry = .ok (String.ofList (tokenOf content))) (entries : Message) :
    Message.flat (entry :: entries) = entry :: Message.flat entries := by
  cases meaning with
  | lineBreak =>
    have same := congrArg String.toList (Except.ok.inj shown)
    rw [String.toList_ofList,tokenOf] at same
    simp at same
  | _ => rfl

theorem serialize_legible {entries : Message} (legible : ∀ entry ∈ entries, Legible tables entry) :
    ∃ text, serialize tables entries = .ok text ∧ Scripted tables text.toList (Message.flat entries) := by
  induction entries with
  | nil => exact ⟨"",rfl,.ended (show Plain [] by decide)⟩
  | cons entry rest ih =>
    obtain ⟨tail,shownTail,scripted⟩ := ih fun other member => legible other (List.mem_cons_of_mem _ member)
    cases legible entry List.mem_cons_self with
    | @text content plain =>
      refine ⟨content ++ tail,serialize_cons.mpr ⟨content,tail,rfl,shownTail,rfl⟩,?_⟩
      have whole := scripted_prepend plain scripted
      rwa [String.ofList_toList,← String.toList_append] at whole
    | lineBreak =>
      refine ⟨"\n" ++ tail,serialize_cons.mpr ⟨"\n",tail,rfl,shownTail,rfl⟩,?_⟩
      have whole := scripted_prepend (show Plain "\n".toList by decide) scripted
      rwa [String.ofList_toList,← String.toList_append] at whole
    | token inside shown meaning =>
      refine ⟨_,serialize_cons.mpr ⟨_,tail,shown,shownTail,rfl⟩,?_⟩
      rw [flat_token meaning shown,String.toList_append,String.toList_ofList]
      exact scripted_token inside meaning scripted

theorem serialize_step (entry : Entry) (rest : Message) :
    serialize tables (entry :: rest) =
      entryText tables entry >>= fun head => (serialize tables rest).map (head ++ ·) := by
  rw [serialize]
  cases entryText tables entry <;> cases serialize tables rest <;> rfl

theorem serialize_prepend (text : String) (entries : Message) :
    serialize tables (Message.prepend text entries) = (serialize tables entries).map (text ++ ·) := by
  unfold Message.prepend
  split
  · rename_i empty
    subst empty
    cases serialize tables entries <;> simp
  · split
    · rename_i next rest
      rw [serialize_step,serialize_step]
      cases serialize tables rest <;> simp [entryText,String.append_assoc]
    · rw [serialize_step]; rfl

theorem serialize_flat (entries : Message) : serialize tables (Message.flat entries) = serialize tables entries := by
  induction entries with
  | nil => rfl
  | cons entry rest ih =>
    have kept : serialize tables (entry :: Message.flat rest) = serialize tables (entry :: rest) := by
      rw [serialize_step,serialize_step,ih]
    cases entry with
    | text content =>
      rw [serialize_step,← ih]
      exact serialize_prepend content (Message.flat rest)
    | lineBreak strayText strayData =>
      rw [serialize_step,← ih]
      exact serialize_prepend "\n" (Message.flat rest)
    | complex key => exact kept
    | bare command fits => exact kept
    | argument command data fits => exact kept

theorem scripted_legible (consistent : tables.Consistent) (formed : tables.commands.Formed) {text : List Char}
    {entries : Message} (scripted : Scripted tables text entries) : ∀ entry ∈ entries, Legible tables entry :=
  scripted_each (fun _ _ plain => .text plain) (fun _ _ meaning => legible_denoted consistent formed meaning) scripted

theorem literal_merged {entries : Message} (apart : Apart entries) (merged : Message.merge entries = entries)
    (run : List Char) : Message.merge (literal run ++ entries) = literal run ++ entries := by
  cases run with
  | nil => exact merged
  | cons c more =>
    calc Message.merge (literal (c :: more) ++ entries)
        = Message.prepend (String.ofList (c :: more)) (Message.merge entries) := rfl
      _ = Message.prepend (String.ofList (c :: more)) entries := by rw [merged]
      _ = literal (c :: more) ++ entries := (literal_prepend apart _).symm

theorem scripted_merged {text : List Char} {entries : Message} (scripted : Scripted tables text entries) :
    Message.merge entries = entries := by
  induction scripted with
  | @ended run plain =>
    have merged := literal_merged (show Apart [] by simp [Apart]) rfl run
    rwa [List.append_nil] at merged
  | @token run content after entry entries plain inside meaning more ih =>
    refine literal_merged (denoted_apart meaning entries) ?_ run
    cases meaning <;> exact congrArg _ ih

theorem scripted_fed {text : List Char} {entries : Message} (scripted : Scripted tables text entries)
    (consistent : tables.Consistent)
    (unnamed : (tables.commands.rowFor? .newLine).bind CommandRow.name = none) :
    entries.map Message.feed = entries := by
  induction scripted with
  | ended plain =>
    unfold literal
    split <;> rfl
  | @token run content after entry entries plain inside meaning more ih =>
    have front : (literal run).map Message.feed = literal run := by
      unfold literal
      split <;> rfl
    rw [List.map_append,front,List.map_cons,ih]
    cases meaning with
    | lineBreak _ named command =>
      obtain ⟨member,name⟩ := CommandTable.byName_mem named
      rw [← command,consistent.commands.rowFor member,Option.bind_some,name] at unnamed
      cases unnamed
    | _ => rfl

-- The text of parsed entries is parsed again, and has the same text.
theorem serialize_parse (loaded : tables.Loaded) {script : String} {entries : Message}
    (parsed : parse tables script = .ok entries) :
    ∃ text again, serialize tables entries = .ok text ∧ parse tables text = .ok again ∧
      serialize tables again = .ok text ∧
      ((tables.commands.rowFor? .newLine).bind CommandRow.name = none → again = entries) := by
  have consistent := loaded.accepted.consistent
  have scripted := (parse_exact consistent).mp parsed
  obtain ⟨text,shown,back⟩ := serialize_legible (scripted_legible consistent loaded.formed scripted)
  refine ⟨text,Message.flat entries,shown,(parse_exact consistent).mpr back,(serialize_flat entries).trans shown,?_⟩
  intro unnamed
  rw [Message.flat,scripted_fed scripted consistent unnamed,scripted_merged scripted]

theorem serialize_parse_sample :
    parse TableSet.sample "\x7b:icon 00\x7dé\x7bVII\x7d\x7b:delay  0512 \x7d\na" =
      .ok [.argument .printIcon [0x00] rfl,.text "é",.complex "VII",.argument .delay [0x00,0x02] rfl,.text "\na"] ∧
    ∃ text, serialize TableSet.sample [.argument .printIcon [0x00] rfl,.text "é",.complex "VII",
        .argument .delay [0x00,0x02] rfl,.text "\na"] = .ok text ∧
      parse TableSet.sample text = .ok [.argument .printIcon [0x00] rfl,.text "é",.complex "VII",
        .argument .delay [0x00,0x02] rfl,.text "\na"] := by
  have parsed : parse TableSet.sample "\x7b:icon 00\x7dé\x7bVII\x7d\x7b:delay  0512 \x7d\na" =
      .ok [.argument .printIcon [0x00] rfl,.text "é",.complex "VII",.argument .delay [0x00,0x02] rfl,
        .text "\na"] := by decide +kernel
  obtain ⟨text,again,shown,back,_,same⟩ := serialize_parse TableSet.sample_loaded parsed
  exact ⟨parsed,text,shown,same rfl ▸ back⟩

-- What scripts ask of tables beyond their checks: every row but that of the line
-- break can be written, and no glyph is taken for the structure of a script.
structure Writable (tables : TableSet) : Prop where
  named : ∀ row ∈ tables.commands.rows, row.command ≠ .newLine →
    ∃ name, row.name = some name ∧ Identifier name.toList
  unstructured : ∀ c ∈ ['\x7b','\x7d','\n'], tables.characters.encodeChar? c = none

theorem glyph_plain (consistent : tables.Consistent) (writable : Writable tables) {c : Char} {code : Bytes}
    (member : (c,code) ∈ tables.characters.glyphs) : isBrace c = false := by
  rw [Bool.eq_false_iff]
  intro brace
  have structural : c ∈ ['\x7b','\x7d','\n'] := by
    rcases (Bool.or_eq_true _ _).mp brace with opens | closes
    · rw [of_decide_eq_true opens]; decide
    · rw [of_decide_eq_true closes]; decide
  have none := writable.unstructured c structural
  rw [consistent.characters.encodeChar member] at none
  cases none

theorem spelled_legible (loaded : tables.Loaded) (writable : Writable tables) {entry : Entry} {piece : Bytes}
    (spelled : Wire.Spelled tables (.entry entry) piece) (whole : Wire.Whole tables entry) : Legible tables entry := by
  have consistent := loaded.accepted.consistent
  cases spelled with
  | complex member _ => exact legible_complex loaded.formed (consistent.commands.isComplex member)
  | lineBreak => exact .lineBreak
  | @bare row head member opcode fits =>
    have other : row.command ≠ .newLine := (of_decide_eq_true fits).2
    obtain ⟨name,named,identifier⟩ := writable.named row member other
    exact legible_bare consistent member named identifier fits
  | @argument row head data member opcode fits width =>
    have other : row.command ≠ .newLine := fun line => by rw [line] at fits; cases fits
    obtain ⟨name,named,identifier⟩ := writable.named row member other
    exact legible_argument consistent loaded.formed member named identifier fits
      (whole row (consistent.commands.rowFor member)) (by rw [CommandRow.argumentSize,← width,Int.toNat_natCast])

theorem prepend_legible {text : String} {entries : Message} (plain : Plain text.toList)
    (legible : ∀ entry ∈ entries, Legible tables entry) :
    ∀ entry ∈ Message.prepend text entries, Legible tables entry := by
  unfold Message.prepend
  split
  · exact legible
  · split
    · rename_i next rest
      rw [List.forall_mem_cons] at legible ⊢
      refine ⟨?_,legible.2⟩
      cases legible.1 with
      | text others =>
        refine .text fun c member => ?_
        rw [String.toList_append,List.mem_append] at member
        exact member.elim (plain c) (others c)
      | token _ _ meaning => cases meaning
    · exact List.forall_mem_cons.mpr ⟨.text plain,legible⟩

theorem stream_legible (loaded : tables.Loaded) (writable : Writable tables) {tokens : List Wire.Token}
    {bytes : Bytes} (stream : Wire.Stream tables tokens bytes)
    (whole : ∀ entry, .entry entry ∈ tokens → Wire.Whole tables entry) :
    ∀ entry ∈ Wire.entriesOf tokens, Legible tables entry := by
  induction stream with
  | ended => intro entry member; cases member
  | @token token tokens piece rest spelled stream ih =>
    have legible := ih fun entry member => whole entry (List.mem_cons_of_mem _ member)
    cases token with
    | entry entry =>
      rw [Wire.entriesOf_entry]
      exact List.forall_mem_cons.mpr ⟨spelled_legible loaded writable spelled (whole entry List.mem_cons_self),legible⟩
    | glyph c =>
      rw [Wire.entriesOf_glyph stream.standing]
      refine prepend_legible ?_ legible
      cases spelled with
      | glyph member =>
        intro d single
        rw [String.toList_singleton,List.mem_singleton] at single
        exact single ▸ glyph_plain loaded.accepted.consistent writable member

-- A message survives the way through its script byte for byte, although line
-- breaks come back as line feeds of texts.
theorem encode_decodeText (loaded : tables.Loaded) (writable : Writable tables) {data : Bytes}
    {entries : Message} {after : Int} (decoded : Wire.read tables data 0 = .ok (entries,after)) :
    ∃ script again, Wire.decodeText tables data = .ok script ∧ parse tables script = .ok again ∧
      Wire.encode tables again = .ok (Bytes.slice data 0 after) := by
  have consistent := loaded.accepted.consistent
  obtain ⟨tokens,stop,reading,rfl,rfl,whole⟩ := Wire.read_straight consistent loaded.advancing decoded
  have encoded := Wire.encode_tokens consistent (writable.unstructured '\n' (by decide)) reading
  obtain ⟨bytes,rest,_,stream,_⟩ := Wire.stream_of_read consistent reading
  obtain ⟨script,shown,scripted⟩ := serialize_legible (stream_legible loaded writable stream whole)
  refine ⟨script,_,?_,(parse_exact consistent).mpr scripted,Wire.encodeFrom_flat encoded⟩
  rw [Wire.decodeText,Wire.decode,decoded]
  exact shown

theorem sample_writable : Writable TableSet.sample := by
  refine ⟨fun row member other => ?_,fun c member => ?_⟩
  · simp only [TableSet.sample,List.mem_cons,List.not_mem_nil,or_false] at member
    rcases member with rfl | rfl | rfl | rfl
    · exact absurd rfl other
    · exact ⟨"reset",rfl,by decide⟩
    · exact ⟨"icon",rfl,by decide⟩
    · exact ⟨"delay",rfl,by decide⟩
  · simp only [List.mem_cons,List.not_mem_nil,or_false] at member
    rcases member with rfl | rfl | rfl <;> rfl

theorem encode_decodeText_sample :
    Wire.read TableSet.sample [0x61,0x02,0x09,0x00,0x1A,0x02,0x14,0x00,0x02,0x03,0x00,0x61] 0 =
      .ok ([.text "a",.lineBreak none none,.argument .printIcon [0x00] rfl,.complex "square",
        .argument .delay [0x00,0x02] rfl,.bare .reset rfl],11) ∧
    ∃ script again,
      Wire.decodeText TableSet.sample [0x61,0x02,0x09,0x00,0x1A,0x02,0x14,0x00,0x02,0x03,0x00,0x61] = .ok script ∧
      parse TableSet.sample script = .ok again ∧
      Wire.encode TableSet.sample again = .ok [0x61,0x02,0x09,0x00,0x1A,0x02,0x14,0x00,0x02,0x03,0x00] := by
  have decoded : Wire.read TableSet.sample [0x61,0x02,0x09,0x00,0x1A,0x02,0x14,0x00,0x02,0x03,0x00,0x61] 0 =
      .ok ([.text "a",.lineBreak none none,.argument .printIcon [0x00] rfl,.complex "square",
        .argument .delay [0x00,0x02] rfl,.bare .reset rfl],11) := by decide +kernel
  exact ⟨decoded,encode_decodeText TableSet.sample_loaded sample_writable decoded⟩

end GameText.Script
