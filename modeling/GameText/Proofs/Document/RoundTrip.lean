import GameText.Proofs.Document.Tree
import GameText.Proofs.Wire.Stumble

namespace GameText.Document
open Outcome Xml

-- An entry as operations of the codec make it: the tree keeps it as it is.
def Lasting (entry : Entry) : Prop := kept? entry = some entry

theorem lasting_text {content : String} (filled : content ≠ "") : Lasting (.text content) := by
  rw [Lasting,kept?,if_neg]
  simpa using filled

theorem kept_lasting {entries : List Entry} (lasting : ∀ entry ∈ entries, Lasting entry) : kept entries = entries := by
  induction entries with
  | nil => rfl
  | cons entry rest ih =>
    rw [List.forall_mem_cons] at lasting
    rw [kept,List.filterMap_cons,lasting.1]
    exact congrArg _ (ih lasting.2)

section
variable {tables : TableSet}

theorem denoted_lasting {content : List Char} {entry : Entry} (meaning : Script.Denotes tables content entry) :
    Lasting entry := by
  cases meaning <;> rfl

theorem denoted_fitting (consistent : tables.Consistent) {content : List Char} {entry : Entry}
    (meaning : Script.Denotes tables content entry) : Fitting tables entry := by
  cases meaning with
  | complex _ known => exact known
  | icon => exact fun other => absurd rfl other
  | lineBreak => trivial
  | bare => trivial
  | @argument _ _ _ row value _ named fits =>
    intro _ other found
    obtain ⟨member,_⟩ := CommandTable.byName_mem named
    have has := (consistent.commands.payloads row member).2.mp fits
    have positive : 0 < row.width := by simpa [CommandRow.hasArgument] using has
    cases (consistent.commands.rowFor member).symm.trans found
    rw [Bytes.littleEndian_length,CommandRow.argumentSize]
    omega

theorem scripted_entries (consistent : tables.Consistent) {text : List Char} {entries : Message}
    (scripted : Script.Scripted tables text entries) :
    ∀ entry ∈ entries, Lasting entry ∧ Fitting tables entry :=
  Script.scripted_each (fun _ filled _ => ⟨lasting_text filled,trivial⟩)
    (fun _ _ meaning => ⟨denoted_lasting meaning,denoted_fitting consistent meaning⟩) scripted

theorem rowEntry_lasting (consistent : tables.Consistent) {row : CommandRow} (member : row ∈ tables.commands.rows)
    {argument : Bytes} {entry : Entry} (built : Wire.rowEntry row argument = .ok entry) : Lasting entry := by
  obtain ⟨noText,data⟩ := consistent.commands.payloads row member
  unfold Wire.rowEntry at built
  cases form : row.command.payload with
  | text => exact absurd form noText
  | data =>
    rw [if_pos (data.mp form),Entry.build_argument form] at built
    cases built
    rfl
  | nothing =>
    rw [(consistent.commands.bare member).mp form] at built
    rcases Entry.bare_or_newLine form with fits | line
    · rw [if_neg (by decide),Entry.build_bare fits] at built
      cases built
      rfl
    · rw [if_neg (by decide),line,Entry.build_newLine] at built
      cases built
      rfl

theorem codeToken_lasting {position : Int} {code : Bytes} {entry : Entry}
    (named : Wire.codeToken tables position code = .ok (.entry entry)) : Lasting entry := by
  unfold Wire.codeToken at named
  split at named
  · cases named
  · split at named
    · cases named
    · rw [Entry.build_complex] at named
      cases named
      rfl

theorem turn_lasting (consistent : tables.Consistent) {data : Bytes} {position next : Int} {entry : Entry}
    (taken : Wire.turn tables data position = .ok (.token (.entry entry) next)) : Lasting entry := by
  unfold Wire.turn at taken
  split at taken
  · cases taken
  · split at taken
    · cases taken
    · split at taken
      · cases taken
      · split at taken
        · rename_i row found
          obtain ⟨member,_⟩ := CommandTable.byOpcode_mem found
          dsimp only at taken
          split at taken
          · cases taken
          · split at taken
            · obtain ⟨made,built,same⟩ := bind_ok.mp taken
              cases same
              exact rowEntry_lasting consistent member built
            · unfold Wire.strand at taken
              split at taken
              · cases taken
              · split at taken <;> cases taken
        · dsimp only at taken
          split at taken
          · cases taken
          · obtain ⟨token,named,same⟩ := bind_ok.mp taken
            cases same
            exact codeToken_lasting named

theorem wander_lasting (consistent : tables.Consistent) {data : Bytes} {turns : Nat} {position after : Int}
    {tokens : List Wire.Token} (walked : Wire.wander tables data turns position = .ok (tokens,after)) :
    ∀ entry, .entry entry ∈ tokens → Lasting entry := by
  induction turns generalizing position tokens with
  | zero => cases walked
  | succ turns ih =>
    rw [Wire.wander] at walked
    obtain ⟨taken,turned,walked⟩ := bind_ok.mp walked
    cases taken with
    | ended stop =>
      cases walked
      intro entry member
      cases member
    | token token next =>
      obtain ⟨⟨others,stop⟩,further,made⟩ := bind_ok.mp walked
      cases made
      intro entry member
      rcases List.mem_cons.mp member with rfl | later
      · exact turn_lasting consistent turned
      · exact ih further entry later

theorem read_lasting (consistent : tables.Consistent) {data : Bytes} {offset : Nat} {entries : List Entry}
    {after : Int} (decoded : Wire.read tables data offset = .ok (entries,after)) :
    ∀ entry ∈ entries, Lasting entry := by
  obtain ⟨⟨tokens,stop⟩,walked,made⟩ := bind_ok.mp decoded
  cases made
  rw [Wire.tokensAt_turns] at walked
  intro entry member
  rcases Wire.entriesOf_mem member with ⟨run,filled,_,rfl⟩ | inside
  · exact lasting_text (by simpa using filled)
  · exact wander_lasting consistent walked entry inside

theorem spelled_fitting (consistent : tables.Consistent) {entry : Entry} {piece : Bytes}
    (spelled : Wire.Spelled tables (.entry entry) piece) : Fitting tables entry := by
  cases spelled with
  | complex member => exact consistent.commands.isComplex member
  | lineBreak => trivial
  | bare => trivial
  | @argument row head data member opcode fits width =>
    intro _ other found
    cases (consistent.commands.rowFor member).symm.trans found
    exact width

theorem read_fitting (consistent : tables.Consistent) (advancing : Wire.Advancing tables) {data : Bytes}
    {offset : Nat} {entries : List Entry} {after : Int}
    (decoded : Wire.read tables data offset = .ok (entries,after)) : ∀ entry ∈ entries, Fitting tables entry := by
  obtain ⟨tokens,stop,reading,rfl,_⟩ := Wire.read_straight consistent advancing decoded
  obtain ⟨_,_,_,stream,_⟩ := Wire.stream_of_read consistent reading
  intro entry member
  rcases Wire.entriesOf_mem member with ⟨run,_,_,rfl⟩ | inside
  · trivial
  · obtain ⟨piece,spelled⟩ := stream.pieces _ inside
    exact spelled_fitting consistent spelled

-- The tree form loses nothing but empty texts and the payloads of line breaks. Of what the
-- parser makes it loses nothing at all, nor of what a decoder makes that is never sent back.
theorem deserialize_serialize (accepted : tables.Accepted) (readable : Readable tables) {id : Int}
    (nonneg : 0 ≤ id) (small : id < 2 ^ 32) {entries : List Entry} {element : Element}
    (written : serialize tables id entries = .ok element) :
    ((∀ entry ∈ entries, Fitting tables entry) → deserialize tables element = .ok (id,kept entries)) ∧
    (∀ script, Script.parse tables script = .ok entries → deserialize tables element = .ok (id,entries)) ∧
    (∀ data offset after, Wire.read tables data offset = .ok (entries,after) →
      (Wire.Advancing tables ∨ ∀ entry ∈ entries, Fitting tables entry) →
      deserialize tables element = .ok (id,entries)) := by
  have consistent := accepted.consistent
  have whole := fun fitting => deserialize_written consistent readable nonneg small fitting written
  refine ⟨whole,fun script parsed => ?_,fun data offset after decoded fitting => ?_⟩
  · have made := scripted_entries consistent ((Script.parse_exact consistent).mp parsed)
    rw [whole fun entry member => (made entry member).2,kept_lasting fun entry member => (made entry member).1]
  · rw [whole (fitting.elim (fun advancing => read_fitting consistent advancing decoded) fun given => given),
      kept_lasting (read_lasting consistent decoded)]

theorem sample_readable : Readable TableSet.sample := by
  refine ⟨by decide,by decide,fun row member => ?_⟩
  simp only [TableSet.sample,List.mem_cons,List.not_mem_nil,or_false] at member
  rcases member with rfl | rfl | rfl | rfl <;> decide

theorem deserialize_serialize_sample :
    serialize TableSet.sample 7 [.text "",.lineBreak (some "x") none,.argument .printIcon [0x00] rfl,
      .argument .delay [0x00,0x02] rfl,.text " a"] =
        .ok ⟨messageTag,[(idName,"7")],none,none,
          [⟨textTag,[],some "",none,[]⟩,.leaf newLineTag [],.leaf iconTag [(valueName,"item-key")],
           .leaf "delay" [(valueName,"512")],⟨textTag,[],some " a",none,[]⟩]⟩ ∧
    deserialize TableSet.sample ⟨messageTag,[(idName,"7")],none,none,
      [⟨textTag,[],some "",none,[]⟩,.leaf newLineTag [],.leaf iconTag [(valueName,"item-key")],
       .leaf "delay" [(valueName,"512")],⟨textTag,[],some " a",none,[]⟩]⟩ =
      .ok (7,[.lineBreak none none,.argument .printIcon [0x00] rfl,.argument .delay [0x00,0x02] rfl,.text " a"]) := by
  have argument : CommandRow.argumentText [0x00,0x02] = .ok "512" :=
    (@Script.argumentText_short [0x00,0x02] (by decide)).trans (congrArg Except.ok (by decide +kernel))
  have delay : entryElement TableSet.sample 3 (.argument .delay [0x00,0x02] rfl) =
      .ok (.leaf "delay" [(valueName,"512")]) := by
    simp only [entryElement,argument]
    rfl
  have number : Text.intText 7 = "7" := by decide +kernel
  have written : serialize TableSet.sample 7 [.text "",.lineBreak (some "x") none,.argument .printIcon [0x00] rfl,
      .argument .delay [0x00,0x02] rfl,.text " a"] = .ok ⟨messageTag,[(idName,"7")],none,none,
        [⟨textTag,[],some "",none,[]⟩,.leaf newLineTag [],.leaf iconTag [(valueName,"item-key")],
         .leaf "delay" [(valueName,"512")],⟨textTag,[],some " a",none,[]⟩]⟩ := by
    simp only [serialize,entryElementsFrom,delay,number]
    rfl
  refine ⟨written,(deserialize_serialize TableSet.sample_loaded.accepted sample_readable (by decide) (by decide)
    written).1 fun entry member => ?_⟩
  simp only [List.mem_cons,List.not_mem_nil,or_false] at member
  rcases member with rfl | rfl | rfl | rfl | rfl
  · trivial
  · trivial
  · exact fun other => absurd rfl other
  · intro _ row found
    cases found
    rfl
  · trivial

-- Tables with a reset that sends the reader back by two bytes more than it takes.
def receding : TableSet where
  characters := ⟨"receding",[('a',[0x61])],[]⟩
  commands := ⟨"receding",0x00,[⟨.newLine,0x02,0,none,.whole⟩,⟨.reset,0x03,-3,some "reset",.whole⟩,
    ⟨.printIcon,0x09,1,some "icon",.whole⟩,⟨.delay,0x14,2,some "delay",.whole⟩],[],[],by decide⟩

theorem receding_accepted : receding.Accepted :=
  ⟨⟨.ofList [("a",[0x61])],[],rfl⟩,⟨receding.commands.rows,[],[],rfl⟩,rfl⟩

theorem receding_readable : Readable receding := by
  refine ⟨by decide,by decide,fun row member => ?_⟩
  simp only [receding,List.mem_cons,List.not_mem_nil,or_false] at member
  rcases member with rfl | rfl | rfl | rfl <;> decide

theorem receding_refilled : ∃ entries element, Wire.read receding [0x03,0x00,0x14,0x61] 0 = .ok (entries,2) ∧
    serialize receding 7 entries = .ok element ∧ deserialize receding element ≠ .ok (7,entries) := by
  have decoded : Wire.read receding [0x03,0x00,0x14,0x61] 0 = .ok ([.bare .reset rfl,.argument .delay [] rfl],2) := rfl
  have written : ∀ data : Bytes, data.length ≤ 8 → CommandRow.argumentValue data = 0 →
      serialize receding 7 [.bare .reset rfl,.argument .delay data rfl] = .ok ⟨messageTag,[(idName,Text.intText 7)],none,none,
        [.leaf "reset" [],.leaf "delay" [(valueName,Text.natText 0)]]⟩ := by
    intro data short zero
    have argument : CommandRow.argumentText data = .ok (Text.natText 0) := zero ▸ Script.argumentText_short short
    have delay : entryElement receding 1 (.argument .delay data rfl) = .ok (.leaf "delay" [(valueName,Text.natText 0)]) := by
      simp only [entryElement,argument]
      rfl
    simp only [serialize,entryElementsFrom,delay]
    rfl
  refine ⟨_,_,decoded,written [] (by decide) rfl,fun claimed => ?_⟩
  have filled : Fitting receding (.argument .delay [0x00,0x00] rfl) := by
    intro _ row found
    cases found
    rfl
  have bare : Fitting receding (.bare .reset rfl) := trivial
  have back := deserialize_written receding_accepted.consistent receding_readable (by decide) (by decide)
    (List.forall_mem_cons.mpr ⟨bare,List.forall_mem_singleton.mpr filled⟩) (written [0x00,0x00] (by decide) rfl)
  cases claimed.symm.trans back

theorem scaled_unreadable : ∃ element, serialize TableSet.scaled 1 [.argument .textScale [0x22] rfl] = .ok element ∧
    deserialize TableSet.scaled element = .error .notAnInteger := by
  refine ⟨⟨messageTag,[(idName,"1")],none,none,[.leaf "scale" [(valueName,"34")]]⟩,?_,by decide +kernel⟩
  have argument : CommandRow.argumentText [0x22] = .ok "34" :=
    (@Script.argumentText_short [0x22] (by decide)).trans (congrArg Except.ok (by decide +kernel))
  have scale : entryElement TableSet.scaled 0 (.argument .textScale [0x22] rfl) = .ok (.leaf "scale" [(valueName,"34")]) := by
    simp only [entryElement,argument]
    rfl
  have number : Text.intText 1 = "1" := by decide +kernel
  simp only [serialize,entryElementsFrom,scale,number]
  rfl

-- Neither part holds of all tables: the one of decoders asks that no width be negative, the
-- other that widths be integers.
theorem deserialize_serialize_lossy :
    (¬ ∀ tables : TableSet, tables.Accepted → Readable tables → ∀ id : Int, 0 ≤ id → id < 2 ^ 32 →
      ∀ entries element, serialize tables id entries = .ok element →
        ∀ data offset after, Wire.read tables data offset = .ok (entries,after) →
          deserialize tables element = .ok (id,entries)) ∧
    ¬ ∀ tables : TableSet, tables.Accepted → (∀ row ∈ tables.commands.rows, row.width ≤ 8) →
      (∀ row ∈ tables.commands.rows, ∀ tag ∈ [textTag,complexTag,iconTag,newLineTag], row.name ≠ some tag ∨
        row.command = .printIcon ∨ row.command = .newLine) →
      ∀ id : Int, 0 ≤ id → id < 2 ^ 32 → ∀ entries element, serialize tables id entries = .ok element →
        (∀ entry ∈ entries, Fitting tables entry) → deserialize tables element = .ok (id,kept entries) := by
  refine ⟨fun law => ?_,fun law => ?_⟩
  · obtain ⟨entries,element,decoded,written,lost⟩ := receding_refilled
    exact lost (law receding receding_accepted receding_readable 7 (by decide) (by decide) _ _ written _ _ _ decoded)
  · obtain ⟨element,written,failed⟩ := scaled_unreadable
    have fitting : Fitting TableSet.scaled (.argument .textScale [0x22] rfl) := by
      intro _ row found
      cases found
      rfl
    have claimed := law TableSet.scaled TableSet.scaled_loaded.accepted (by decide) (by decide) 1 (by decide) (by decide) _ _
      written (List.forall_mem_singleton.mpr fitting)
    cases failed.symm.trans claimed

end
end GameText.Document
