import GameText.Proofs.Tables.Loaded
import GameText.Proofs.Wire.RoundTrip

namespace GameText.Wire
open Outcome
variable {tables : TableSet}

-- What a byte can be for where a token or the end of a message may stand.
inductive Role where
  | terminator
  | opcode
  | lead
  | character
  | complex
  deriving DecidableEq, Repr

-- The parts of a byte, said by the rows of the tables alone.
inductive Plays (tables : TableSet) (byte : UInt8) : Role → Prop where
  | terminator (same : tables.terminator = byte.toNat) : Plays tables byte .terminator
  | opcode {row : CommandRow} (member : row ∈ tables.commands.rows) (same : row.opcode = byte.toNat) :
      Plays tables byte .opcode
  | lead (escaped : tables.characters.isPrefix byte.toNat = true) : Plays tables byte .lead
  | character {c : Char} (member : (c,[byte]) ∈ tables.characters.glyphs) : Plays tables byte .character
  | complex {key : String} (member : (key,[byte]) ∈ tables.commands.complex) : Plays tables byte .complex

-- The two pairs that no check compares.
inductive Unchecked : Role → Role → Prop where
  | lead : Unchecked .terminator .lead
  | complex : Unchecked .terminator .complex

theorem opcode_alone (consistent : tables.Consistent) {byte : UInt8} {role : Role}
    (opcode : Plays tables byte .opcode) (other : Plays tables byte role) : role = .opcode := by
  cases opcode with
  | opcode member same =>
    obtain ⟨twin,equal,free,plain⟩ := consistent.rows _ member
    obtain rfl : twin = byte := UInt8.toNat_inj.mp (by omega)
    cases other with
    | opcode => rfl
    | terminator ended => exact absurd (same.trans ended.symm) (consistent.commands.unterminated _ member)
    | lead escaped => exact absurd (escaped.symm.trans plain) (by simp)
    | character glyph => exact absurd ((CharacterTable.hasCode_mem glyph).symm.trans free) (by simp)
    | complex glyph => exact absurd same (consistent.commands.apart _ glyph _ member twin rfl)

theorem character_alone (consistent : tables.Consistent) {byte : UInt8} {role : Role}
    (character : Plays tables byte .character) (other : Plays tables byte role) : role = .character := by
  cases character with
  | character member =>
    have taken := CharacterTable.hasCode_mem member
    cases other with
    | character => rfl
    | opcode row same => exact (opcode_alone consistent (.opcode row same) (.character member)).symm
    | terminator ended =>
      obtain ⟨twin,equal,free⟩ := consistent.ended
      obtain rfl : twin = byte := UInt8.toNat_inj.mp (by omega)
      exact absurd (taken.symm.trans free) (by simp)
    | lead escaped => exact absurd (escaped.symm.trans (consistent.characters.form _ member)) (by simp)
    | complex glyph => exact absurd (taken.symm.trans (consistent.complexFree _ glyph)) (by simp)

theorem lead_complex (consistent : tables.Consistent) {byte : UInt8} (lead : Plays tables byte .lead) :
    ¬ Plays tables byte .complex := by
  cases lead with
  | lead escaped =>
    intro complex
    cases complex with
    | complex member => exact absurd (escaped.symm.trans (consistent.complexForm _ member (.inl rfl))) (by simp)

theorem roles_apart (consistent : tables.Consistent) {byte : UInt8} {a b : Role}
    (first : Plays tables byte a) (second : Plays tables byte b) : a = b ∨ Unchecked a b ∨ Unchecked b a := by
  cases a with
  | opcode => exact .inl (opcode_alone consistent first second).symm
  | character => exact .inl (character_alone consistent first second).symm
  | terminator =>
    cases b with
    | terminator => exact .inl rfl
    | opcode => exact .inl (opcode_alone consistent second first)
    | character => exact .inl (character_alone consistent second first)
    | lead => exact .inr (.inl .lead)
    | complex => exact .inr (.inl .complex)
  | lead =>
    cases b with
    | lead => exact .inl rfl
    | opcode => exact .inl (opcode_alone consistent second first)
    | character => exact .inl (character_alone consistent second first)
    | complex => exact absurd second (lead_complex consistent first)
    | terminator => exact .inr (.inr .lead)
  | complex =>
    cases b with
    | complex => exact .inl rfl
    | opcode => exact .inl (opcode_alone consistent second first)
    | character => exact .inl (character_alone consistent second first)
    | lead => exact absurd first (lead_complex consistent second)
    | terminator => exact .inr (.inr .complex)

theorem delimited_unchecked (delimited : Delimited tables) {byte : UInt8} {a b : Role} (pair : Unchecked a b)
    (first : Plays tables byte a) : ¬ Plays tables byte b := by
  intro second
  cases pair with
  | lead =>
    cases first with
    | terminator ended =>
      cases second with
      | lead escaped => exact absurd (escaped.symm.trans (ended ▸ delimited.unescaped)) (by simp)
  | complex =>
    cases first with
    | terminator ended =>
      cases second with
      | complex member => exact delimited.unshared _ member (by rw [ended]; rfl)

theorem delimited_distinct (consistent : tables.Consistent)
    (short : ∀ glyph ∈ tables.commands.complex, glyph.2.length = 1 ∨ glyph.2.length = 2)
    (distinct : ∀ byte a b, Plays tables byte a → Plays tables byte b → a = b) : Delimited tables := by
  obtain ⟨byte,ended,_⟩ := consistent.ended
  refine ⟨short,?_,?_⟩
  · rw [Bool.eq_false_iff,ne_eq]
    intro escaped
    cases distinct byte _ _ (.terminator ended) (.lead (ended ▸ escaped))
  · rintro ⟨key,code⟩ member same
    obtain ⟨twin,rfl,equal⟩ := List.map_eq_singleton_iff.mp same
    cases distinct twin _ _ (.terminator equal.symm) (.complex member)

theorem spelled_apart (consistent : tables.Consistent) {a b : Token} {short long : Bytes}
    (first : Spelled tables a short) (second : Spelled tables b long) (front : short <+: long) :
    a = b ∧ short = long := by
  obtain ⟨head,more,rfl,length,name⟩ := spelled_named consistent first 0
  obtain ⟨other,later,rfl,reach,called⟩ := spelled_named consistent second 0
  obtain ⟨rfl,inside⟩ := List.cons_prefix_cons.mp front
  have whole : more = later := inside.eq_of_length (Nat.succ.inj (length.symm.trans reach))
  subst whole
  exact ⟨Except.ok.inj (name.symm.trans called),rfl⟩

-- Loaded tables keep the parts of a byte distinct, but for the terminator, which may be
-- an escape prefix or a complex glyph as well. Where it is neither, no token starts with
-- it.
theorem loaded_roles (loaded : tables.Loaded) :
    (∀ byte a b, Plays tables byte a → Plays tables byte b → a = b ∨ Unchecked a b ∨ Unchecked b a) ∧
    (∀ glyph ∈ tables.characters.glyphs, tables.characters.CodeForm glyph.2) ∧
    (∀ glyph ∈ tables.commands.complex, tables.characters.CodeForm glyph.2) ∧
    (∀ a b short long, Spelled tables a short → Spelled tables b long → short <+: long → a = b ∧ short = long) ∧
    ((∀ byte a b, Plays tables byte a → Plays tables byte b → a = b) ↔ Delimited tables) ∧
    (Delimited tables → ∀ token head more, Spelled tables token (head :: more) → tables.terminator ≠ head.toNat) := by
  have consistent := loaded.accepted.consistent
  refine ⟨fun _ _ _ => roles_apart consistent,consistent.characters.form,
    fun glyph member => consistent.complexForm glyph member (loaded.formed.codes glyph member),
    fun _ _ _ _ => spelled_apart consistent,⟨delimited_distinct consistent loaded.formed.codes,?_⟩,
    fun delimited _ _ _ => spelled_unended consistent delimited⟩
  intro delimited byte a b first second
  rcases roles_apart consistent first second with same | pair | pair
  · exact same
  · exact absurd second (delimited_unchecked delimited pair first)
  · exact absurd first (delimited_unchecked delimited pair second)

theorem loaded_roles_sample : TableSet.sample.Loaded ∧
    (∀ byte a b, Plays TableSet.sample byte a → Plays TableSet.sample byte b → a = b) ∧
    Spelled TableSet.sample (.entry (.complex "square")) [0x1A,0x02] ∧
    (∀ token, Spelled TableSet.sample token [0x1A,0x02] → token = .entry (.complex "square")) := by
  obtain ⟨_,_,_,apart,distinct,_⟩ := loaded_roles TableSet.sample_loaded
  have square : Spelled TableSet.sample (.entry (.complex "square")) [0x1A,0x02] :=
    .complex (by decide) (.inr rfl)
  exact ⟨TableSet.sample_loaded,distinct.mpr sample_delimited,square,
    fun token spelled => (apart _ _ _ _ spelled square (List.prefix_refl _)).1⟩

-- Tables in which the terminator is the code of a complex glyph, and their sheets.
def blurred : TableSet where
  characters := ⟨"sample",[('a',[0x61])],[]⟩
  commands := ⟨"sample",0x00,[⟨.newLine,0x02,0,none,.whole⟩,⟨.printIcon,0x09,1,some "icon",.whole⟩],
    [("NUL",[0x00])],[],by decide⟩

def blurredCharacters : CharacterSheet := ⟨"sample",[],[⟨0x61,"a"⟩],[]⟩

def blurredCommands : CommandSheet :=
  ⟨"sample",0x00,[⟨"NEW_LINE",0x02,0,none,.whole⟩,⟨"PRINT_ICON",0x09,1,some "icon",.whole⟩]⟩

def blurredSymbols : SymbolSheet := ⟨"sample",[("NUL",[0x00])],[]⟩

def blurredSheet : Category → Json
  | .characters => blurredCharacters.toJson
  | .commands => blurredCommands.toJson
  | .symbols => blurredSymbols.toJson

theorem blurred_loaded : blurred.Loaded :=
  @TableDirectory.holding_loaded blurredSheet blurredCharacters blurredCommands blurredSymbols blurred
    (by decide +kernel) (by decide +kernel) (by decide +kernel) rfl

-- What such a glyph is followed by is lost.
theorem loaded_roles_blurred :
    (¬ ∀ tables : TableSet, tables.Loaded →
      ∀ byte a b, Plays tables byte a → Plays tables byte b → a = b) ∧
    encode blurred [.complex "NUL",.text "a"] = .ok [0x00,0x61,0x00] ∧
    read blurred [0x00,0x61,0x00] 0 = .ok ([],1) := by
  refine ⟨fun law => ?_,rfl,by decide +kernel⟩
  have glyph : ("NUL",[0x00]) ∈ blurred.commands.complex := List.mem_singleton_self _
  cases law blurred blurred_loaded 0x00 .terminator .complex (.terminator rfl) (.complex glyph)

end GameText.Wire
