import GameText.Proofs.Outcome
import GameText.Proofs.Tables.Lookup
import GameText.Tables.Character

namespace GameText.CharacterTable
open Outcome Lookup

def CodeForm (table : CharacterTable) : Bytes → Prop
  | [byte] => table.isPrefix byte.toNat = false
  | [lead,_] => table.isPrefix lead.toNat = true
  | _ => False

-- What the checks of the glyphs leave true of a character table.
structure Consistent (table : CharacterTable) : Prop where
  chars : (table.glyphs.map Prod.fst).Nodup
  codes : (table.glyphs.map Prod.snd).Nodup
  form : ∀ glyph ∈ table.glyphs, table.CodeForm glyph.2

theorem codeLength_cases (table : CharacterTable) (first : Int) :
    table.codeLength first = 1 ∨ table.codeLength first = 2 := by
  unfold codeLength
  split
  · exact .inr rfl
  · exact .inl rfl

-- A glyph as it is given, under a text of its own character.
def lettered (glyph : Char × Bytes) : String × Bytes := (String.singleton glyph.1,glyph.2)

def isCoded (prefixes : List Int) : Bytes → Bool
  | [byte] => !prefixes.contains (byte.toNat : Int)
  | [lead,_] => prefixes.contains (lead.toNat : Int)
  | _ => false

theorem checkCode_exact {prefixes : List Int} {text : String} {code : Bytes} :
    checkCode prefixes text code = .ok () ↔ isCoded prefixes code = true := by
  match code with
  | [] => simp [checkCode,isCoded]
  | [byte] => simp [checkCode,isCoded]
  | [lead,_] => simp [checkCode,isCoded]
  | _ :: _ :: _ :: _ => simp [checkCode,isCoded]

theorem coded_form {id : String} {glyphs : List (Char × Bytes)} {prefixes : List Int} {code : Bytes}
    (coded : isCoded prefixes code = true) : CodeForm ⟨id,glyphs,prefixes.eraseDups⟩ code := by
  match code with
  | [byte] => simpa [isCoded,CodeForm,isPrefix] using coded
  | [lead,_] => simpa [isCoded,CodeForm,isPrefix] using coded

theorem addGlyph_exact {prefixes : List Int} {before after : List (Char × Bytes)} {glyph : Char × Bytes} :
    addGlyph prefixes before (lettered glyph) = .ok after ↔
      (∀ other ∈ before, other.2 ≠ glyph.2) ∧ isCoded prefixes glyph.2 = true ∧ after = before ++ [glyph] := by
  obtain ⟨c,code⟩ := glyph
  simp only [addGlyph,lettered,String.toList_singleton]
  rw [bind_ok]
  constructor
  · intro ⟨_,checked,added⟩
    split at added
    · cases added
    · rename_i free
      cases added
      exact ⟨find_none free,checkCode_exact.mp checked,rfl⟩
  · intro ⟨free,coded,made⟩
    refine ⟨(),checkCode_exact.mpr coded,?_⟩
    split
    · rename_i found
      obtain ⟨member,same⟩ := find_key found
      exact absurd same (free _ member)
    · rw [made]

theorem addGlyphs_exact {prefixes : List Int} {glyphs accepted : List (Char × Bytes)} :
    (glyphs.map lettered).foldlM (addGlyph prefixes) [] = .ok accepted ↔
      (glyphs.map Prod.snd).Nodup ∧ (∀ glyph ∈ glyphs, isCoded prefixes glyph.2 = true) ∧ accepted = glyphs := by
  rw [List.foldlM_map,fold_checks (fun _ _ _ => addGlyph_exact) .nil,List.nil_append,List.Nodup,List.pairwise_map]

theorem singleton_of_toList {text : String} {c : Char} (single : text.toList = [c]) :
    text = String.singleton c := by
  rw [← String.toList_inj,single,String.toList_singleton]

theorem glyphs_lettered {prefixes : List Int} {glyphs : List (String × Bytes)} {before after : List (Char × Bytes)}
    (ran : glyphs.foldlM (addGlyph prefixes) before = .ok after) : ∃ letters : List (Char × Bytes), glyphs = letters.map lettered := by
  induction glyphs generalizing before with
  | nil => exact ⟨[],rfl⟩
  | cons glyph rest ih =>
    rw [List.foldlM_cons,bind_ok] at ran
    obtain ⟨middle,stepped,ran⟩ := ran
    obtain ⟨letters,rfl⟩ := ih ran
    unfold addGlyph at stepped
    split at stepped
    · rename_i c single
      refine ⟨(c,glyph.2) :: letters,?_⟩
      rw [List.map_cons,lettered,← singleton_of_toList single]
    · cases stepped

theorem ofGlyphs_exact {id : String} {glyphs : OrderedMap String Bytes} {prefixes : List Int} {table : CharacterTable} :
    ofGlyphs id glyphs prefixes = .ok table ↔ ∃ letters, glyphs.toList = letters.map lettered ∧
      (letters.map Prod.snd).Nodup ∧ (∀ glyph ∈ letters, isCoded prefixes glyph.2 = true) ∧
        table = ⟨id,letters,prefixes.eraseDups⟩ := by
  rw [ofGlyphs,bind_ok]
  constructor
  · intro ⟨accepted,ran,made⟩
    cases made
    obtain ⟨letters,source⟩ := glyphs_lettered ran
    rw [source] at ran
    obtain ⟨codes,coded,rfl⟩ := addGlyphs_exact.mp ran
    exact ⟨accepted,source,codes,coded,rfl⟩
  · intro ⟨letters,source,codes,coded,made⟩
    exact ⟨letters,by rw [source]; exact addGlyphs_exact.mpr ⟨codes,coded,rfl⟩,congrArg Except.ok made.symm⟩

theorem ofGlyphs_consistent {id : String} {glyphs : OrderedMap String Bytes} {prefixes : List Int}
    {table : CharacterTable} (built : ofGlyphs id glyphs prefixes = .ok table) : table.Consistent := by
  obtain ⟨letters,source,codes,coded,rfl⟩ := ofGlyphs_exact.mp built
  refine ⟨?_,codes,fun glyph member => coded_form (coded glyph member)⟩
  have distinct := glyphs.distinct
  rw [source,List.map_map] at distinct
  have chars : (letters.map Prod.fst).map String.singleton = letters.map (Prod.fst ∘ lettered) := by
    rw [List.map_map]; rfl
  exact List.Nodup.of_map String.singleton (chars ▸ distinct)

section
variable {table : CharacterTable}

theorem encodeChar_mem {c : Char} {code : Bytes} (found : table.encodeChar? c = some code) :
    (c,code) ∈ table.glyphs := by
  obtain ⟨glyph,search,rfl⟩ := Option.map_eq_some_iff.mp found
  obtain ⟨member,rfl⟩ := find_key search
  exact member

theorem decodeCode_mem {c : Char} {code : Bytes} (found : table.decodeCode? code = some c) :
    (c,code) ∈ table.glyphs := by
  obtain ⟨glyph,search,rfl⟩ := Option.map_eq_some_iff.mp found
  obtain ⟨member,rfl⟩ := find_key search
  exact member

theorem Consistent.encodeChar (consistent : table.Consistent) {c : Char} {code : Bytes}
    (member : (c,code) ∈ table.glyphs) : table.encodeChar? c = some code := by
  rw [encodeChar?,find_mem consistent.chars member]; rfl

theorem Consistent.decodeCode (consistent : table.Consistent) {c : Char} {code : Bytes}
    (member : (c,code) ∈ table.glyphs) : table.decodeCode? code = some c := by
  rw [decodeCode?,find_mem consistent.codes member]; rfl

theorem Consistent.encodes (consistent : table.Consistent) {c : Char} {code : Bytes} :
    table.encodeChar? c = some code ↔ (c,code) ∈ table.glyphs := ⟨encodeChar_mem,consistent.encodeChar⟩

theorem Consistent.decodes (consistent : table.Consistent) {c : Char} {code : Bytes} :
    table.decodeCode? code = some c ↔ (c,code) ∈ table.glyphs := ⟨decodeCode_mem,consistent.decodeCode⟩

theorem encodeText_exact {text : String} {code : Bytes} : table.encodeText? text = some code ↔
    ∃ c, text = String.singleton c ∧ table.encodeChar? c = some code := by
  constructor
  · intro found
    unfold encodeText? at found
    split at found
    · rename_i c single
      exact ⟨c,singleton_of_toList single,found⟩
    · cases found
  · intro ⟨c,single,found⟩
    rw [single,encodeText?,String.toList_singleton]
    exact found

theorem hasCode_mem {c : Char} {code : Bytes} (member : (c,code) ∈ table.glyphs) : table.hasCode code = true := by
  rw [hasCode,decodeCode?,Option.isSome_map,List.find?_isSome]
  exact ⟨(c,code),member,by simp⟩

theorem decodeCode_none {code : Bytes} (free : table.hasCode code = false) : table.decodeCode? code = none := by
  simpa [hasCode] using free

end
end GameText.CharacterTable
