import GameText.Proofs.OrderedMap
import GameText.Proofs.Tables.Character
import GameText.Proofs.Tables.Fault

namespace GameText.CharacterTable
open Outcome

-- A run of characters with the codes from one position on.
def runFrom (code : Nat → Bytes) : Nat → List Char → List (Char × Bytes)
  | _, [] => []
  | position, c :: rest => (c,code position) :: runFrom code (position + 1) rest

def rangeGlyphs (range : GlyphRange) : List (Char × Bytes) :=
  runFrom (fun n => [UInt8.ofNat n]) range.start.toNat range.chars.toList

def escapedGlyphs (range : EscapedRange) : List (Char × Bytes) :=
  runFrom (fun n => [UInt8.ofNat range.lead.toNat,UInt8.ofNat n]) range.start.toNat range.chars.toList

-- The glyphs that ranges describe, in their order.
def described (ranges : List GlyphRange) (escaped : List EscapedRange) : List (Char × Bytes) :=
  ranges.flatMap rangeGlyphs ++ escaped.flatMap escapedGlyphs

section
variable {code : Nat → Bytes}

theorem runFrom_chars (position : Nat) (chars : List Char) : (runFrom code position chars).map Prod.fst = chars := by
  induction chars generalizing position with
  | nil => rfl
  | cons c rest ih => rw [runFrom,List.map_cons,ih]

theorem mem_runFrom {position : Nat} {chars : List Char} {glyph : Char × Bytes} :
    glyph ∈ runFrom code position chars ↔ ∃ i : Nat, chars[i]? = some glyph.1 ∧ glyph.2 = code (position + i) := by
  induction chars generalizing position with
  | nil => simp [runFrom]
  | cons c rest ih =>
    rw [runFrom,List.mem_cons,ih]
    constructor
    · intro found
      rcases found with rfl | ⟨i,place,coded⟩
      · exact ⟨0,rfl,rfl⟩
      · exact ⟨i + 1,place,by rw [coded,Nat.add_assoc,Nat.add_comm 1]⟩
    · intro ⟨i,place,coded⟩
      cases i with
      | zero => exact .inl (Prod.ext (by simpa using place.symm) coded)
      | succ i => exact .inr ⟨i,place,by rw [coded,Nat.add_assoc,Nat.add_comm 1]⟩

theorem addRun_exact {overflow : TableError} {code? : Int → Option Bytes}
    (codes : ∀ n : Nat, n < 256 → code? n = some (code n)) {position : Nat} (low : position ≤ 256) {chars : List Char}
    {glyphs after : OrderedMap String Bytes} : addRun overflow code? position chars glyphs = .ok after ↔
      position + chars.length ≤ 256 ∧ after.toList = glyphs.toList ++ (runFrom code position chars).map lettered := by
  induction chars generalizing position glyphs with
  | nil =>
    simp only [addRun,runFrom,List.map_nil,List.append_nil,List.length_nil,Nat.add_zero,low,true_and,Except.ok.injEq]
    exact ⟨fun same => congrArg _ same.symm,fun same => (OrderedMap.toList_inj same).symm⟩
  | cons c rest ih =>
    have step : addRun overflow code? position (c :: rest) glyphs = .ok after ↔ position < 256 ∧
        glyphs.contains (String.singleton c) = false ∧
        addRun overflow code? (position + 1 : Nat) rest (glyphs.insert (String.singleton c) (code position)) =
          .ok after := by
      rw [addRun,unless_ok,Int.not_lt,show (position : Int) ≤ 255 ↔ position < 256 by omega]
      refine and_congr_right fun inside => ?_
      simp [codes position inside,Bool.not_eq_true]
    have whole : glyphs.toList ++ (runFrom code position (c :: rest)).map lettered =
        (glyphs.toList ++ [lettered (c,code position)]) ++ (runFrom code (position + 1) rest).map lettered := by
      rw [runFrom,List.map_cons,List.append_cons]
    rw [step,whole,List.length_cons]
    constructor
    · intro ⟨inside,absent,ran⟩
      obtain ⟨room,made⟩ := (ih (by omega)).mp ran
      rw [OrderedMap.insert_absent absent] at made
      exact ⟨by omega,made⟩
    · intro ⟨room,made⟩
      obtain ⟨middle,grown⟩ := OrderedMap.front made
      obtain ⟨absent,rfl⟩ := OrderedMap.insert_exact.mp grown
      refine ⟨by omega,absent,(ih (by omega)).mpr ⟨by omega,?_⟩⟩
      rw [made,← grown]
      rfl

end

section
variable {glyphs after : OrderedMap String Bytes}

theorem byteOf_small {n : Nat} (small : n < 256) : Bytes.byteOf? n = some (UInt8.ofNat n) := by
  rw [Bytes.byteOf?,if_pos (by omega)]
  rfl

theorem addRange_exact {range : GlyphRange} (start : IsByte range.start) : addRange glyphs range = .ok after ↔
    range.start + range.chars.toList.length ≤ 256 ∧ after.toList = glyphs.toList ++ (rangeGlyphs range).map lettered := by
  obtain ⟨low,high⟩ := start
  have added := @addRun_exact (fun n => [UInt8.ofNat n]) (.rangeOverflow range.start)
    (fun position => (Bytes.byteOf? position).map fun byte => [byte]) (fun n small => by simp [byteOf_small small])
    range.start.toNat (by omega) range.chars.toList glyphs after
  rw [Int.toNat_of_nonneg low] at added
  rw [addRange,added,rangeGlyphs,show range.start.toNat + range.chars.toList.length ≤ 256 ↔
    range.start + range.chars.toList.length ≤ 256 by omega]

theorem addEscaped_exact {range : EscapedRange} (lead : IsByte range.lead) (start : IsByte range.start) :
    addEscaped glyphs range = .ok after ↔
      range.start + range.chars.toList.length ≤ 256 ∧
        after.toList = glyphs.toList ++ (escapedGlyphs range).map lettered := by
  obtain ⟨low,high⟩ := start
  have leadByte : Bytes.byteOf? range.lead = some (UInt8.ofNat range.lead.toNat) := if_pos lead
  have added := @addRun_exact (fun n => [UInt8.ofNat range.lead.toNat,UInt8.ofNat n])
    (.escapedOverflow range.lead range.start)
    (fun position => do
      let lead ← Bytes.byteOf? range.lead
      let index ← Bytes.byteOf? position
      some [lead,index])
    (fun n small => by simp [leadByte,byteOf_small small])
    range.start.toNat (by omega) range.chars.toList glyphs after
  rw [Int.toNat_of_nonneg low] at added
  rw [addEscaped,added,escapedGlyphs,show range.start.toNat + range.chars.toList.length ≤ 256 ↔
    range.start + range.chars.toList.length ≤ 256 by omega]

theorem addRuns_exact {α : Type} {add : OrderedMap String Bytes → α → Except Fault (OrderedMap String Bytes)}
    {fits : α → Prop} {run : α → List (Char × Bytes)} {ranges : List α}
    (each : ∀ range ∈ ranges, ∀ before after, add before range = .ok after ↔
      fits range ∧ after.toList = before.toList ++ (run range).map lettered) :
    ranges.foldlM add glyphs = .ok after ↔
      (∀ range ∈ ranges, fits range) ∧ after.toList = glyphs.toList ++ (ranges.flatMap run).map lettered := by
  induction ranges generalizing glyphs with
  | nil =>
    simp only [List.foldlM_nil,List.flatMap_nil,List.map_nil,List.append_nil]
    constructor
    · intro same
      cases same
      exact ⟨List.forall_mem_nil _,rfl⟩
    · intro ⟨_,same⟩
      exact congrArg Except.ok (OrderedMap.toList_inj same).symm
  | cons range rest ih =>
    rw [List.forall_mem_cons] at each
    rw [List.foldlM_cons,bind_ok,List.forall_mem_cons,List.flatMap_cons,List.map_append,← List.append_assoc]
    constructor
    · intro ⟨middle,added,ran⟩
      obtain ⟨room,grown⟩ := (each.1 _ _).mp added
      obtain ⟨others,whole⟩ := (ih each.2).mp ran
      exact ⟨⟨room,others⟩,grown ▸ whole⟩
    · intro ⟨⟨room,others⟩,whole⟩
      obtain ⟨middle,grown⟩ := OrderedMap.front whole
      exact ⟨middle,(each.1 _ _).mpr ⟨room,grown⟩,(ih each.2).mpr ⟨others,grown ▸ whole⟩⟩

theorem singleton_injective : Function.Injective String.singleton := by
  intro c other same
  simpa using congrArg String.toList same

theorem lettered_distinct {letters : List (Char × Bytes)} :
    ((letters.map lettered).map Prod.fst).Nodup ↔ (letters.map Prod.fst).Nodup := by
  rw [List.map_map,← List.nodup_map_iff singleton_injective,List.map_map]
  rfl

theorem ofRanges_exact {id : String} {ranges : List GlyphRange} {escaped : List EscapedRange} {prefixes : List Int}
    {table : CharacterTable} (starts : ∀ range ∈ ranges, IsByte range.start)
    (leads : ∀ range ∈ escaped, IsByte range.lead ∧ IsByte range.start) :
    ofRanges id ranges escaped prefixes = .ok table ↔
      ((∀ range ∈ ranges, range.start + range.chars.toList.length ≤ 256) ∧
        ∀ range ∈ escaped, range.start + range.chars.toList.length ≤ 256) ∧
      ((described ranges escaped).map Prod.fst).Nodup ∧ ((described ranges escaped).map Prod.snd).Nodup ∧
      (∀ glyph ∈ described ranges escaped, isCoded prefixes glyph.2 = true) ∧
        table = ⟨id,described ranges escaped,prefixes.eraseDups⟩ := by
  have first := fun after => @addRuns_exact ∅ after _ addRange _ rangeGlyphs ranges
    fun range member _ _ => addRange_exact (starts range member)
  have second := fun before after => @addRuns_exact before after _ addEscaped _ escapedGlyphs escaped
    fun range member _ _ => addEscaped_exact (leads range member).1 (leads range member).2
  rw [ofRanges,bind_ok]
  constructor
  · intro ⟨middle,plain,built⟩
    obtain ⟨glyphs,escapes,made⟩ := bind_ok.mp built
    obtain ⟨room,front⟩ := (first _).mp plain
    obtain ⟨escapedRoom,whole⟩ := (second _ _).mp escapes
    rw [front,List.append_assoc,← List.map_append] at whole
    replace whole : glyphs.toList = (described ranges escaped).map lettered := whole
    obtain ⟨accepted,ran,same⟩ := bind_ok.mp (mapError_ok.mp made)
    rw [whole] at ran
    obtain ⟨codes,coded,rfl⟩ := addGlyphs_exact.mp ran
    exact ⟨⟨room,escapedRoom⟩,lettered_distinct.mp (whole ▸ glyphs.distinct),codes,coded,(Except.ok.inj same).symm⟩
  · intro ⟨⟨room,escapedRoom⟩,chars,codes,coded,made⟩
    have distinct := lettered_distinct.mpr chars
    obtain ⟨middle,front⟩ := @OrderedMap.front _ _ ⟨_,distinct⟩ _ _ (List.map_append ..)
    refine ⟨middle,(first _).mpr ⟨room,front⟩,bind_ok.mpr ⟨⟨_,distinct⟩,(second _ _).mpr ⟨escapedRoom,?_⟩,?_⟩⟩
    · rw [front,← List.map_append]
      rfl
    · exact mapError_ok.mpr (bind_ok.mpr ⟨_,addGlyphs_exact.mpr ⟨codes,coded,rfl⟩,congrArg Except.ok made.symm⟩)

theorem described_chars (ranges : List GlyphRange) (escaped : List EscapedRange) :
    (described ranges escaped).map Prod.fst = (ranges.flatMap fun range => range.chars.toList) ++
      escaped.flatMap fun range => range.chars.toList := by
  simp only [described,rangeGlyphs,escapedGlyphs,List.map_append,List.map_flatMap,runFrom_chars]

theorem place_byte {start : Int} (first : IsByte start) {length i : Nat} (room : start + length ≤ 256) (inside : i < length)
    {byte : UInt8} : UInt8.ofNat (start.toNat + i) = byte ↔ (byte.toNat : Int) = start + i := by
  obtain ⟨low,high⟩ := first
  have value : (UInt8.ofNat (start.toNat + i)).toNat = start.toNat + i :=
    UInt8.toNat_ofNat_of_lt' (by simp only [UInt8.size]; omega)
  rw [← UInt8.toNat_inj,value]
  omega

theorem lead_byte {lead : Int} (first : IsByte lead) {byte : UInt8} :
    UInt8.ofNat lead.toNat = byte ↔ (byte.toNat : Int) = lead := by
  have high := first.2
  simpa using @place_byte lead first 1 0 (by omega) Nat.one_pos byte

theorem mem_rangeGlyphs {range : GlyphRange} (start : IsByte range.start)
    (room : range.start + range.chars.toList.length ≤ 256) {c : Char} {code : Bytes} :
    (c,code) ∈ rangeGlyphs range ↔ ∃ (i : Nat) (byte : UInt8),
      range.chars.toList[i]? = some c ∧ (byte.toNat : Int) = range.start + i ∧ code = [byte] := by
  rw [rangeGlyphs,mem_runFrom]
  refine exists_congr fun i => ⟨?_,?_⟩
  · intro ⟨place,coded⟩
    obtain ⟨inside,_⟩ := List.getElem?_eq_some_iff.mp place
    exact ⟨_,place,(place_byte start room inside).mp rfl,coded⟩
  · intro ⟨byte,place,value,coded⟩
    obtain ⟨inside,_⟩ := List.getElem?_eq_some_iff.mp place
    exact ⟨place,by rw [coded,(place_byte start room inside).mpr value]⟩

theorem mem_escapedGlyphs {range : EscapedRange} (lead : IsByte range.lead) (start : IsByte range.start)
    (room : range.start + range.chars.toList.length ≤ 256) {c : Char} {code : Bytes} :
    (c,code) ∈ escapedGlyphs range ↔ ∃ (i : Nat) (first byte : UInt8), range.chars.toList[i]? = some c ∧
      (first.toNat : Int) = range.lead ∧ (byte.toNat : Int) = range.start + i ∧ code = [first,byte] := by
  rw [escapedGlyphs,mem_runFrom]
  refine exists_congr fun i => ⟨?_,?_⟩
  · intro ⟨place,coded⟩
    obtain ⟨inside,_⟩ := List.getElem?_eq_some_iff.mp place
    exact ⟨_,_,place,(lead_byte lead).mp rfl,(place_byte start room inside).mp rfl,coded⟩
  · intro ⟨first,byte,place,page,value,coded⟩
    obtain ⟨inside,_⟩ := List.getElem?_eq_some_iff.mp place
    exact ⟨place,by rw [coded,(lead_byte lead).mpr page,(place_byte start room inside).mpr value]⟩

-- What has to hold of ranges for a table. The prefix of a range is looked at with each of its
-- characters, so that a range without characters may have any.
structure Sound (ranges : List GlyphRange) (escaped : List EscapedRange) (prefixes : List Int) : Prop where
  chars : ((ranges.flatMap fun range => range.chars.toList) ++ escaped.flatMap fun range => range.chars.toList).Nodup
  room : ∀ range ∈ ranges, range.start + range.chars.toList.length ≤ 256
  escapedRoom : ∀ range ∈ escaped, range.start + range.chars.toList.length ≤ 256
  codes : ((described ranges escaped).map Prod.snd).Nodup
  plain : ∀ range ∈ ranges, ∀ i : Nat, i < range.chars.toList.length → range.start + i ∉ prefixes
  led : ∀ range ∈ escaped, range.chars ≠ "" → range.lead ∈ prefixes

-- A table in which the characters of ranges and their codes stand for each other.
structure Renders (table : CharacterTable) (ranges : List GlyphRange) (escaped : List EscapedRange) : Prop where
  plain : ∀ range ∈ ranges, ∀ (i : Nat) (c : Char), range.chars.toList[i]? = some c →
    ∃ byte : UInt8, (byte.toNat : Int) = range.start + i ∧ table.encodeChar? c = some [byte]
  led : ∀ range ∈ escaped, ∀ (i : Nat) (c : Char), range.chars.toList[i]? = some c → ∃ first byte : UInt8,
    (first.toNat : Int) = range.lead ∧ (byte.toNat : Int) = range.start + i ∧ table.encodeChar? c = some [first,byte]
  chars : ∀ c, (∃ code, table.encodeChar? c = some code) ↔
    (∃ range ∈ ranges, c ∈ range.chars.toList) ∨ ∃ range ∈ escaped, c ∈ range.chars.toList
  inverse : ∀ c code, table.encodeChar? c = some code ↔ table.decodeCode? code = some c
  codes : ∀ code, table.hasCode code = true ↔ ∃ c, table.encodeChar? c = some code
  texts : ∀ text code, table.encodeText? text = some code ↔
    ∃ c, text = String.singleton c ∧ table.encodeChar? c = some code

theorem rangeGlyphs_coded {prefixes : List Int} {range : GlyphRange} (start : IsByte range.start)
    (room : range.start + range.chars.toList.length ≤ 256) : (∀ glyph ∈ rangeGlyphs range, isCoded prefixes glyph.2 = true) ↔
      ∀ i : Nat, i < range.chars.toList.length → range.start + i ∉ prefixes := by
  constructor
  · intro coded i inside unfit
    obtain ⟨byte,value⟩ : ∃ byte : UInt8, (byte.toNat : Int) = range.start + i := ⟨_,(place_byte start room inside).mp rfl⟩
    have glyph := (mem_rangeGlyphs start room).mpr ⟨i,byte,List.getElem?_eq_getElem inside,value,rfl⟩
    simpa [isCoded,value,unfit] using coded _ glyph
  · intro free glyph member
    obtain ⟨c,code⟩ := glyph
    obtain ⟨i,byte,place,value,rfl⟩ := (mem_rangeGlyphs start room).mp member
    obtain ⟨inside,_⟩ := List.getElem?_eq_some_iff.mp place
    simpa [isCoded,value] using free i inside

theorem escapedGlyphs_coded {prefixes : List Int} {range : EscapedRange} (lead : IsByte range.lead)
    (start : IsByte range.start) (room : range.start + range.chars.toList.length ≤ 256) :
    (∀ glyph ∈ escapedGlyphs range, isCoded prefixes glyph.2 = true) ↔ (range.chars ≠ "" → range.lead ∈ prefixes) := by
  constructor
  · intro coded filled
    have inside : 0 < range.chars.toList.length := List.length_pos_iff.mpr (by simpa using filled)
    obtain ⟨first,page⟩ : ∃ first : UInt8, (first.toNat : Int) = range.lead := ⟨_,(lead_byte lead).mp rfl⟩
    have glyph := (mem_escapedGlyphs lead start room).mpr
      ⟨0,first,_,List.getElem?_eq_getElem inside,page,(place_byte start room inside).mp rfl,rfl⟩
    simpa [isCoded,page] using coded _ glyph
  · intro known glyph member
    obtain ⟨c,code⟩ := glyph
    obtain ⟨i,first,byte,place,page,_,rfl⟩ := (mem_escapedGlyphs lead start room).mp member
    have filled : range.chars ≠ "" := by
      intro empty
      simp [empty] at place
    simpa [isCoded,page] using known filled

theorem described_coded {ranges : List GlyphRange} {escaped : List EscapedRange} {prefixes : List Int}
    (starts : ∀ range ∈ ranges, IsByte range.start) (leads : ∀ range ∈ escaped, IsByte range.lead ∧ IsByte range.start)
    (room : ∀ range ∈ ranges, range.start + range.chars.toList.length ≤ 256)
    (escapedRoom : ∀ range ∈ escaped, range.start + range.chars.toList.length ≤ 256) :
    (∀ glyph ∈ described ranges escaped, isCoded prefixes glyph.2 = true) ↔
      (∀ range ∈ ranges, ∀ i : Nat, i < range.chars.toList.length → range.start + i ∉ prefixes) ∧
        ∀ range ∈ escaped, range.chars ≠ "" → range.lead ∈ prefixes := by
  rw [described,List.forall_mem_append,List.forall_mem_flatMap,List.forall_mem_flatMap]
  refine and_congr (forall₂_congr fun range member => ?_) (forall₂_congr fun range member => ?_)
  · exact rangeGlyphs_coded (starts range member) (room range member)
  · exact escapedGlyphs_coded (leads range member).1 (leads range member).2 (escapedRoom range member)

section
variable {id : String} {ranges : List GlyphRange} {escaped : List EscapedRange} {prefixes : List Int}
  {table : CharacterTable} (starts : ∀ range ∈ ranges, IsByte range.start)
  (leads : ∀ range ∈ escaped, IsByte range.lead ∧ IsByte range.start)
include starts leads

theorem ofRanges_sound : ofRanges id ranges escaped prefixes = .ok table ↔
    Sound ranges escaped prefixes ∧ table = ⟨id,described ranges escaped,prefixes.eraseDups⟩ := by
  rw [ofRanges_exact starts leads,described_chars]
  constructor
  · intro ⟨⟨room,escapedRoom⟩,chars,codes,coded,made⟩
    obtain ⟨plain,led⟩ := (described_coded starts leads room escapedRoom).mp coded
    exact ⟨⟨chars,room,escapedRoom,codes,plain,led⟩,made⟩
  · intro ⟨⟨chars,room,escapedRoom,codes,plain,led⟩,made⟩
    exact ⟨⟨room,escapedRoom⟩,chars,codes,(described_coded starts leads room escapedRoom).mpr ⟨plain,led⟩,made⟩

theorem ofRanges_renders (built : ofRanges id ranges escaped prefixes = .ok table) : table.Renders ranges escaped := by
  obtain ⟨⟨room,escapedRoom⟩,chars,codes,coded,rfl⟩ := (ofRanges_exact starts leads).mp built
  have consistent : Consistent ⟨id,described ranges escaped,prefixes.eraseDups⟩ :=
    ⟨chars,codes,fun glyph member => coded_form (coded glyph member)⟩
  refine ⟨?_,?_,?_,fun _ _ => consistent.encodes.trans consistent.decodes.symm,?_,fun _ _ => encodeText_exact⟩
  · intro range member i c place
    obtain ⟨inside,_⟩ := List.getElem?_eq_some_iff.mp place
    have value := (place_byte (starts range member) (room range member) inside).mp rfl
    have glyph := (mem_rangeGlyphs (starts range member) (room range member)).mpr ⟨i,_,place,value,rfl⟩
    exact ⟨_,value,consistent.encodes.mpr (List.mem_append_left _ (List.mem_flatMap.mpr ⟨range,member,glyph⟩))⟩
  · intro range member i c place
    obtain ⟨lead,start⟩ := leads range member
    obtain ⟨inside,_⟩ := List.getElem?_eq_some_iff.mp place
    have page := (lead_byte lead).mp rfl
    have value := (place_byte start (escapedRoom range member) inside).mp rfl
    have glyph := (mem_escapedGlyphs lead start (escapedRoom range member)).mpr ⟨i,_,_,place,page,value,rfl⟩
    exact ⟨_,_,page,value,consistent.encodes.mpr (List.mem_append_right _ (List.mem_flatMap.mpr ⟨range,member,glyph⟩))⟩
  · intro c
    have known : (∃ code, (c,code) ∈ described ranges escaped) ↔ c ∈ (described ranges escaped).map Prod.fst := by simp
    simp only [consistent.encodes,known,described_chars,List.mem_append,List.mem_flatMap]
  · intro code
    simp only [hasCode,Option.isSome_iff_exists,consistent.decodes,consistent.encodes]

-- Ranges of bytes become a table of their characters and codes, or are an error of the tables.
theorem ofRanges_answers : ((∃ table, ofRanges id ranges escaped prefixes = .ok table) ↔ Sound ranges escaped prefixes) ∧
    (∀ table, ofRanges id ranges escaped prefixes = .ok table → table.Renders ranges escaped) ∧
    (¬ Sound ranges escaped prefixes → ∃ error, ofRanges id ranges escaped prefixes = .error (.table error)) := by
  have built : (∃ table, ofRanges id ranges escaped prefixes = .ok table) ↔ Sound ranges escaped prefixes :=
    ⟨fun ⟨_,made⟩ => ((ofRanges_sound starts leads).mp made).1,fun sound => ⟨_,(ofRanges_sound starts leads).mpr ⟨sound,rfl⟩⟩⟩
  refine ⟨built,fun _ => ofRanges_renders starts leads,fun unsound => ?_⟩
  cases made : ofRanges id ranges escaped prefixes with
  | ok table => exact absurd (built.mp ⟨table,made⟩) unsound
  | error fault =>
    have formed : CharacterSheet.Formed ⟨id,prefixes,ranges,escaped⟩ := ⟨starts,leads⟩
    obtain ⟨error,rfl⟩ := CharacterSheet.build_fails formed fault made
    exact ⟨error,rfl⟩

end

theorem ofRanges_answers_sample :
    (∃ table, ofRanges "sample" [⟨0x41,"AB"⟩] [⟨0x19,0xFF,"é"⟩] [0x19] = .ok table ∧
      table.Renders [⟨0x41,"AB"⟩] [⟨0x19,0xFF,"é"⟩]) ∧
    ∃ error, ofRanges "sample" [⟨0x41,"AB"⟩] [⟨0x19,0xFF,"é"⟩] [] = .error (.table error) := by
  have starts : ∀ range ∈ [(⟨0x41,"AB"⟩ : GlyphRange)], IsByte range.start := by decide
  have leads : ∀ range ∈ [(⟨0x19,0xFF,"é"⟩ : EscapedRange)], IsByte range.lead ∧ IsByte range.start := by decide
  have sound : Sound [⟨0x41,"AB"⟩] [⟨0x19,0xFF,"é"⟩] [0x19] :=
    ⟨by decide +kernel,by decide +kernel,by decide +kernel,by decide +kernel,by decide +kernel,by decide +kernel⟩
  have unsound : ¬ Sound [⟨0x41,"AB"⟩] [⟨0x19,0xFF,"é"⟩] [] := fun sound => by
    have known := sound.led ⟨0x19,0xFF,"é"⟩ (List.mem_singleton.mpr rfl) (by decide)
    cases known
  obtain ⟨accepted,renders,_⟩ := @ofRanges_answers "sample" _ _ [0x19] starts leads
  obtain ⟨table,built⟩ := accepted.mpr sound
  exact ⟨⟨table,built,renders table built⟩,(ofRanges_answers starts leads).2.2 unsound⟩

-- A range without characters needs no prefix.
theorem ofRanges_unled : ¬ ∀ (id : String) (ranges : List GlyphRange) (escaped : List EscapedRange) (prefixes : List Int),
    (∀ range ∈ ranges, IsByte range.start) → (∀ range ∈ escaped, IsByte range.lead ∧ IsByte range.start) →
      (∀ byte ∈ prefixes, IsByte byte) → ((∃ table, ofRanges id ranges escaped prefixes = .ok table) ↔
        Sound ranges escaped prefixes ∧ ∀ range ∈ escaped, range.lead ∈ prefixes) := by
  intro law
  have led := ((law "sample" [⟨0x61,"a"⟩] [⟨0x19,0x00,""⟩] [] (by decide) (by decide) (by decide)).mp ⟨_,rfl⟩).2
  cases led _ (List.mem_singleton.mpr rfl)

end
end GameText.CharacterTable
