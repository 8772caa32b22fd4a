import GameText.Proofs.Xml.Tag

namespace GameText.Xml
open Script (Identifier)

theorem after_after (content : Option Content) (first second : List Event) :
    (content.map (Content.after · second)).map (Content.after · first) =
      content.map (Content.after · (first ++ second)) := by
  cases content with
  | none => rfl
  | some found => exact congrArg some (by simp [Content.after,List.append_assoc])

-- What was added so far is covered by what was read. Named references add one
-- byte each and take more, so that no limit on growth is ever met.
def Room (place : Place) (growth : Growth) (text : List Char) : Prop :=
  growth.added + place.encoding.charset.byteCount text ≤ place.size

theorem Room.rest {place : Place} {growth : Growth} {piece rest : List Char}
    (room : Room place growth (piece ++ rest)) : Room place growth rest := by
  unfold Room at room ⊢
  rw [Charset.byteCount_append] at room
  omega

theorem Room.add {place : Place} {growth : Growth} {piece rest : List Char} (outside : place.isInside = false)
    (taken : piece ≠ []) (room : Room place growth (piece ++ rest)) :
    ∃ grown, (place.before rest).add growth 1 = some grown ∧ Room place grown rest := by
  have counted := Charset.byteCount_length place.encoding.charset piece
  have filled := List.length_pos_iff.mpr taken
  unfold Room at room ⊢
  rw [Charset.byteCount_append] at room
  refine ⟨{ growth with added := growth.added + 1 },if_pos ?_,by dsimp only; omega⟩
  simp only [Place.allows,Place.before,outside,Bool.or_eq_true,decide_eq_true_eq]
  refine .inr ?_
  simp only [Bool.false_eq_true,if_false]
  omega

-- Reading in a document without a document type.
section
variable {standalone : Bool} {place : Place} {depth level : Nat} {growth : Growth}

abbrev contentOf (standalone : Bool) (place : Place) (depth : Nat) (growth : Growth) (level : Nat)
    (text : List Char) : Option Content := content (Doctype.empty standalone place) depth growth level text

theorem content_plain {c : Char} (free : c ≠ '&' ∧ c ≠ '<' ∧ c ≠ '>' ∧ c ≠ '\r') {rest : List Char}
    (unclosed : rest.take 2 ≠ [']','>']) :
    contentOf standalone place depth growth level (c :: rest) =
      (contentOf standalone place depth growth level rest).map (Content.after · [.char c]) := by
  rw [contentOf,content,if_neg free.2.1,if_neg free.1,if_neg fun close => unclosed close.2]

theorem content_numbered {digits : List Char} {c : Char} (numbers : Numbers digits c) (legal : isLegal c = true)
    (rest : List Char) :
    contentOf standalone place depth growth level ('&' :: '#' :: (digits ++ ';' :: rest)) =
      (contentOf standalone place depth growth level rest).map (Content.after · [.char c]) := by
  have found := reference_numbered numbers legal (Doctype.empty standalone place).alphabet rest
  rw [contentOf,content,if_neg (by decide),if_pos rfl]
  split
  · rename_i missing
    cases found.symm.trans missing
  · rename_i other
    cases found.symm.trans other
    rfl
  · rename_i other
    cases found.symm.trans other

theorem content_named (outside : place.isInside = false) {word : List Char} {c : Char}
    (known : Doctype.predefined? word = some c) (identifier : Identifier word) {rest : List Char}
    (room : Room place growth ('&' :: (word ++ ';' :: rest))) :
    ∃ grown, Room place grown rest ∧
      contentOf standalone place depth growth level ('&' :: (word ++ ';' :: rest)) =
        (contentOf standalone place depth grown level rest).map (Content.after · [.char c]) := by
  have shape : '&' :: (word ++ ';' :: rest) = ('&' :: (word ++ [';'])) ++ rest := by simp
  rw [shape] at room
  obtain ⟨grown,added,room⟩ := room.add outside (List.cons_ne_nil _ _)
  refine ⟨grown,room,?_⟩
  have found := reference_named identifier (Doctype.empty standalone place).alphabet rest
  rw [contentOf,content,if_neg (by decide),if_pos rfl]
  split
  · rename_i missing
    cases found.symm.trans missing
  · rename_i other
    cases found.symm.trans other
  · rename_i other
    cases found.symm.trans other
    have added : ((Doctype.empty standalone place).before rest).place.add growth 1 = some grown := added
    simp only [known,added]
    rfl

theorem content_stands (outside : place.isInside = false) {c : Char} {piece rest : List Char} (stands : Stands c piece)
    (unclosed : rest.take 2 ≠ [']','>']) (room : Room place growth (piece ++ rest)) :
    ∃ grown, Room place grown rest ∧ contentOf standalone place depth growth level (piece ++ rest) =
      (contentOf standalone place depth grown level rest).map (Content.after · [.char c]) := by
  cases stands with
  | plain free => exact ⟨growth,room.rest,content_plain free unclosed⟩
  | named known identifier =>
    rw [List.cons_append,List.append_assoc] at room ⊢
    exact content_named outside known identifier room
  | numbered numbers legal =>
    refine ⟨growth,room.rest,?_⟩
    have read := @content_numbered standalone place depth level growth _ _ numbers legal rest
    rw [← read]
    simp

-- The written form of a text in the document.
def textPrinted (charset : Charset) (text : List Char) : List Char :=
  text.flatMap fun c => (textChar c).flatMap (printed charset)

theorem stands_head {c : Char} {piece : List Char} (stands : Stands c piece) (rest : List Char) :
    ∃ head tail, piece ++ rest = head :: tail ∧ head ≠ '>' := by
  cases stands with
  | plain free => exact ⟨c,rest,rfl,free.2.2.1⟩
  | named => exact ⟨'&',_,rfl,by decide⟩
  | numbered => exact ⟨'&',_,rfl,by decide⟩

theorem text_unclosed {charset : Charset} (standard : charset.isStandard = true) {text : List Char}
    (legal : ∀ c ∈ text, isLegal c = true) (more : List Char) :
    (textPrinted charset text ++ '<' :: more).take 2 ≠ [']','>'] := by
  have head : ∀ {text : List Char}, (∀ c ∈ text, isLegal c = true) →
      ∃ head tail, textPrinted charset text ++ '<' :: more = head :: tail ∧ head ≠ '>' := by
    intro text legal
    cases text with
    | nil => exact ⟨'<',more,rfl,by decide⟩
    | cons c rest =>
      rw [textPrinted,List.flatMap_cons,List.append_assoc]
      exact stands_head (textChar_stands standard (legal c List.mem_cons_self)) _
  cases text with
  | nil => intro same; cases same
  | cons c rest =>
    rw [List.forall_mem_cons] at legal
    obtain ⟨next,tail,shape,free⟩ := head legal.2
    have stands := textChar_stands standard legal.1
    rw [textPrinted,List.flatMap_cons,List.append_assoc]
    rw [textPrinted] at shape
    rw [shape]
    generalize (textChar c).flatMap (printed charset) = piece at stands
    cases stands with
    | plain => intro same; cases same; exact free rfl
    | named => intro same; cases same
    | numbered => intro same; cases same

theorem content_text (outside : place.isInside = false) {charset : Charset} (standard : charset.isStandard = true)
    {text : List Char} (legal : ∀ c ∈ text, isLegal c = true) {more : List Char}
    (room : Room place growth (textPrinted charset text ++ '<' :: more)) :
    ∃ grown, Room place grown ('<' :: more) ∧
      contentOf standalone place depth growth level (textPrinted charset text ++ '<' :: more) =
        (contentOf standalone place depth grown level ('<' :: more)).map (Content.after · (text.map .char)) := by
  induction text generalizing growth with
  | nil =>
    refine ⟨growth,room,?_⟩
    have none : ∀ found : Option Content, found.map (Content.after · []) = found := by
      intro found
      cases found <;> rfl
    exact (none _).symm
  | cons c rest ih =>
    rw [List.forall_mem_cons] at legal
    have shape : textPrinted charset (c :: rest) ++ '<' :: more =
        (textChar c).flatMap (printed charset) ++ (textPrinted charset rest ++ '<' :: more) := by
      rw [textPrinted,List.flatMap_cons,List.append_assoc]
      rfl
    rw [shape] at room ⊢
    obtain ⟨middle,room,first⟩ := content_stands outside (textChar_stands standard legal.1)
      (text_unclosed standard legal.2 more) room
    obtain ⟨grown,room,others⟩ := ih legal.2 room
    refine ⟨grown,room,?_⟩
    rw [first,others,after_after]
    rfl

theorem markup_identifier {doctype : Doctype} {word : List Char} (identifier : Identifier word) (rest : List Char) :
    markup doctype growth (word ++ rest) =
      (startTag doctype growth (word ++ rest)).map fun taken => (.start taken.1 taken.2.1,taken.2.2) := by
  have head : ∀ {c : Char} {tail : List Char}, word ++ rest = c :: tail → Script.isNameStart c = true := by
    intro c tail same
    cases word with
    | nil => exact absurd identifier id
    | cons first more =>
      rw [← (List.cons.inj same).1]
      exact identifier.1
  unfold markup
  split
  · rename_i same
    exact absurd (head same) (by decide)
  · rename_i same
    exact absurd (head same) (by decide)
  · rename_i same
    exact absurd (head same) (by decide)
  · rename_i same
    exact absurd (head same) (by decide)
  · rfl

theorem content_start {tag : String} (identifier : Identifier tag.toList) {attributes : List (String × String)}
    (simple : Simple attributes) {ending : List Char} {empty : Bool} (ends : Ending ending empty) (rest : List Char) :
    contentOf standalone place depth growth level
        ('<' :: (tag.toList ++ (attributes.flatMap writtenAttribute ++ (ending ++ rest)))) =
      (contentOf standalone place depth growth (if empty then level else level + 1) rest).map
        (Content.after · (StartTag.events ⟨bareName tag,attributes.map barePair,empty⟩)) := by
  have read : markup (Doctype.empty standalone place) growth
      (tag.toList ++ (attributes.flatMap writtenAttribute ++ (ending ++ rest))) =
        some (.start ⟨bareName tag,attributes.map barePair,empty⟩ growth,rest) := by
    rw [markup_identifier identifier,startTag_simple identifier simple rfl ends]
    rfl
  rw [contentOf,content,if_pos rfl]
  split <;> rename_i found <;> cases read.symm.trans found
  rfl

theorem content_finish {tag : String} (identifier : Identifier tag.toList) (open_ : 1 ≤ level) (rest : List Char) :
    contentOf standalone place depth growth (level + 1) ('<' :: '/' :: (tag.toList ++ '>' :: rest)) =
      (contentOf standalone place depth growth level rest).map (Content.after · [.finish (bareName tag)]) := by
  have read : markup (Doctype.empty standalone place) growth ('/' :: (tag.toList ++ '>' :: rest)) =
      some (.finish (bareName tag),rest) := by
    rw [markup,endTag_identifier identifier]
    rfl
  rw [contentOf,content,if_pos rfl]
  split <;> rename_i found <;> cases read.symm.trans found
  rw [if_neg (by omega)]
  rfl

theorem content_last {tag : String} (identifier : Identifier tag.toList) (rest : List Char) :
    contentOf standalone place depth growth 1 ('<' :: '/' :: (tag.toList ++ '>' :: rest)) =
      some ⟨[.finish (bareName tag)],0,growth,rest⟩ := by
  have read : markup (Doctype.empty standalone place) growth ('/' :: (tag.toList ++ '>' :: rest)) =
      some (.finish (bareName tag),rest) := by
    rw [markup,endTag_identifier identifier]
    rfl
  rw [contentOf,content,if_pos rfl]
  split <;> rename_i found <;> cases read.symm.trans found
  rw [if_pos (Nat.le_refl 1)]

end

end GameText.Xml
