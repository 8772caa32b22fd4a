import GameText.Proofs.Xml.Lexeme
import GameText.Xml.Read

namespace GameText.Xml
open Script (Identifier cut_exact)

-- Values of attributes that are written as they are: visible ASCII characters
-- that no reader takes for markup.
def isSolid (c : Char) : Bool :=
  0x20 < c.toNat && c.toNat < 0x7F && c ≠ '&' && c ≠ '<' && c ≠ '>' && c ≠ '\x22'

def Solid (value : List Char) : Prop := ∀ c ∈ value, isSolid c = true

instance : DecidablePred Solid := fun value => List.decidableBAll _ value

-- Attributes with plain names and values, none of which declares a namespace.
structure Simple (attributes : List (String × String)) : Prop where
  names : ∀ pair ∈ attributes, Identifier pair.1.toList ∧ pair.1.toList ≠ declarationLead
  values : ∀ pair ∈ attributes, Solid pair.2.toList
  distinct : (attributes.map Prod.fst).Nodup

theorem Simple.tail {pair : String × String} {rest : List (String × String)} (simple : Simple (pair :: rest)) :
    Simple rest :=
  ⟨fun other member => simple.names other (List.mem_cons_of_mem _ member),
    fun other member => simple.values other (List.mem_cons_of_mem _ member),(List.nodup_cons.mp simple.distinct).2⟩

def bareName (name : String) : Name := ⟨none,name.toList⟩

def barePair (pair : String × String) : Name × List Char := (bareName pair.1,pair.2.toList)

theorem solid_facts {c : Char} (solid : isSolid c = true) :
    (0x20 < c.toNat ∧ c.toNat < 0x7F) ∧ c ≠ '&' ∧ c ≠ '<' ∧ c ≠ '>' ∧ c ≠ '\x22' := by
  simpa [isSolid,and_assoc] using solid

theorem solid_nonblank {c : Char} (solid : isSolid c = true) : isBlank c = false := by
  have range := (solid_facts solid).1
  unfold isBlank
  simp only [Bool.or_eq_false_iff,decide_eq_false_iff_not]
  refine ⟨⟨⟨?_,?_⟩,?_⟩,?_⟩ <;> rintro rfl <;> exact absurd range (by decide)

theorem unchanged_solid {value : List Char} (solid : Solid value) : Unchanged value := by
  intro c member
  have range := (solid_facts (solid c member)).1
  refine ⟨by omega,?_⟩
  rintro rfl
  exact absurd range (by decide)

theorem attributeChar_solid {c : Char} (solid : isSolid c = true) : attributeChar c = [c] := by
  obtain ⟨_,ampersand,opening,closing,quote⟩ := solid_facts solid
  have blank : c ≠ '\r' ∧ c ≠ '\n' ∧ c ≠ '\t' := by
    have none := solid_nonblank solid
    refine ⟨?_,?_,?_⟩ <;> rintro rfl <;> exact absurd none (by decide)
  rw [attributeChar,if_neg ampersand,if_neg opening,if_neg closing,if_neg quote,if_neg blank.1,if_neg blank.2.1,
    if_neg blank.2.2]

theorem writtenAttribute_solid {pair : String × String} (solid : Solid pair.2.toList) :
    writtenAttribute pair = ' ' :: (pair.1.toList ++ '=' :: '\x22' :: (pair.2.toList ++ ['\x22'])) := by
  have value : pair.2.toList.flatMap attributeChar = pair.2.toList :=
    (List.flatMap_congr fun c member => attributeChar_solid (solid c member)).trans (List.flatMap_singleton' _)
  simp [writtenAttribute,value]

theorem unchanged_attributes {attributes : List (String × String)} (simple : Simple attributes) :
    Unchanged (attributes.flatMap writtenAttribute) := by
  intro c member
  obtain ⟨pair,inside,part⟩ := List.mem_flatMap.mp member
  rw [writtenAttribute_solid (simple.values pair inside)] at part
  have marks : Unchanged [' ','=','\x22'] := by decide
  simp only [List.mem_cons,List.mem_append,List.not_mem_nil,or_false] at part
  rcases part with rfl | name | rfl | rfl | value | rfl
  · exact marks _ (by decide)
  · exact unchanged_identifier (simple.names pair inside).1 c name
  · exact marks _ (by decide)
  · exact marks _ (by decide)
  · exact unchanged_solid (simple.values pair inside) c value
  · exact marks _ (by decide)

theorem literal_solid {value : List Char} (solid : Solid value) (rest : List Char) :
    literal ('\x22' :: (value ++ '\x22' :: rest)) = some (value,rest) := by
  obtain ⟨front,back⟩ := (@cut_exact (fun c => c ≠ '\x22') _ value rest '\x22').mpr
    ⟨rfl,fun c member => decide_eq_true (solid_facts (solid c member)).2.2.2.2,by decide⟩
  rw [literal,if_pos (.inl rfl)]
  simp only [front,back]

theorem attributePair_solid {word value : List Char} (identifier : Identifier word) (solid : Solid value)
    (alphabet : Alphabet) (rest : List Char) :
    attributePair alphabet (word ++ '=' :: '\x22' :: (value ++ '\x22' :: rest)) = some ((⟨none,word⟩,value),rest) := by
  rw [attributePair,name_identifier identifier (by decide)]
  have equals : skipBlank ('=' :: '\x22' :: (value ++ '\x22' :: rest)) = '=' :: '\x22' :: (value ++ '\x22' :: rest) := rfl
  have quote : skipBlank ('\x22' :: (value ++ '\x22' :: rest)) = '\x22' :: (value ++ '\x22' :: rest) := rfl
  simp only [equals,quote,literal_solid solid]

-- The two ends of a start tag, and what they say.
inductive Ending : List Char → Bool → Prop where
  | more : Ending ['>'] false
  | empty : Ending [' ','/','>'] true

theorem blank_identifier {word : List Char} (identifier : Identifier word) (rest : List Char) :
    tagEnd? (' ' :: (word ++ rest)) = none ∧ blank (' ' :: (word ++ rest)) = some (word ++ rest) ∧
      tagEnd? (word ++ rest) = none := by
  cases word with
  | nil => exact absurd identifier id
  | cons head tail =>
    have range := nameChar_range (identifier.chars head List.mem_cons_self)
    have solid : isBlank head = false ∧ head ≠ '>' ∧ head ≠ '/' := by
      refine ⟨?_,?_,?_⟩
      · rw [Bool.eq_false_iff]
        intro blank
        have cases : ((head = ' ' ∨ head = '\t') ∨ head = '\n') ∨ head = '\r' := by simpa [isBlank] using blank
        rcases cases with ((rfl | rfl) | rfl) | rfl <;> exact absurd range.1 (by decide)
      · rintro rfl
        exact absurd identifier.1 (by decide)
      · rintro rfl
        exact absurd range.1 (by decide)
    refine ⟨rfl,?_,?_⟩
    · rw [List.cons_append,blank,if_pos (by decide),skipBlank,List.dropWhile_cons_of_neg (by simp [solid.1])]
    · unfold tagEnd?
      split
      · rename_i same
        exact absurd (List.cons.inj same).1 solid.2.1
      · rename_i same
        exact absurd (List.cons.inj same).1 solid.2.2
      · rfl

theorem attributePairs_ended {alphabet : Alphabet} {text inside after : List Char} {empty : Bool}
    (going : tagEnd? text = none) (spaced : blank text = some inside) (ended : tagEnd? inside = some (empty,after)) :
    attributePairs alphabet text = some ([],empty,after) := by
  rw [attributePairs,going]
  simp only
  split
  · rename_i missing
    cases spaced.symm.trans missing
  · rename_i again
    cases spaced.symm.trans again
    rw [ended]

theorem attributePairs_pair {alphabet : Alphabet} {text inside after : List Char} {pair : Name × List Char}
    (going : tagEnd? text = none) (spaced : blank text = some inside) (more : tagEnd? inside = none)
    (taken : attributePair alphabet inside = some (pair,after)) :
    attributePairs alphabet text = (attributePairs alphabet after).map fun rest => (pair :: rest.1,rest.2) := by
  rw [attributePairs,going]
  simp only
  split
  · rename_i missing
    cases spaced.symm.trans missing
  · rename_i again
    cases spaced.symm.trans again
    rw [more]
    simp only
    split
    · rename_i missing
      cases taken.symm.trans missing
    · rename_i other
      cases taken.symm.trans other
      rfl

theorem attributePairs_simple {attributes : List (String × String)} (simple : Simple attributes)
    {ending : List Char} {empty : Bool} (ends : Ending ending empty) (alphabet : Alphabet) (rest : List Char) :
    attributePairs alphabet (attributes.flatMap writtenAttribute ++ (ending ++ rest)) =
      some (attributes.map barePair,empty,rest) := by
  induction attributes with
  | nil =>
    cases ends with
    | more => rw [attributePairs]; rfl
    | empty => exact @attributePairs_ended _ _ ('/' :: '>' :: rest) _ _ rfl rfl rfl
  | cons pair others ih =>
    have identifier := (simple.names pair List.mem_cons_self).1
    have solid := simple.values pair List.mem_cons_self
    have shape : (pair :: others).flatMap writtenAttribute ++ (ending ++ rest) =
        ' ' :: (pair.1.toList ++ '=' :: '\x22' :: (pair.2.toList ++ '\x22' ::
          (others.flatMap writtenAttribute ++ (ending ++ rest)))) := by
      simp [List.flatMap_cons,writtenAttribute_solid solid]
    obtain ⟨going,spaced,more⟩ := blank_identifier identifier
      ('=' :: '\x22' :: (pair.2.toList ++ '\x22' :: (others.flatMap writtenAttribute ++ (ending ++ rest))))
    rw [shape,attributePairs_pair going spaced more (attributePair_solid identifier solid alphabet _),ih simple.tail]
    rfl

-- Solid values are taken as they stand, and nothing counts for growth.
section
variable {doctype : Doctype} {growth : Growth}

theorem isReread_solid {value : List Char} (solid : Solid value) : isReread value = false := by
  have spaceless : ∀ c ∈ value, c ≠ ' ' := by
    rintro c member rfl
    exact absurd (solid_nonblank (solid ' ' member)) (by decide)
  have collapsed : collapse value = value := by
    clear solid
    induction value with
    | nil => rfl
    | cons c rest ih =>
      rw [List.forall_mem_cons] at spaceless
      rw [collapse,ih spaceless.2]
      exact if_neg fun blank => spaceless.1 blank.1
  have tokens : tokenized value = value := by
    rw [tokenized,collapsed]
    cases value with
    | nil => rfl
    | cons c rest => exact List.dropWhile_cons_of_neg (by simpa using spaceless c List.mem_cons_self)
  rw [isReread,tokens]
  simp only [ne_eq,not_true_eq_false,decide_false,Bool.or_false]
  rw [List.any_eq_false]
  intro c member
  simp [(solid_facts (solid c member)).2.1,solid_nonblank (solid c member)]

theorem attributeChars_solid {value : List Char} (solid : Solid value) (depth : Nat) :
    attributeChars doctype depth growth value = some (value,growth) := by
  induction value with
  | nil => rw [attributeChars]
  | cons c rest ih =>
    have facts := solid_facts (solid c List.mem_cons_self)
    have nonblank := solid_nonblank (solid c List.mem_cons_self)
    rw [attributeChars,if_neg facts.2.1,if_neg facts.2.2.1,
      ih fun other member => solid other (List.mem_cons_of_mem _ member),nonblank]
    rfl

theorem attributeValues_simple {attributes : List (String × String)} (simple : Simple attributes)
    (plain : doctype.rules = []) (element : Name) (empty : Bool) :
    attributeValues doctype element empty growth (attributes.map barePair) =
      some (attributes.map barePair,growth) := by
  induction attributes with
  | nil => rfl
  | cons pair rest ih =>
    have solid := simple.values pair List.mem_cons_self
    have isPlain : doctype.isPlain element (bareName pair.1) = true := by
      rw [Doctype.isPlain,plain]
      rfl
    have value : attributeValue doctype true growth pair.2.toList = some (pair.2.toList,growth) := by
      rw [attributeValue,attributeChars_solid solid]
      rfl
    rw [List.map_cons,barePair,attributeValues,isReread_solid solid,isPlain]
    simp only [Bool.false_and,Bool.false_eq_true,if_false,Option.bind_eq_bind,Option.bind_some,value,ih simple.tail]

theorem eraseDups_distinct {α : Type} [BEq α] [LawfulBEq α] {items : List α} (distinct : items.Nodup) :
    items.eraseDups = items := by
  induction items with
  | nil => rfl
  | cons item rest ih =>
    rw [List.nodup_cons] at distinct
    have kept : rest.filter (fun other => !other == item) = rest := by
      rw [List.filter_eq_self]
      rintro other member
      have apart : other ≠ item := fun same => distinct.1 (same ▸ member)
      simpa using apart
    rw [List.eraseDups_cons,kept,ih distinct.2]

theorem bareName_injective : Function.Injective bareName := by
  intro a b same
  exact String.toList_inj.mp (Name.mk.inj same).2

theorem Simple.bare_distinct {attributes : List (String × String)} (simple : Simple attributes) :
    ((attributes.map barePair).map Prod.fst).Nodup := by
  have same : (attributes.map barePair).map Prod.fst = (attributes.map Prod.fst).map bareName := by
    rw [List.map_map,List.map_map]
    rfl
  rw [same]
  exact simple.distinct.map bareName_injective

theorem resolveValues_simple {attributes : List (String × String)} (simple : Simple attributes)
    (plain : doctype.rules = []) (element : Name) (empty : Bool) :
    resolveValues doctype element empty growth (attributes.map barePair) =
      some (attributes.map barePair,growth) := by
  have defaults : doctype.defaults element = [] := by
    rw [Doctype.defaults,plain]
    rfl
  simp only [resolveValues,attributeValues_simple simple plain,Option.bind_eq_bind,Option.bind_some,
    eraseDups_distinct simple.bare_distinct,if_true,defaults,List.filter_nil,List.append_nil]

theorem startTag_simple {tag : String} (identifier : Identifier tag.toList) {attributes : List (String × String)}
    (simple : Simple attributes) (plain : doctype.rules = []) {ending : List Char} {empty : Bool}
    (ends : Ending ending empty) (rest : List Char) :
    startTag doctype growth (tag.toList ++ (attributes.flatMap writtenAttribute ++ (ending ++ rest))) =
      some (⟨bareName tag,attributes.map barePair,empty⟩,growth,rest) := by
  have stop : ∃ c more, isStop c = true ∧ attributes.flatMap writtenAttribute ++ (ending ++ rest) = c :: more := by
    cases attributes with
    | nil => cases ends <;> exact ⟨_,_,by decide,rfl⟩
    | cons pair others =>
      rw [List.flatMap_cons,writtenAttribute_solid (simple.values pair List.mem_cons_self)]
      exact ⟨' ',_,by decide,rfl⟩
  obtain ⟨c,more,stops,shape⟩ := stop
  have pairs := attributePairs_simple simple ends doctype.alphabet rest
  rw [startTag,shape,name_identifier identifier stops]
  rw [shape] at pairs
  have before : (doctype.before rest).rules = [] := plain
  simp only [pairs,resolveValues_simple simple before]
  rfl

theorem endTag_identifier {tag : String} (identifier : Identifier tag.toList) (alphabet : Alphabet)
    (rest : List Char) : endTag alphabet (tag.toList ++ '>' :: rest) = some (bareName tag,rest) := by
  rw [endTag,name_identifier identifier (by decide)]
  rfl

end
end GameText.Xml
