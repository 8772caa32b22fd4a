import GameText.Proofs.Xml.Content

namespace GameText.Xml
open Script (Identifier)

-- Elements whose written form is read back: plain names and values of attributes,
-- and no character in a text that a document may not hold.
def LegalText (text : Option String) : Prop := ∀ c ∈ (text.getD "").toList, isLegal c = true

theorem legalText_none : LegalText none := List.forall_mem_nil _

inductive Regular : Element → Prop where
  | element {tag : String} {attributes : List (String × String)} {text tail : Option String}
      {children : List Element} (identifier : Identifier tag.toList) (simple : Simple attributes)
      (inside : LegalText text) (behind : LegalText tail) (inner : ∀ child ∈ children, Regular child) :
      Regular ⟨tag,attributes,text,tail,children⟩

theorem Regular.named {element : Element} (regular : Regular element) : Identifier element.tag.toList := by
  cases regular
  assumption

def textEvents (text : Option String) : List Event := (text.getD "").toList.map .char

mutual
def events : Element → List Event
  | ⟨tag,attributes,text,tail,children⟩ =>
    .start (bareName tag) (attributes.map barePair) ::
      (textEvents text ++ (eventsAll children ++ .finish (bareName tag) :: textEvents tail))

def eventsAll : List Element → List Event
  | [] => []
  | element :: rest => events element ++ eventsAll rest
end

def optionPrinted (charset : Charset) (text : Option String) : List Char :=
  textPrinted charset (text.getD "").toList

def elementPrinted (charset : Charset) (element : Element) : List Char := (written element).flatMap (printed charset)

def allPrinted (charset : Charset) (elements : List Element) : List Char :=
  (writtenAll elements).flatMap (printed charset)

section
variable {charset : Charset} (standard : charset.isStandard = true)

theorem writtenText_printed (charset : Charset) (text : Option String) :
    (writtenText text).flatMap (printed charset) = optionPrinted charset text := by
  cases text with
  | none => rfl
  | some text =>
    rw [writtenText,optionPrinted,textPrinted,List.flatMap_assoc]
    rfl

theorem allPrinted_cons (element : Element) (rest : List Element) :
    allPrinted charset (element :: rest) = elementPrinted charset element ++ allPrinted charset rest := by
  rw [allPrinted,writtenAll,List.flatMap_append]
  rfl

include standard

theorem elementPrinted_empty {tag : String} (identifier : Identifier tag.toList)
    {attributes : List (String × String)} (simple : Simple attributes) {text : Option String}
    (empty : isEmptyText text = true) (tail : Option String) :
    elementPrinted charset ⟨tag,attributes,text,tail,[]⟩ =
      '<' :: (tag.toList ++ (attributes.flatMap writtenAttribute ++ ([' ','/','>'] ++ optionPrinted charset tail))) := by
  have unchanged : Unchanged ('<' :: (tag.toList ++ (attributes.flatMap writtenAttribute ++ [' ','/','>']))) :=
    unchanged_append (show Unchanged ['<'] by decide) (unchanged_append (unchanged_identifier identifier)
      (unchanged_append (unchanged_attributes simple) (by decide)))
  have shape : written ⟨tag,attributes,text,tail,[]⟩ =
      ('<' :: (tag.toList ++ (attributes.flatMap writtenAttribute ++ [' ','/','>']))) ++ writtenText tail := by
    simp [written,empty]
  rw [elementPrinted,shape,List.flatMap_append,printed_all standard unchanged,writtenText_printed]
  simp

theorem elementPrinted_filled {tag : String} (identifier : Identifier tag.toList)
    {attributes : List (String × String)} (simple : Simple attributes) {text : Option String}
    {children : List Element} (filled : ¬ (isEmptyText text = true ∧ children = [])) (tail : Option String) :
    elementPrinted charset ⟨tag,attributes,text,tail,children⟩ =
      '<' :: (tag.toList ++ (attributes.flatMap writtenAttribute ++ (['>'] ++ (optionPrinted charset text ++
        (allPrinted charset children ++ '<' :: '/' :: (tag.toList ++ '>' :: optionPrinted charset tail)))))) := by
  have front : Unchanged ('<' :: (tag.toList ++ (attributes.flatMap writtenAttribute ++ ['>']))) :=
    unchanged_append (show Unchanged ['<'] by decide) (unchanged_append (unchanged_identifier identifier)
      (unchanged_append (unchanged_attributes simple) (by decide)))
  have back : Unchanged ('<' :: '/' :: (tag.toList ++ ['>'])) :=
    unchanged_append (show Unchanged ['<','/'] by decide)
      (unchanged_append (unchanged_identifier identifier) (by decide))
  have shape : written ⟨tag,attributes,text,tail,children⟩ =
      ('<' :: (tag.toList ++ (attributes.flatMap writtenAttribute ++ ['>']))) ++ (writtenText text ++
        (writtenAll children ++ (('<' :: '/' :: (tag.toList ++ ['>'])) ++ writtenText tail))) := by
    have more : (isEmptyText text && children.isEmpty) = false := by
      simpa [Bool.and_eq_false_iff,or_iff_not_imp_left] using filled
    simp [written,more]
  rw [elementPrinted,shape]
  simp only [List.flatMap_append,printed_all standard front,printed_all standard back,writtenText_printed]
  simp [allPrinted]

theorem elementPrinted_opens {element : Element} (regular : Regular element) :
    ∃ more, elementPrinted charset element = '<' :: (element.tag.toList ++ more) := by
  cases regular with
  | @element tag attributes text tail children identifier simple =>
    by_cases alone : isEmptyText text = true ∧ children = []
    · obtain ⟨empty,rfl⟩ := alone
      exact ⟨_,elementPrinted_empty standard identifier simple empty tail⟩
    · exact ⟨_,elementPrinted_filled standard identifier simple alone tail⟩

theorem allPrinted_opens {elements : List Element} (regular : ∀ element ∈ elements, Regular element)
    (more : List Char) : ∃ rest, allPrinted charset elements ++ '<' :: more = '<' :: rest := by
  cases elements with
  | nil => exact ⟨more,rfl⟩
  | cons element others =>
    obtain ⟨rest,shape⟩ := elementPrinted_opens standard (regular element List.mem_cons_self)
    rw [allPrinted_cons,shape]
    exact ⟨_,rfl⟩

end

-- A stretch of a document that means these events, wherever elements are open
-- around it and markup follows.
def Means (standalone : Bool) (place : Place) (piece : List Char) (found : List Event) : Prop :=
  ∀ (depth level : Nat) (growth : Growth) (more : List Char), 1 ≤ level →
    Room place growth (piece ++ '<' :: more) → ∃ grown, Room place grown ('<' :: more) ∧
      contentOf standalone place depth growth level (piece ++ '<' :: more) =
        (contentOf standalone place depth grown level ('<' :: more)).map (Content.after · found)

section
variable {standalone : Bool} {place : Place}

theorem Means.append {left right : List Char} {first second : List Event} (before : Means standalone place left first)
    (behind : Means standalone place right second) (opens : ∀ more, ∃ rest, right ++ '<' :: more = '<' :: rest) :
    Means standalone place (left ++ right) (first ++ second) := by
  intro depth level growth more positive room
  obtain ⟨rest,shape⟩ := opens more
  rw [List.append_assoc,shape] at room ⊢
  obtain ⟨middle,room,read⟩ := before depth level growth rest positive room
  rw [← shape] at room
  obtain ⟨grown,room,further⟩ := behind depth level middle more positive room
  exact ⟨grown,room,by rw [read,← shape,further,after_after]⟩

theorem textEvents_empty {text : Option String} (empty : isEmptyText text = true) : textEvents text = [] := by
  cases text with
  | none => rfl
  | some text =>
    have same : text = "" := String.isEmpty_iff.mp empty
    rw [same]
    rfl

variable (outside : place.isInside = false) {charset : Charset} (standard : charset.isStandard = true)
include outside standard

theorem means_text {text : Option String} (legal : LegalText text) :
    Means standalone place (optionPrinted charset text) (textEvents text) :=
  fun _ _ _ _ _ room => content_text outside standard legal room

theorem means_filled {tag : String} (identifier : Identifier tag.toList) {attributes : List (String × String)}
    (simple : Simple attributes) {inner : List Char} {found : List Event} (inside : Means standalone place inner found)
    {tail : Option String} (behind : LegalText tail) :
    Means standalone place
      ('<' :: (tag.toList ++ (attributes.flatMap writtenAttribute ++ (['>'] ++ (inner ++
        '<' :: '/' :: (tag.toList ++ '>' :: optionPrinted charset tail))))))
      (.start (bareName tag) (attributes.map barePair) :: (found ++ .finish (bareName tag) :: textEvents tail)) := by
  intro depth level growth more positive room
  have shape : '<' :: (tag.toList ++ (attributes.flatMap writtenAttribute ++ (['>'] ++ (inner ++
      '<' :: '/' :: (tag.toList ++ '>' :: optionPrinted charset tail))))) ++ '<' :: more =
      '<' :: (tag.toList ++ (attributes.flatMap writtenAttribute ++ (['>'] ++ (inner ++
        '<' :: '/' :: (tag.toList ++ '>' :: (optionPrinted charset tail ++ '<' :: more)))))) := by
    simp
  rw [shape] at room ⊢
  have room : Room place growth (inner ++ '<' :: '/' :: (tag.toList ++ '>' ::
      (optionPrinted charset tail ++ '<' :: more))) :=
    @Room.rest _ _ ('<' :: (tag.toList ++ (attributes.flatMap writtenAttribute ++ ['>']))) _ (by simpa using room)
  obtain ⟨middle,room,read⟩ := inside depth (level + 1) growth _ (by omega) room
  have room : Room place middle (optionPrinted charset tail ++ '<' :: more) :=
    @Room.rest _ _ ('<' :: '/' :: (tag.toList ++ ['>'])) _ (by simpa using room)
  obtain ⟨grown,room,last⟩ := (means_text outside standard behind : Means standalone place _ _) depth level middle more
    positive room
  refine ⟨grown,room,?_⟩
  rw [content_start identifier simple .more]
  simp only [Bool.false_eq_true,if_false,read,content_finish identifier positive,last,after_after]
  rfl

theorem means_empty {tag : String} (identifier : Identifier tag.toList) {attributes : List (String × String)}
    (simple : Simple attributes) {tail : Option String} (behind : LegalText tail) :
    Means standalone place
      ('<' :: (tag.toList ++ (attributes.flatMap writtenAttribute ++ ([' ','/','>'] ++ optionPrinted charset tail))))
      (.start (bareName tag) (attributes.map barePair) :: .finish (bareName tag) :: textEvents tail) := by
  intro depth level growth more positive room
  have shape : '<' :: (tag.toList ++ (attributes.flatMap writtenAttribute ++ ([' ','/','>'] ++
      optionPrinted charset tail))) ++ '<' :: more =
      '<' :: (tag.toList ++ (attributes.flatMap writtenAttribute ++ ([' ','/','>'] ++
        (optionPrinted charset tail ++ '<' :: more)))) := by
    simp
  rw [shape] at room ⊢
  have room : Room place growth (optionPrinted charset tail ++ '<' :: more) :=
    @Room.rest _ _ ('<' :: (tag.toList ++ (attributes.flatMap writtenAttribute ++ [' ','/','>']))) _
      (by simpa using room)
  obtain ⟨grown,room,last⟩ := (means_text outside standard behind : Means standalone place _ _) depth level growth more
    positive room
  refine ⟨grown,room,?_⟩
  rw [content_start identifier simple .empty]
  simp only [if_true,last,after_after]
  rfl

theorem means_all {elements : List Element} (regular : ∀ element ∈ elements, Regular element)
    (each : ∀ element ∈ elements, Means standalone place (elementPrinted charset element) (events element)) :
    Means standalone place (allPrinted charset elements) (eventsAll elements) := by
  induction elements with
  | nil => exact @means_text standalone place outside charset standard none legalText_none
  | cons element rest ih =>
    rw [List.forall_mem_cons] at regular each
    rw [allPrinted_cons,eventsAll]
    exact each.1.append (ih regular.2 each.2) (allPrinted_opens standard regular.2)

theorem means_inside {text : Option String} (legal : LegalText text) {children : List Element}
    (regular : ∀ child ∈ children, Regular child)
    (each : ∀ child ∈ children, Means standalone place (elementPrinted charset child) (events child)) :
    Means standalone place (optionPrinted charset text ++ allPrinted charset children)
      (textEvents text ++ eventsAll children) :=
  (means_text outside standard legal).append (means_all outside standard regular each)
    (allPrinted_opens standard regular)

theorem means_element {element : Element} (regular : Regular element) :
    Means standalone place (elementPrinted charset element) (events element) := by
  induction regular with
  | @element tag attributes text tail children identifier simple inside behind inner ih =>
    by_cases alone : isEmptyText text = true ∧ children = []
    · obtain ⟨empty,rfl⟩ := alone
      rw [elementPrinted_empty standard identifier simple empty,events,textEvents_empty empty]
      exact means_empty outside standard identifier simple behind
    · have whole := means_filled outside standard identifier simple (means_inside outside standard inside inner ih) behind
      rw [List.append_assoc,List.append_assoc] at whole
      rw [elementPrinted_filled standard identifier simple alone,events]
      exact whole

theorem elementEvents_regular {element : Element} (regular : Regular element) (last : element.tail = none) :
    ∃ rest, elementPrinted charset element = '<' :: (element.tag.toList ++ rest) ∧
      (Room place .start (element.tag.toList ++ rest) →
        elementEvents (Doctype.empty standalone place) (element.tag.toList ++ rest) = some (events element,[])) := by
  cases regular with
  | @element tag attributes text tail children identifier simple inside behind inner =>
    cases last
    by_cases alone : isEmptyText text = true ∧ children = []
    · obtain ⟨empty,rfl⟩ := alone
      refine ⟨_,elementPrinted_empty standard identifier simple empty none,fun _ => ?_⟩
      rw [elementEvents,startTag_simple identifier simple rfl .empty]
      simp only [if_true]
      rw [events,textEvents_empty empty]
      rfl
    · refine ⟨_,elementPrinted_filled standard identifier simple alone none,fun room => ?_⟩
      have room : Room place .start ((optionPrinted charset text ++ allPrinted charset children) ++
          '<' :: '/' :: (tag.toList ++ ['>'])) :=
        @Room.rest _ _ (tag.toList ++ (attributes.flatMap writtenAttribute ++ ['>'])) _
          (by simpa [optionPrinted,textPrinted] using room)
      have means : Means standalone place _ _ := means_inside outside standard inside inner
        fun child member => means_element outside standard (inner child member)
      obtain ⟨grown,_,read⟩ := means 0 1 .start _ (Nat.le_refl 1) room
      rw [content_last identifier [],List.append_assoc] at read
      rw [elementEvents,startTag_simple identifier simple rfl .more]
      have found : content (Doctype.empty standalone place) 0 .start 1 (optionPrinted charset text ++
          (allPrinted charset children ++ '<' :: '/' :: (tag.toList ++ '>' :: optionPrinted charset none))) =
            some ⟨(textEvents text ++ eventsAll children) ++ [.finish (bareName tag)],0,grown,[]⟩ := read
      simp only [Bool.false_eq_true,if_false,Doctype.empty,List.length_nil] at found ⊢
      rw [found,events]
      simp [StartTag.events,textEvents]

end
end GameText.Xml
