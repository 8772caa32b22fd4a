import GameText.Proofs.Document.Fault
import Mathlib.Data.List.Perm.Basic

namespace GameText.Document
open Outcome Text Xml

def characters : Option String → List Char
  | none => []
  | some text => text.toList

mutual
-- The character data inside an element: its text, then what its children hold and
-- what stands behind each of them.
def inside : Element → List Char
  | ⟨_,_,text,_,children⟩ => characters text ++ insideAll children

def insideAll : List Element → List Char
  | [] => []
  | element :: rest => inside element ++ characters element.tail ++ insideAll rest
end

mutual
-- The elements inside an element, each before those inside it.
def descendants : Element → List Element
  | ⟨_,_,_,_,children⟩ => descendantsAll children

def descendantsAll : List Element → List Element
  | [] => []
  | element :: rest => element :: descendants element ++ descendantsAll rest
end

-- A text element without a text; it stands for no entry.
def isHollow (element : Element) : Bool := element.tag = textTag && (characters element.text).isEmpty

def isFilled (element : Element) : Bool := !isHollow element

def isVisible (c : Char) : Bool := !Text.isBlank c

-- The characters that an entry prints as they are.
def printed : Entry → List Char
  | .text content => content.toList
  | _ => []

-- The text of a child that is read, and the character data in and behind it that is not.
def taken (child : Element) : List Char := if child.tag = textTag then characters child.text else []

def passed (child : Element) : List Char :=
  (if child.tag = textTag then [] else characters child.text) ++ insideAll child.children ++ characters child.tail

-- The character data of a message outside of its text elements' texts.
def stray (message : Element) : List Char := characters message.text ++ message.children.flatMap passed

-- An element with what is read of it, and nothing else.
def outlineChild (child : Element) : Element :=
  ⟨child.tag,child.attributes,if child.tag = textTag then child.text else none,none,[]⟩

def outline (message : Element) : Element :=
  ⟨message.tag,message.attributes,none,none,message.children.map outlineChild⟩

theorem insideAll_each (elements : List Element) :
    insideAll elements = elements.flatMap fun element => inside element ++ characters element.tail := by
  induction elements with
  | nil => rfl
  | cons element rest ih => rw [insideAll,ih,List.flatMap_cons]

theorem descendantsAll_each (elements : List Element) :
    descendantsAll elements = elements.flatMap fun element => element :: descendants element := by
  induction elements with
  | nil => rfl
  | cons element rest ih => rw [descendantsAll,ih,List.flatMap_cons]

-- Where some of a list is kept in its order and the rest passed over, nothing of one kind is
-- lost exactly if none of it was passed over.
theorem lossless_exact {α : Type} {p : α → Bool} {whole front back : List α} (order : front.Sublist whole)
    (parts : whole.Perm (front ++ back)) : (whole.filter p).Sublist front ↔ ∀ a ∈ back, p a = false := by
  have counted : whole.countP p = front.countP p + back.countP p := by rw [parts.countP_eq,List.countP_append]
  constructor
  · intro lossless a member
    have fewer : whole.countP p ≤ front.countP p := by
      simpa [List.countP_eq_length_filter] using (lossless.filter p).length_le
    have none : back.countP p = 0 := by omega
    simpa using List.countP_eq_zero.mp none a member
  · intro other
    have none : back.countP p = 0 := List.countP_eq_zero.mpr fun a member => by simp [other a member]
    have same : front.filter p = whole.filter p := (order.filter p).eq_of_length (by
      rw [← List.countP_eq_length_filter,← List.countP_eq_length_filter]; omega)
    rw [← same]
    exact List.filter_sublist

theorem sublist_filter {α : Type} {p : α → Bool} {items others : List α} :
    (items.filter p).Sublist (others.filter p) ↔ (items.filter p).Sublist others := by
  constructor
  · exact fun order => order.trans List.filter_sublist
  · intro order
    simpa using order.filter p

theorem taken_order (child : Element) : (taken child).Sublist (inside child ++ characters child.tail) := by
  cases child with
  | mk tag attributes text tail children =>
    rw [inside,taken,List.append_assoc]
    split
    · exact List.sublist_append_left _ _
    · exact List.nil_sublist _

theorem taken_parts (child : Element) :
    (inside child ++ characters child.tail).Perm (taken child ++ passed child) := by
  cases child with
  | mk tag attributes text tail children =>
    rw [inside,taken,passed]
    split
    · rw [List.nil_append,List.append_assoc]
    · rw [List.nil_append]

theorem inside_order (message : Element) : (message.children.flatMap taken).Sublist (inside message) := by
  cases message with
  | mk tag attributes text tail children =>
    rw [inside,insideAll_each]
    exact (List.Sublist.flatMap_right children fun child _ => taken_order child).trans (List.sublist_append_right _ _)

theorem inside_parts (message : Element) : (inside message).Perm (message.children.flatMap taken ++ stray message) := by
  cases message with
  | mk tag attributes text tail children =>
    have each := (List.Perm.flatMap_left children fun child _ => taken_parts child).trans
      (List.flatMap_append_perm children taken passed).symm
    rw [inside,insideAll_each,stray]
    exact (each.append_left _).trans (List.perm_append_comm_assoc _ _ _)

theorem descendants_order (message : Element) : message.children.Sublist (descendants message) := by
  cases message with
  | mk tag attributes text tail children =>
    rw [descendants,descendantsAll_each]
    have each : (children.flatMap fun child => [child]).Sublist (children.flatMap fun child => child :: descendants child) :=
      List.Sublist.flatMap_right children fun child _ => .cons_cons _ (List.nil_sublist _)
    simpa using each

theorem descendants_parts (message : Element) :
    (descendants message).Perm (message.children ++ message.children.flatMap descendants) := by
  cases message with
  | mk tag attributes text tail children =>
    rw [descendants,descendantsAll_each]
    simpa using (List.map_append_flatMap_perm children id descendants).symm

section
variable {tables : TableSet} {id : Int} {child : Element}

theorem build_unprinted {command : Command} {data : Option Bytes} {entry : Entry}
    (built : Entry.build command none data = .ok entry) : printed entry = [] := by
  have made := mapError_ok.mp built
  unfold Entry.ofFields at made
  split at made
  · cases made
  · split at made <;> cases made
    rfl
  · split at made
    · split at made <;> cases made
      rfl
    · cases made
      rfl

theorem readCommand_unprinted {entry : Entry} (read : readCommand tables id child = .ok entry) : printed entry = [] := by
  unfold readCommand at read
  split at read
  · cases read
  · split at read
    · obtain ⟨raw,_,read⟩ := bind_ok.mp read
      split at read
      · obtain ⟨value,_,read⟩ := bind_ok.mp read
        obtain ⟨bound,_,read⟩ := bind_ok.mp read
        split at read
        · cases read
        · obtain ⟨data,_,built⟩ := bind_ok.mp read
          exact build_unprinted built
      · cases read
    · split at read
      · cases read
      · exact build_unprinted read

theorem readComplex_unprinted {entry : Entry} (read : readComplex tables id child = .ok entry) : printed entry = [] := by
  obtain ⟨key,_,read⟩ := bind_ok.mp read
  split at read
  · cases read
    rfl
  · cases read

theorem readIcon_unprinted {entry : Entry} (read : readIcon tables id child = .ok entry) : printed entry = [] := by
  obtain ⟨name,_,read⟩ := bind_ok.mp read
  split at read
  · cases read
  · unfold Entry.icon at read
    split at read
    · cases read
    · cases read
      rfl

theorem readEntry_hollow (hollow : isHollow child = true) : readEntry tables id child = .ok none := by
  obtain ⟨tag,empty⟩ : child.tag = textTag ∧ characters child.text = [] := by simpa [isHollow] using hollow
  rw [readEntry,if_pos tag]
  cases given : child.text with
  | none => rfl
  | some text =>
    rw [given] at empty
    have none : text.isEmpty = true := by simpa [characters] using empty
    simp only [none,if_true]

theorem hollow_taken (hollow : isHollow child = true) : taken child = [] := by
  rw [isHollow,Bool.and_eq_true,List.isEmpty_iff] at hollow
  rw [taken,if_pos (of_decide_eq_true hollow.1),hollow.2]

theorem readEntry_filled (filled : isHollow child = false) {head : Option Entry}
    (read : readEntry tables id child = .ok head) : ∃ entry, head = some entry ∧ printed entry = taken child := by
  by_cases tag : child.tag = textTag
  · rw [readEntry,if_pos tag] at read
    rw [isHollow,decide_eq_true tag,Bool.true_and] at filled
    rw [taken,if_pos tag]
    cases given : child.text with
    | none =>
      rw [given] at filled
      cases filled
    | some text =>
      rw [given] at filled read
      have shown : text.isEmpty = false := by simpa [characters] using filled
      simp only [shown,if_false,Bool.false_eq_true] at read
      cases read
      exact ⟨.text text,rfl,rfl⟩
  · rw [readEntry,if_neg tag] at read
    rw [taken,if_neg tag]
    split at read
    · cases read
      exact ⟨.newLine,rfl,rfl⟩
    · split at read
      · obtain ⟨entry,made,rfl⟩ := map_ok.mp read
        exact ⟨entry,rfl,readComplex_unprinted made⟩
      · split at read
        · obtain ⟨entry,made,rfl⟩ := map_ok.mp read
          exact ⟨entry,rfl,readIcon_unprinted made⟩
        · obtain ⟨entry,made,rfl⟩ := map_ok.mp read
          exact ⟨entry,rfl,readCommand_unprinted made⟩

theorem readEntries_exact {children : List Element} {entries : List Entry} :
    readEntries tables id children = .ok entries ↔
      List.Forall₂ (fun child entry => readEntry tables id child = .ok (some entry)) (children.filter isFilled) entries := by
  induction children generalizing entries with
  | nil =>
    rw [List.filter_nil,List.forall₂_nil_left_iff]
    exact ⟨fun read => (Except.ok.inj read).symm,fun none => none ▸ rfl⟩
  | cons child rest ih =>
    rw [readEntries_cons]
    cases hollow : isHollow child with
    | true =>
      rw [List.filter_cons_of_neg (by simp [isFilled,hollow]),← ih]
      constructor
      · intro ⟨head,tail,first,others,whole⟩
        cases (readEntry_hollow hollow).symm.trans first
        exact whole ▸ others
      · exact fun others => ⟨none,entries,readEntry_hollow hollow,others,rfl⟩
    | false =>
      rw [List.filter_cons_of_pos (by simp [isFilled,hollow]),List.forall₂_cons_left_iff]
      constructor
      · intro ⟨head,tail,first,others,whole⟩
        obtain ⟨entry,rfl,_⟩ := readEntry_filled hollow first
        exact ⟨entry,tail,first,ih.mp others,whole⟩
      · intro ⟨entry,tail,first,others,whole⟩
        exact ⟨some entry,tail,first,ih.mpr others,whole⟩

theorem readEntries_printed {children : List Element} {entries : List Entry}
    (read : readEntries tables id children = .ok entries) : entries.flatMap printed = children.flatMap taken := by
  induction children generalizing entries with
  | nil =>
    cases read
    rfl
  | cons child rest ih =>
    obtain ⟨head,tail,first,others,rfl⟩ := readEntries_cons.mp read
    rw [List.flatMap_append,List.flatMap_cons,ih others]
    cases hollow : isHollow child with
    | true =>
      cases (readEntry_hollow hollow).symm.trans first
      rw [hollow_taken hollow]
      rfl
    | false =>
      obtain ⟨entry,rfl,shown⟩ := readEntry_filled hollow first
      rw [← shown]
      simp

theorem readEntry_outline : readEntry tables id (outlineChild child) = readEntry tables id child := by
  cases child with
  | mk tag attributes text tail children =>
    unfold readEntry outlineChild
    dsimp only
    split
    · rfl
    · rfl

theorem readEntries_outline (children : List Element) :
    readEntries tables id (children.map outlineChild) = readEntries tables id children := by
  induction children with
  | nil => rfl
  | cons child rest ih => rw [List.map_cons,readEntries,readEntries,readEntry_outline,ih]

theorem deserialize_outline (message : Element) :
    deserialize tables (outline message) = deserialize tables message := by
  have expected : expectTag messageTag (outline message) = expectTag messageTag message := rfl
  have number : readId (outline message) = readId message := rfl
  have children : (outline message).children = message.children.map outlineChild := rfl
  simp only [deserialize,expected,number,children,readEntries_outline]

theorem deserialize_exact {message : Element} {entries : List Entry} :
    deserialize tables message = .ok (id,entries) ↔ message.tag = messageTag ∧ readId message = .ok id ∧
      readEntries tables id message.children = .ok entries := by
  simp only [deserialize,bind_ok,Except.ok.injEq,Prod.mk.injEq]
  constructor
  · rintro ⟨_,tag,number,numbered,others,read,same,rest⟩
    exact ⟨expectTag_ok.mp tag,same ▸ numbered,same ▸ rest ▸ read⟩
  · rintro ⟨tag,numbered,read⟩
    exact ⟨(),expectTag_ok.mpr tag,id,numbered,entries,read,rfl,rfl⟩

end

-- What the entries of a message hold of its element: the texts of its text elements, in the order
-- of the document, and neither the characters nor the elements that stand anywhere else.
structure Holds (message : Element) (entries : List Entry) : Prop where
  text : entries.flatMap printed = message.children.flatMap taken
  characters : ((inside message).filter isVisible).Sublist (entries.flatMap printed) ↔
    ∀ c ∈ stray message, isVisible c = false
  elements : ((descendants message).filter isFilled).Sublist (message.children.filter isFilled) ↔
    ∀ child ∈ message.children, ∀ element ∈ descendants child, isFilled element = false

theorem deserialize_holds {tables : TableSet} {message : Element} {id : Int} {entries : List Entry}
    (reading : deserialize tables message = .ok (id,entries)) : Holds message entries := by
  have shown := readEntries_printed (deserialize_exact.mp reading).2.2
  refine ⟨shown,?_,?_⟩
  · rw [shown]
    exact lossless_exact (inside_order message) (inside_parts message)
  · rw [sublist_filter,lossless_exact (descendants_order message) (descendants_parts message)]
    simp only [List.mem_flatMap,forall_exists_index,and_imp]
    exact ⟨fun law child member element deep => law element child member deep,
      fun law element child member deep => law child member element deep⟩

-- Reading looks at the number of a message, and at the tag, the attributes and, in a text
-- element, the text of each child: every child but a hollow text is an entry or an error.
-- Whatever else a tree holds does not change the answer, so that it is lost in silence.
theorem deserialize_content (tables : TableSet) (message : Element) :
    deserialize tables (outline message) = deserialize tables message ∧
    (∀ id entries, deserialize tables message = .ok (id,entries) ↔
      message.tag = messageTag ∧ readId message = .ok id ∧ List.Forall₂
        (fun child entry => readEntry tables id child = .ok (some entry)) (message.children.filter isFilled) entries) ∧
    ∀ id entries, deserialize tables message = .ok (id,entries) → Holds message entries := by
  refine ⟨deserialize_outline message,fun id entries => ?_,fun _ _ => deserialize_holds⟩
  rw [deserialize_exact,readEntries_exact]

-- A message of the documented form, and one with an element in its text.
def plainMessage : Element :=
  ⟨messageTag,[(idName,"1")],some "\n",none,[⟨textTag,[],some "Hey ",none,[]⟩,⟨"reset",[],none,some "\n",[]⟩]⟩

def nestedMessage : Element :=
  ⟨messageTag,[(idName,"1")],none,none,[⟨textTag,[],some "Hey ",none,[⟨"b",[],some "you",some " there",[]⟩]⟩]⟩

theorem deserialize_content_sample :
    deserialize TableSet.sample plainMessage = .ok (1,[.text "Hey ",.bare .reset rfl]) ∧
      ((inside plainMessage).filter isVisible).Sublist "Hey ".toList ∧
      deserialize TableSet.sample (outline nestedMessage) = deserialize TableSet.sample nestedMessage := by
  obtain ⟨_,exact,holds⟩ := deserialize_content TableSet.sample plainMessage
  have reading : deserialize TableSet.sample plainMessage = .ok (1,[.text "Hey ",.bare .reset rfl]) :=
    (exact _ _).mpr ⟨rfl,rfl,.cons rfl (.cons rfl .nil)⟩
  have blank : (stray plainMessage).all (fun c => !isVisible c) = true := by decide +kernel
  exact ⟨reading,(holds _ _ reading).characters.mpr (by simpa using blank),(deserialize_content TableSet.sample nestedMessage).1⟩

theorem deserialize_content_nested :
    ¬ ∀ tables : TableSet, tables.Loaded → ∀ message id entries, deserialize tables message = .ok (id,entries) →
      ((inside message).filter isVisible).Sublist (entries.flatMap printed) ∧
        ((descendants message).filter isFilled).Sublist (message.children.filter isFilled) := by
  intro law
  have reading : deserialize TableSet.sample nestedMessage = .ok (1,[.text "Hey "]) := rfl
  obtain ⟨lossless,_⟩ := law TableSet.sample TableSet.sample_loaded nestedMessage 1 _ reading
  have short := lossless.length_le
  revert short
  decide +kernel

end GameText.Document
