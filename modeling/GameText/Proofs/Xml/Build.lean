import GameText.Proofs.Xml.Events

namespace GameText.Xml
open Script (Identifier)

-- A document does not tell an empty text from none.
def settledText : Option String → Option String
  | none => none
  | some text => if text.isEmpty then none else some text

mutual
def settled : Element → Element
  | ⟨tag,attributes,text,tail,children⟩ =>
    ⟨tag,attributes,settledText text,settledText tail,settledAll children⟩

def settledAll : List Element → List Element
  | [] => []
  | element :: rest => settled element :: settledAll rest
end

theorem settled_tail (element : Element) : (settled element).tail = settledText element.tail := by
  cases element
  rfl

theorem declare_simple {attributes : List (String × String)} (simple : Simple attributes) (scope : Scope) :
    declare scope (attributes.map barePair) = some scope := by
  induction attributes with
  | nil => rfl
  | cons pair rest ih =>
    have plain : declaredLead? (bareName pair.1) = none := if_neg (simple.names pair List.mem_cons_self).2
    rw [List.map_cons,barePair,declare,plain]
    exact ih simple.tail

def listed (pair : String × String) : List Char × List Char := (pair.1.toList,pair.2.toList)

theorem attributeNames_simple {attributes : List (String × String)} (simple : Simple attributes) (scope : Scope) :
    attributeNames scope (attributes.map barePair) = some (attributes.map listed) := by
  have kept : (attributes.map barePair).filter (fun pair => (declaredLead? pair.1).isNone) = attributes.map barePair := by
    rw [List.filter_eq_self]
    intro pair member
    obtain ⟨written,inside,rfl⟩ := List.mem_map.mp member
    rw [Option.isNone_iff_eq_none]
    exact if_neg (simple.names written inside).2
  have named : ∀ pairs : List (String × String), (pairs.map barePair).mapM (fun pair => do
      let name ← attributeName scope pair.1
      some (name,pair.2)) = some (pairs.map listed) := by
    intro pairs
    induction pairs with
    | nil => rfl
    | cons pair rest ih =>
      rw [List.map_cons,List.mapM_cons,ih]
      rfl
  have distinct : ((attributes.map listed).map Prod.fst).Nodup := by
    have same : (attributes.map listed).map Prod.fst = (attributes.map Prod.fst).map String.toList := by
      rw [List.map_map,List.map_map]
      rfl
    rw [same]
    exact simple.distinct.map fun _ _ => String.toList_inj.mp
  rw [attributeNames,kept,named]
  simp only [Option.bind_eq_bind,Option.bind_some,eraseDups_distinct distinct,if_true]

-- The frame of an element of which only the start was read.
def opened (tag : String) (attributes : List (String × String)) : Frame :=
  ⟨bareName tag,tag.toList,attributes.map listed,[],none,[],[]⟩

theorem ofStart_simple (tag : String) {attributes : List (String × String)} (simple : Simple attributes) :
    Frame.ofStart [] (bareName tag) (attributes.map barePair) = some (opened tag attributes) := by
  simp only [Frame.ofStart,declare_simple simple,attributeNames_simple simple,Option.bind_eq_bind,Option.bind_some]
  rfl

namespace Frame

theorem flush_frame (frame : Frame) :
    frame.flush = { frame with text := frame.flush.text, children := frame.flush.children, pending := [] } := by
  unfold flush
  split
  · rename_i none
    have empty := List.isEmpty_iff.mp none
    cases frame
    cases empty
    rfl
  · split <;> rfl

def push (frame : Frame) (text : Option String) : Frame :=
  { frame with pending := (text.getD "").toList.reverse ++ frame.pending }

-- An element and the text behind it.
def follow (frame : Frame) (element : Element) : Frame :=
  (frame.add ((settled element).withTail none)).push element.tail

theorem follow_frame (frame : Frame) (element : Element) :
    (frame.follow element).name = frame.name ∧ (frame.follow element).scope = frame.scope := by
  rw [follow,push,add,flush_frame]
  exact ⟨rfl,rfl⟩

theorem follow_all (frame : Frame) (elements : List Element) :
    (elements.foldl follow frame).name = frame.name ∧ (elements.foldl follow frame).scope = frame.scope := by
  induction elements generalizing frame with
  | nil => exact ⟨rfl,rfl⟩
  | cons element rest ih =>
    have step := follow_frame frame element
    have more := ih (frame.follow element)
    exact ⟨more.1.trans step.1,more.2.trans step.2⟩

theorem flush_push (frame : Frame) (still : frame.pending = []) (text : Option String) :
    (frame.push text).flush = match settledText text with
      | none => frame
      | some text => match frame.children with
        | [] => { frame with text := some text }
        | last :: older => { frame with children := last.withTail (some text) :: older } := by
  cases frame with
  | mk name tag attributes scope inside children pending =>
    cases still
    cases text with
    | none => rfl
    | some text =>
      by_cases empty : text = ""
      · subst empty
        rfl
      · have filled : text.isEmpty = false := by simpa using empty
        have chars : text.toList ≠ [] := by simpa using empty
        have waiting : text.toList.reverse.isEmpty = false := by simpa using empty
        cases children <;>
          simp only [push,flush,settledText,filled,Option.getD_some,List.append_nil,waiting,Bool.false_eq_true,if_false,
            List.reverse_reverse,String.ofList_toList]

theorem flush_follow (frame : Frame) (element : Element) :
    (frame.follow element).flush =
      { frame.flush with children := settled element :: frame.flush.children } := by
  have still : (frame.add ((settled element).withTail none)).pending = [] := by
    rw [add,flush_frame]
  rw [follow,flush_push _ still,← settled_tail]
  cases settled element with
  | mk tag attributes text tail children => cases tail <;> rfl

theorem flush_all (frame : Frame) (elements : List Element) :
    (elements.foldl follow frame).flush =
      { frame.flush with children := (settledAll elements).reverse ++ frame.flush.children } := by
  induction elements generalizing frame with
  | nil => rfl
  | cons element rest ih =>
    rw [List.foldl_cons,ih,flush_follow,settledAll]
    simp

end Frame

theorem build_text (frame : Frame) (outer : List Frame) (text : Option String) (rest : List Event) :
    build (frame :: outer) (textEvents text ++ rest) = build (frame.push text :: outer) rest := by
  have chars : ∀ (frame : Frame) (text : List Char), build (frame :: outer) (text.map .char ++ rest) =
      build ({ frame with pending := text.reverse ++ frame.pending } :: outer) rest := by
    intro frame text
    induction text generalizing frame with
    | nil => rfl
    | cons c more ih =>
      rw [List.map_cons,List.cons_append,build,ih]
      simp
  exact chars frame _

theorem element_inside (tag : String) (attributes : List (String × String)) (text tail : Option String)
    (children : List Element) :
    (children.foldl Frame.follow ((opened tag attributes).push text)).element =
      (settled ⟨tag,attributes,text,tail,children⟩).withTail none := by
  have pairs : (attributes.map listed).map (fun pair => (String.ofList pair.1,String.ofList pair.2)) = attributes := by
    rw [List.map_map]
    refine (List.map_congr_left fun pair _ => ?_).trans (List.map_id _)
    simp [listed]
  rw [Frame.element,Frame.flush_all,Frame.flush_push _ rfl]
  cases shape : settledText text <;>
    simp [settled,opened,Element.withTail,shape,pairs]

theorem build_all {frame : Frame} {outer : List Frame} {elements : List Element} (scope : frame.scope = [])
    (each : ∀ element ∈ elements, ∀ (frame : Frame) (rest : List Event), frame.scope = [] →
      build (frame :: outer) (events element ++ rest) = build (frame.follow element :: outer) rest)
    (rest : List Event) :
    build (frame :: outer) (eventsAll elements ++ rest) = build (elements.foldl Frame.follow frame :: outer) rest := by
  induction elements generalizing frame with
  | nil => rfl
  | cons element others ih =>
    rw [List.forall_mem_cons] at each
    rw [eventsAll,List.append_assoc,each.1 frame _ scope,ih ((frame.follow_frame element).2.trans scope) each.2]
    rfl

theorem build_element {element : Element} (regular : Regular element) (frame : Frame) (outer : List Frame)
    (rest : List Event) (scope : frame.scope = []) :
    build (frame :: outer) (events element ++ rest) = build (frame.follow element :: outer) rest := by
  induction regular generalizing frame outer rest with
  | @element tag attributes text tail children identifier simple inside behind inner ih =>
    have start := ofStart_simple tag simple
    have within := @build_all ((opened tag attributes).push text) (frame :: outer) children rfl
      (fun child member frame' rest' scope' => ih child member frame' (frame :: outer) rest' scope')
      (.finish (bareName tag) :: (textEvents tail ++ rest))
    have name : (children.foldl Frame.follow ((opened tag attributes).push text)).name = bareName tag :=
      (Frame.follow_all _ children).1
    have whole := element_inside tag attributes text tail children
    generalize children.foldl Frame.follow ((opened tag attributes).push text) = ended at within name whole
    rw [events,List.cons_append,build,scope,start,Option.bind_eq_bind,Option.bind_some,List.append_assoc,build_text,
      List.append_assoc,List.cons_append,within,build,if_pos name]
    simp only [whole,build_text]
    rfl

theorem build_root {element : Element} (regular : Regular element) (last : element.tail = none) :
    build [] (events element) = some (settled element) := by
  cases regular with
  | @element tag attributes text tail children identifier simple inside behind inner =>
    cases last
    have start := ofStart_simple tag simple
    have within := @build_all ((opened tag attributes).push text) [] children rfl
      (fun child member frame rest scope => build_element (inner child member) frame [] rest scope)
      [.finish (bareName tag)]
    have name : (children.foldl Frame.follow ((opened tag attributes).push text)).name = bareName tag :=
      (Frame.follow_all _ children).1
    have whole := element_inside tag attributes text none children
    generalize children.foldl Frame.follow ((opened tag attributes).push text) = ended at within name whole
    have none : textEvents none = [] := rfl
    rw [events,none,build,start,Option.bind_eq_bind,Option.bind_some,build_text,within,build,if_pos name]
    simp only [List.isEmpty_nil,if_true,whole]
    rfl

end GameText.Xml
