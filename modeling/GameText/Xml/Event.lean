import GameText.Xml.Doctype

namespace GameText.Xml

-- Names are not resolved yet.
inductive Event where
  | start (name : Name) (attributes : List (Name × List Char))
  | finish (name : Name)
  | char (c : Char)
  deriving DecidableEq, Repr

structure StartTag where
  name : Name
  attributes : List (Name × List Char)
  isEmpty : Bool
  deriving DecidableEq, Repr

namespace StartTag

def events (tag : StartTag) : List Event :=
  .start tag.name tag.attributes :: (if tag.isEmpty then [.finish tag.name] else [])

end StartTag

def attributePair (alphabet : Alphabet) (text : List Char) :
    Option ((Name × List Char) × List Char) :=
  match name alphabet text with
  | none => none
  | some (key,after) => match skipBlank after with
    | '=' :: more => match literal (skipBlank more) with
      | none => none
      | some (value,after) => some ((key,value),after)
    | _ => none

theorem attributePair_le {alphabet : Alphabet} {text after : List Char} {pair : Name × List Char}
    (read : attributePair alphabet text = some (pair,after)) : after.length < text.length := by
  unfold attributePair at read
  cases first : name alphabet text with
  | none => simp [first] at read
  | some taken =>
    obtain ⟨key,rest⟩ := taken
    have shorter := name_le first
    simp only [first] at read
    split at read
    · rename_i more found
      have inner := dropWhile_le isBlank rest
      have outer := dropWhile_le isBlank more
      rw [skipBlank] at found
      rw [found,List.length_cons] at inner
      cases second : literal (skipBlank more) with
      | none => simp [second] at read
      | some taken =>
        have last := literal_le second
        simp only [second,Option.some.injEq,Prod.mk.injEq] at read
        rw [← read.2]
        simp only [skipBlank] at last
        omega
    · simp at read

def tagEnd? : List Char → Option (Bool × List Char)
  | '>' :: after => some (false,after)
  | '/' :: '>' :: after => some (true,after)
  | _ => none

theorem tagEnd_le {text after : List Char} {empty : Bool}
    (read : tagEnd? text = some (empty,after)) : after.length < text.length := by
  unfold tagEnd? at read
  split at read
  · cases read; simp
  · cases read; simp only [List.length_cons]; omega
  · cases read

def attributePairs (alphabet : Alphabet) (text : List Char) :
    Option (List (Name × List Char) × Bool × List Char) :=
  match tagEnd? text with
  | some (empty,after) => some ([],empty,after)
  | none => match _spaced : blank text with
    | none => none
    | some inside => match tagEnd? inside with
      | some (empty,after) => some ([],empty,after)
      | none => match _taken : attributePair alphabet inside with
        | none => none
        | some (pair,after) => (attributePairs alphabet after).map fun rest => (pair :: rest.1,rest.2)
termination_by text.length
decreasing_by
  have := blank_le _spaced
  have := attributePair_le _taken
  omega

theorem attributePairs_le {alphabet : Alphabet} {text after : List Char}
    {pairs : List (Name × List Char)} {empty : Bool}
    (read : attributePairs alphabet text = some (pairs,empty,after)) :
    after.length < text.length := by
  fun_induction attributePairs alphabet text generalizing pairs empty after with
  | case1 text empty' rest ended =>
    simp only [Option.some.injEq,Prod.mk.injEq] at read
    have shorter := tagEnd_le ended
    rw [← read.2.2]; exact shorter
  | case2 => simp at read
  | case3 text _ inside spaced empty' rest ended =>
    have shorter := blank_le spaced
    have last := tagEnd_le ended
    simp only [Option.some.injEq,Prod.mk.injEq] at read
    rw [← read.2.2]; omega
  | case4 => simp at read
  | case5 text _ inside spaced _ pair rest taken ih =>
    obtain ⟨⟨more,empty',rest'⟩,inner,same⟩ := Option.map_eq_some_iff.mp read
    simp only [Prod.mk.injEq] at same
    have shorter := blank_le spaced
    have part := attributePair_le taken
    have last := ih inner
    rw [← same.2.2]; omega

def attributeValues (doctype : Doctype) (element : Name) (isEmpty : Bool) :
    Growth → List (Name × List Char) → Option (List (Name × List Char) × Growth)
  | growth, [] => some ([],growth)
  | growth, (key,text) :: rest => do
    let growth ←
      if isReread text && !isEmpty then doctype.place.reread growth text else some growth
    let (value,growth) ← attributeValue doctype (doctype.isPlain element key) growth text
    let (values,growth) ← attributeValues doctype element isEmpty growth rest
    some ((key,value) :: values,growth)

-- Values of an element that ends with its tag do not count again.
def resolveValues (doctype : Doctype) (element : Name) (isEmpty : Bool) (growth : Growth)
    (pairs : List (Name × List Char)) : Option (List (Name × List Char) × Growth) := do
  let (values,growth) ← attributeValues doctype element isEmpty growth pairs
  let names := pairs.map Prod.fst
  if names.eraseDups.length = names.length then
    some (values ++ (doctype.defaults element).filter fun pair => !names.contains pair.1,growth)
  else none

def startTag (doctype : Doctype) (growth : Growth) (text : List Char) :
    Option (StartTag × Growth × List Char) :=
  match name doctype.alphabet text with
  | none => none
  | some (element,after) => match attributePairs doctype.alphabet after with
    | none => none
    | some (pairs,isEmpty,rest) =>
      (resolveValues (doctype.before rest) element isEmpty growth pairs).map fun resolved =>
        (⟨element,resolved.1,isEmpty⟩,resolved.2,rest)

theorem startTag_le {doctype : Doctype} {growth grown : Growth} {text after : List Char}
    {tag : StartTag} (read : startTag doctype growth text = some (tag,grown,after)) :
    after.length < text.length := by
  unfold startTag at read
  cases first : name doctype.alphabet text with
  | none => simp [first] at read
  | some taken =>
    obtain ⟨element,rest⟩ := taken
    have shorter := name_le first
    simp only [first] at read
    cases second : attributePairs doctype.alphabet rest with
    | none => simp [second] at read
    | some taken =>
      obtain ⟨pairs,empty,rest'⟩ := taken
      have inner := attributePairs_le second
      simp only [second] at read
      obtain ⟨values,_,same⟩ := Option.map_eq_some_iff.mp read
      simp only [Prod.mk.injEq] at same
      rw [← same.2.2]; omega

def endTag (alphabet : Alphabet) (text : List Char) : Option (Name × List Char) :=
  match name alphabet text with
  | none => none
  | some (element,after) => match skipBlank after with
    | '>' :: rest => some (element,rest)
    | _ => none

theorem endTag_le {alphabet : Alphabet} {text after : List Char} {element : Name}
    (read : endTag alphabet text = some (element,after)) : after.length ≤ text.length := by
  unfold endTag at read
  cases first : name alphabet text with
  | none => simp [first] at read
  | some taken =>
    obtain ⟨element',rest⟩ := taken
    have shorter := name_le first
    have inner := dropWhile_le isBlank rest
    simp only [first] at read
    split at read
    · rename_i more found
      rw [skipBlank] at found
      rw [found,List.length_cons] at inner
      simp only [Option.some.injEq,Prod.mk.injEq] at read
      rw [← read.2]; omega
    · simp at read

inductive Markup where
  | start (tag : StartTag) (grown : Growth)
  | finish (name : Name)
  | plain (chars : List Char)
  | nothing
  deriving DecidableEq, Repr

def markup (doctype : Doctype) (growth : Growth) (text : List Char) :
    Option (Markup × List Char) :=
  match text with
  | '/' :: rest => (endTag doctype.alphabet rest).map fun taken => (.finish taken.1,taken.2)
  | '?' :: rest => (instruction doctype.alphabet rest).map fun after => (.nothing,after)
  | '!' :: '-' :: '-' :: rest => (comment rest).map fun after => (.nothing,after)
  | '!' :: '[' :: 'C' :: 'D' :: 'A' :: 'T' :: 'A' :: '[' :: rest =>
    (plainSection rest).map fun taken => (.plain taken.1,taken.2)
  | text => (startTag doctype growth text).map fun taken =>
    (.start taken.1 taken.2.1,taken.2.2)

theorem markup_le {doctype : Doctype} {growth : Growth} {text after : List Char} {m : Markup}
    (read : markup doctype growth text = some (m,after)) : after.length ≤ text.length := by
  unfold markup at read
  split at read <;> obtain ⟨taken,inner,same⟩ := Option.map_eq_some_iff.mp read <;>
    simp only [Prod.mk.injEq] at same
  · have := @endTag_le _ _ taken.2 taken.1 inner
    rw [← same.2]; simp only [List.length_cons]; omega
  · have := instruction_le inner
    rw [← same.2]; simp only [List.length_cons]; omega
  · have := comment_le inner
    rw [← same.2]; simp only [List.length_cons]; omega
  · have := @plainSection_le _ taken.1 taken.2 inner
    rw [← same.2]; simp only [List.length_cons]; omega
  · have := @startTag_le _ _ taken.2.1 _ taken.2.2 taken.1 inner
    rw [← same.2]; omega

structure Content where
  events : List Event
  level : Nat
  growth : Growth
  rest : List Char

def Content.after (content : Content) (before : List Event) : Content :=
  { content with events := before ++ content.events }

-- An entity has to close exactly the elements that it opens. The depth bounds entities within
-- entities as it does in attribute values.
def content (doctype : Doctype) (depth : Nat) (growth : Growth) (level : Nat)
    (text : List Char) : Option Content :=
  match text with
  | [] => some ⟨[],level,growth,[]⟩
  | c :: rest =>
    if c = '<' then
      match _found : markup doctype growth rest with
      | none => none
      | some (.nothing,after) => content doctype depth growth level after
      | some (.plain chars,after) =>
        (content doctype depth growth level after).map (Content.after · (chars.map .char))
      | some (.start tag grown,after) =>
        (content doctype depth grown (if tag.isEmpty then level else level + 1) after).map
          (Content.after · tag.events)
      | some (.finish element,after) =>
        if level ≤ 1 then some ⟨[.finish element],0,growth,after⟩
        else (content doctype depth growth (level - 1) after).map
          (Content.after · [.finish element])
    else if c = '&' then
      match _found : reference doctype.alphabet rest with
      | none => none
      | some (.char value,after) =>
        (content doctype depth growth level after).map (Content.after · [.char value])
      | some (.entity name,after) =>
        match Doctype.predefined? name with
        | some value => do
          let growth ← (doctype.before after).place.add growth 1
          (content doctype depth growth level after).map (Content.after · [.char value])
        | none => match doctype.entity? name with
          | none => none
          | some .external => none
          | some (.text replacement) => match depth with
            | 0 => none
            | inner + 1 => do
              let here := doctype.before after
              let growth ← here.place.addText growth replacement
              match content here.inside inner growth 1 replacement with
              | some ⟨inside,1,grown,[]⟩ =>
                (content doctype (inner + 1) grown level after).map (Content.after · inside)
              | _ => none
    else if c = ']' ∧ rest.take 2 = [']','>'] then none
    else (content doctype depth growth level rest).map (Content.after · [.char c])
termination_by (depth,text.length)
decreasing_by
  all_goals first
    | (apply Prod.Lex.left; omega)
    | (apply Prod.Lex.right
       have := markup_le _found
       simp only [List.length_cons]; omega)
    | (apply Prod.Lex.right
       have := reference_le _found
       simp only [List.length_cons]; omega)
    | (apply Prod.Lex.right; simp only [List.length_cons]; omega)

def elementEvents (doctype : Doctype) (text : List Char) : Option (List Event × List Char) :=
  match startTag doctype doctype.growth text with
  | none => none
  | some (tag,grown,after) =>
    if tag.isEmpty then some (tag.events,after)
    else match content doctype doctype.entities.length grown 1 after with
      | some ⟨more,0,_,rest⟩ => some (tag.events ++ more,rest)
      | _ => none

end GameText.Xml
