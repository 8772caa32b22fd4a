import GameText.Proofs.Xml.Build

namespace GameText.Xml

theorem Regular.withTail {element : Element} (regular : Regular element) {tail : Option String}
    (behind : LegalText tail) : Regular (element.withTail tail) := by
  cases regular with
  | element identifier simple inside _ inner => exact .element identifier simple inside behind inner

theorem Regular.behind {element : Element} (regular : Regular element) : LegalText element.tail := by
  cases regular
  assumption

theorem legal_reindent {text : Option String} (legal : LegalText text) (level : Nat) :
    LegalText (reindent level text) := by
  unfold reindent
  split
  · intro c member
    have blank : c = '\n' ∨ c = ' ' := by
      rw [Option.getD_some,indentation,String.toList_ofList] at member
      exact (List.mem_cons.mp member).imp_right List.eq_of_mem_replicate
    rcases blank with rfl | rfl <;> decide
  · exact legal

theorem regular_indentedAll {children : List Element} {level : Nat}
    (each : ∀ child ∈ children, Regular child ∧ Regular (indented (level + 1) child)) :
    ∀ child ∈ indentedAll level children, Regular child := by
  induction children with
  | nil => exact List.forall_mem_nil _
  | cons child rest ih =>
    rw [List.forall_mem_cons] at each
    have first : ∀ level', Regular ((indented (level + 1) child).withTail (reindent level' child.tail)) :=
      fun level' => each.1.2.withTail (legal_reindent each.1.1.behind level')
    cases rest with
    | nil =>
      intro other member
      rw [List.mem_singleton.mp member]
      exact first level
    | cons next others =>
      rw [indentedAll,List.forall_mem_cons]
      · exact ⟨first (level + 1),ih each.2⟩
      · rintro ⟨⟩

theorem regular_indented {element : Element} (regular : Regular element) (level : Nat) :
    Regular (indented level element) := by
  induction regular generalizing level with
  | element identifier simple inside behind inner ih =>
    rw [indented]
    split
    · exact .element identifier simple inside behind inner
    · exact .element identifier simple (legal_reindent inside _) behind
        (regular_indentedAll fun child member => ⟨inner child member,ih child member _⟩)

-- The tree that is written.
def laidOut (root : Element) (pretty : Bool) : Element := if pretty then indented 0 root else root

theorem indented_tail (level : Nat) (element : Element) : (indented level element).tail = element.tail := by
  cases element
  rw [indented]
  split <;> rfl

theorem laidOut_regular {root : Element} (regular : Regular root) (last : root.tail = none) (pretty : Bool) :
    Regular (laidOut root pretty) ∧ (laidOut root pretty).tail = none := by
  cases pretty
  · exact ⟨regular,last⟩
  · exact ⟨regular_indented regular 0,(indented_tail 0 root).trans last⟩

-- An element as it comes back, wherever it stood in the tree that was written.
def Shows (element shown : Element) : Prop :=
  ∃ written, (written = element ∨ ∃ level, written = indented level element) ∧
    ∃ tail, shown = (settled written).withTail tail

theorem withTail_self (element : Element) : element.withTail element.tail = element := by
  cases element
  rfl

theorem settled_withTail (element : Element) (tail : Option String) :
    settled (element.withTail tail) = (settled element).withTail (settledText tail) := by
  cases element
  rfl

theorem shows_settledAll (elements : List Element) : List.Forall₂ Shows elements (settledAll elements) := by
  induction elements with
  | nil => exact .nil
  | cons element rest ih => exact .cons ⟨element,.inl rfl,_,(withTail_self _).symm⟩ ih

theorem shows_indentedAll (elements : List Element) (level : Nat) :
    List.Forall₂ Shows elements (settledAll (indentedAll level elements)) := by
  induction elements with
  | nil => exact .nil
  | cons element rest ih =>
    have first : ∀ level', Shows element (settled ((indented (level + 1) element).withTail (reindent level' element.tail))) :=
      fun level' => ⟨_,.inr ⟨level + 1,rfl⟩,_,settled_withTail _ _⟩
    cases rest with
    | nil => exact .cons (first level) .nil
    | cons next others =>
      rw [indentedAll,settledAll]
      · exact .cons (first (level + 1)) ih
      · rintro ⟨⟩

theorem Shows.facts {element shown : Element} (shows : Shows element shown) :
    shown.tag = element.tag ∧ shown.attributes = element.attributes ∧
      (element.children = [] → shown.text = settledText element.text) ∧
        List.Forall₂ Shows element.children shown.children := by
  obtain ⟨written,source,tail,rfl⟩ := shows
  cases element with
  | mk tag attributes text behind children =>
    rcases source with rfl | ⟨level,rfl⟩
    · exact ⟨rfl,rfl,fun _ => rfl,shows_settledAll children⟩
    · rw [indented]
      split
      · exact ⟨rfl,rfl,fun _ => rfl,shows_settledAll children⟩
      · rename_i filled
        exact ⟨rfl,rfl,fun none => absurd (List.isEmpty_iff.mpr none) filled,shows_indentedAll children level⟩

theorem shows_each {α : Type} {holds : Element → α → Prop} {items : List α} {elements shown : List Element}
    (each : List.Forall₂ (fun item element => ∀ shown, Shows element shown → holds shown item) items elements)
    (shows : List.Forall₂ Shows elements shown) : List.Forall₂ holds shown items := by
  induction each generalizing shown with
  | nil =>
    cases shows
    exact .nil
  | cons first _ ih =>
    cases shows with
    | cons one others => exact .cons (first _ one) (ih others)

theorem shows_laidOut (root : Element) (pretty : Bool) : Shows root (settled (laidOut root pretty)) := by
  cases pretty
  · exact ⟨root,.inl rfl,_,(withTail_self _).symm⟩
  · exact ⟨_,.inr ⟨0,rfl⟩,_,(withTail_self _).symm⟩

end GameText.Xml
