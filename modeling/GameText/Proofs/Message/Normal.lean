import GameText.Entry

namespace GameText.Message

-- A text in front of entries. It joins a text that the entries begin with, and
-- it leaves nothing behind where it is empty.
def prepend (text : String) (entries : Message) : Message :=
  if text = "" then entries
  else match entries with
    | .text next :: rest => .text (text ++ next) :: rest
    | _ => .text text :: entries

def merge : Message → Message
  | [] => []
  | .text content :: rest => prepend content (merge rest)
  | entry :: rest => entry :: merge rest

def cut (text : String) : Message :=
  ((text.toList.splitOn '\n').map fun piece => Entry.text (String.ofList piece)).intersperse Entry.newLine

def broken : Entry → Message
  | .text content => cut content
  | .lineBreak _ _ => [Entry.newLine]
  | entry => [entry]

-- The form in which a message comes back from the wire: texts without line
-- feeds, none empty, no two adjacent, and line breaks without payload.
def normal (entries : Message) : Message := merge (entries.flatMap broken)

def feed : Entry → Entry
  | .lineBreak _ _ => .text "\n"
  | entry => entry

-- The form in which a message comes back from its script: line breaks are line
-- feeds of the texts around them.
def flat (entries : Message) : Message := merge (entries.map feed)

@[simp]
theorem prepend_empty (entries : Message) : prepend "" entries = entries := by simp [prepend]

@[simp]
theorem prepend_append (left right : String) (entries : Message) :
    prepend (left ++ right) entries = prepend left (prepend right entries) := by
  by_cases emptyLeft : left = ""
  · simp [emptyLeft,prepend]
  · by_cases emptyRight : right = ""
    · simp [emptyRight,prepend]
    · unfold prepend
      have both : left ++ right ≠ "" := by
        intro empty
        exact emptyLeft (String.append_eq_empty_iff.mp empty).1
      rw [if_neg both,if_neg emptyLeft,if_neg emptyRight]
      cases entries with
      | nil => rfl
      | cons first rest => cases first <;> simp [String.append_assoc]

@[simp]
theorem cut_empty : cut "" = [.text ""] := rfl

theorem cut_line (rest : List Char) :
    cut (String.ofList ('\n' :: rest)) = .text "" :: Entry.newLine :: cut (String.ofList rest) := by
  unfold cut
  rw [String.toList_ofList,String.toList_ofList]
  cases pieces : rest.splitOn '\n' with
  | nil => exact absurd pieces (List.splitOnP_ne_nil _ rest)
  | cons first others =>
    have split : ('\n' :: rest).splitOn '\n' = [] :: first :: others := by
      rw [← pieces]
      exact List.splitOnP_cons_eq_if_modifyHead '\n' rest
    rw [split]; rfl

theorem cut_char {c : Char} (plain : c ≠ '\n') (rest : List Char) :
    ∃ first others, cut (String.ofList rest) = .text (String.ofList first) :: others ∧
      cut (String.ofList (c :: rest)) = .text (String.ofList (c :: first)) :: others := by
  unfold cut
  rw [String.toList_ofList,String.toList_ofList]
  cases pieces : rest.splitOn '\n' with
  | nil => exact absurd pieces (List.splitOnP_ne_nil _ rest)
  | cons first others =>
    have split : (c :: rest).splitOn '\n' = (c :: first) :: others := by
      have step := List.splitOnP_cons_eq_if_modifyHead (p := (· == '\n')) c rest
      rw [if_neg (by simpa using plain)] at step
      exact step.trans (congrArg (List.modifyHead (List.cons c)) pieces)
    rw [split]
    cases others with
    | nil => exact ⟨first,[],rfl,rfl⟩
    | cons second more => exact ⟨first,_,rfl,rfl⟩

theorem merge_line (rest : List Char) (entries : Message) :
    merge (cut (String.ofList ('\n' :: rest)) ++ entries) =
      Entry.newLine :: merge (cut (String.ofList rest) ++ entries) := by
  rw [cut_line]
  exact prepend_empty _

theorem merge_char {c : Char} (plain : c ≠ '\n') (rest : List Char) (entries : Message) :
    merge (cut (String.ofList (c :: rest)) ++ entries) =
      prepend (String.singleton c) (merge (cut (String.ofList rest) ++ entries)) := by
  obtain ⟨first,others,before,after⟩ := cut_char plain rest
  have joined : String.ofList (c :: first) = String.singleton c ++ String.ofList first := by
    rw [← String.toList_inj]; simp
  rw [before,after,List.cons_append,List.cons_append,merge,merge,joined,prepend_append]

end GameText.Message
