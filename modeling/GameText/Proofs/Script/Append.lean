import GameText.Proofs.Script.Place
import GameText.Proofs.Script.RoundTrip

namespace GameText

-- Two messages one after the other. Where a text meets a text, the two are one.
def Message.join (front back : Message) : Message :=
  match front.getLast?,back with
  | some (.text left),.text right :: rest => front.dropLast ++ .text (left ++ right) :: rest
  | _,_ => front ++ back

namespace Message

theorem join_text {content : String} (filled : content ≠ "") (back : Message) :
    join [.text content] back = prepend content back := by
  cases back with
  | nil => simp [join,prepend,filled]
  | cons entry rest => cases entry <;> simp [join,prepend,filled]

theorem join_entry {front : Message} {entry : Entry} (token : ∀ content, entry ≠ .text content) (rest back : Message) :
    join (front ++ entry :: rest) back = front ++ entry :: join rest back := by
  unfold join
  rcases List.eq_nil_or_concat rest with rfl | ⟨before,last,rfl⟩
  · rw [List.getLast?_concat]
    split
    · rename_i left right others same
      exact absurd (Option.some.inj same) (token left)
    · simp
  · have whole : front ++ entry :: (before ++ [last]) = (front ++ entry :: before) ++ [last] := by simp
    rw [List.concat_eq_append,whole,List.getLast?_concat,List.getLast?_concat,List.dropLast_concat,
      List.dropLast_concat]
    split <;> simp

end Message

namespace Script
open Outcome Text
variable {tables : TableSet}

theorem join_literal (run : List Char) (back : Message) :
    Message.join (literal run) back = Message.prepend (String.ofList run) back := by
  cases run with
  | nil => exact (Message.prepend_empty back).symm
  | cons c rest => exact Message.join_text (by simp) back

theorem tokenEntry_apart {inside : List Char} {position : Nat} {entry : Entry}
    (made : tokenEntry tables inside position = .ok entry) (rest : Message) : Apart (entry :: rest) := by
  intro content others same
  exact tokenEntry_textless made content (List.cons.inj same).1

theorem entriesFrom_run {run : List Char} (plain : Plain run) (position : Nat) (text : List Char) :
    entriesFrom tables position (run ++ text) =
      (entriesFrom tables (position + run.length) text).map (Message.prepend (String.ofList run)) := by
  have joined : ∀ {more}, Plain more → Plain (run ++ more) := by
    intro more others c member
    exact (List.mem_append.mp member).elim (plain c) (others c)
  rcases text_cases text with others | ⟨more,after,others,rfl⟩ | ⟨more,body,others,rfl⟩
  · rw [entriesFrom_plain (joined others),entriesFrom_plain others]
    simp only [Except.map,literal_alone,String.ofList_append,Message.prepend_append]
  · rw [← List.append_assoc,entriesFrom_close (joined others),entriesFrom_close others,List.length_append,Nat.add_assoc]
    rfl
  · rw [← List.append_assoc,entriesFrom_open (joined others),entriesFrom_open others,List.length_append,
      ← Nat.add_assoc position]
    cases reading : token tables (position + run.length + more.length) body with
    | error fault => rfl
    | ok read =>
      obtain ⟨content,split,_,made⟩ := token_split.mp (show token tables _ body = .ok (read.1,read.2) from reading)
      have size := congrArg List.length split
      rw [List.length_append,List.length_cons] at size
      have place : position + (run.length + more.length + 1 + body.length - read.2.length) =
          position + run.length + (more.length + 1 + body.length - read.2.length) := by omega
      change (entriesFrom tables _ _ >>= _) = Except.map _ (entriesFrom tables _ _ >>= _)
      rw [place]
      cases entriesFrom tables _ read.2 with
      | error fault => rfl
      | ok rest =>
        have apart := tokenEntry_apart made rest
        change Except.ok _ = Except.ok _
        rw [literal_prepend apart,literal_prepend apart,String.ofList_append,Message.prepend_append]

theorem entriesFrom_append {position : Nat} {front : List Char} {entries : Message}
    (first : entriesFrom tables position front = .ok entries) (back : List Char) :
    entriesFrom tables position (front ++ back) =
      (entriesFrom tables (position + front.length) back).map entries.join := by
  induction size : front.length using Nat.strongRecOn generalizing position front entries with
  | ind length ih =>
    subst size
    rcases entriesFrom_read first with
      ⟨plain,rfl⟩ | ⟨run,content,after,entry,rest,rfl,plain,inside,meaning,later,rfl⟩
    · rw [entriesFrom_run plain,funext (join_literal front)]
    · have shorter := piece_shorter run content after
      rw [List.append_assoc _ after back,entriesFrom_piece plain inside,meaning,@List.length_append _ _ after,
        ← Nat.add_assoc]
      change entriesFrom tables _ _ >>= _ = _
      rw [ih _ shorter later rfl]
      cases entriesFrom tables _ back with
      | error fault => rfl
      | ok others => exact congrArg Except.ok (Message.join_entry (tokenEntry_textless meaning) rest others).symm

-- Scripts put together say what they say one by one. Where the second is refused, the whole is
-- refused for the same cause at the same token, as far behind as the first is long.
theorem parse_append (tables : TableSet) {front : String} {entries : Message}
    (first : parse tables front = .ok entries) (back : String) :
    (∀ others, parse tables back = .ok others → parse tables (front ++ back) = .ok (entries.join others)) ∧
    ∀ error, parse tables back = .error (.parse error) →
      ∃ position token, error.position = some position ∧ error.token = some token ∧
        parse tables (front ++ back) =
          .error (.parse ⟨error.cause,some (position + front.length),some token⟩) := by
  have whole : parse tables (front ++ back) =
      ((parse tables back).mapError (Fault.behind front.length)).map entries.join := by
    have appended := entriesFrom_append first back.toList
    rw [entriesFrom_behind] at appended
    rw [parse,String.toList_append,appended,String.length_toList]
    rfl
  constructor
  · intro others second
    rw [whole,second]
    rfl
  · intro error second
    obtain ⟨_,_,position,places⟩ := entriesFrom_places second
    obtain ⟨cause,_,_⟩ := error
    cases places.shown
    cases places.placed
    refine ⟨position,_,rfl,rfl,?_⟩
    rw [whole,second]
    rfl

theorem parse_append_sample :
    parse TableSet.sample "\x7bVII\x7da" = .ok [.complex "VII",.text "a"] ∧
      parse TableSet.sample ("\x7bVII\x7da" ++ "b\x7b:reset\x7d") =
        .ok [.complex "VII",.text "ab",.bare .reset rfl] ∧
      parse TableSet.sample ("\x7bVII\x7da" ++ "b\x7b:reset") =
        .error (.parse ⟨.unterminated,some 7,some "\x7b:reset"⟩) := by
  have first : parse TableSet.sample "\x7bVII\x7da" = .ok [.complex "VII",.text "a"] := by decide +kernel
  have law := parse_append TableSet.sample first
  refine ⟨first,(law _).1 [.text "b",.bare .reset rfl] (by decide +kernel),?_⟩
  obtain ⟨position,token,placed,shown,refused⟩ :=
    (law "b\x7b:reset").2 ⟨.unterminated,some 1,some "\x7b:reset"⟩ (by decide +kernel)
  cases placed
  cases shown
  exact refused

end Script
end GameText
