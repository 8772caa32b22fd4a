import GameText.Proofs.Script.Shift

namespace GameText.Script
open Outcome Text

-- Where a parse failure lies in a text: at a token behind a front that is read. It is at the
-- token's first character, unless it is at a brace within the token.
structure Places (tables : TableSet) (text : List Char) (error : ParseError) (front token : List Char)
    (position : Nat) : Prop where
  split : ∃ back, text = front ++ token ++ back
  filled : token ≠ []
  sound : ∃ entries, entriesFrom tables 0 front = .ok entries
  shown : error.token = some (String.ofList token)
  placed : error.position = some position
  first : error.cause ≠ .nestedOpen → position = front.length
  nested : error.cause = .nestedOpen →
    front.length < position ∧ position < front.length + token.length ∧ text[position]? = some '\x7b'

section
variable {tables : TableSet}

theorem Judged.placed {token : List Char} {place other : Nat} {first second : Except Fault Entry}
    (judged : Judged token place other first second) {error : ParseError} (failed : first = .error (.parse error)) :
    error.cause ≠ .nestedOpen ∧ error.position = some place ∧ error.token = some (String.ofList token) := by
  cases judged with
  | read => cases failed
  | refused whole =>
    cases failed
    exact ⟨whole,rfl,rfl⟩
  | broken foreign =>
    cases failed
    exact absurd ⟨error,rfl⟩ foreign

theorem token_places {run body : List Char} (plain : Plain run) {error : ParseError}
    (failed : token tables run.length body = .error (.parse error)) :
    ∃ shown position, Places tables (run ++ '\x7b' :: body) error run shown position := by
  have sound : ∃ entries, entriesFrom tables 0 run = .ok entries := ⟨_,entriesFrom_plain plain⟩
  simp only [token] at failed
  cases found : body.dropWhile fun c => !isClose c with
  | nil =>
    rw [found] at failed
    cases failed
    refine ⟨'\x7b' :: body,run.length,⟨[],(List.append_nil _).symm⟩,List.cons_ne_nil _ _,sound,rfl,rfl,fun _ => rfl,?_⟩
    intro nested
    cases nested
  | cons close after =>
    obtain ⟨split,_,ends⟩ := cut_exact.mp ⟨rfl,found⟩
    have close : close = '\x7d' := by simpa [isClose] using ends
    subst close
    rw [found] at failed
    generalize body.takeWhile (fun c => !isClose c) = content at split failed
    subst split
    have whole : run ++ '\x7b' :: (content ++ '\x7d' :: after) = run ++ tokenOf content ++ after :=
      (tokenOf_body _ _ _).symm
    dsimp only at failed
    split at failed
    · rename_i nested opened
      cases failed
      obtain ⟨inside,brace,_⟩ := List.findIdx?_eq_some_iff_getElem.mp opened
      refine ⟨tokenOf content,run.length + 1 + nested,⟨after,whole⟩,List.cons_ne_nil _ _,sound,rfl,rfl,fun other => absurd rfl other,
        fun _ => ⟨by omega,?_,?_⟩⟩
      · simp [tokenOf]
        omega
      · have same : content[nested] = '\x7b' := of_decide_eq_true brace
        rw [Nat.add_assoc,List.getElem?_append_right (Nat.le_add_right _ _),Nat.add_sub_cancel_left,
          Nat.add_comm 1 nested,List.getElem?_cons_succ,List.getElem?_append_left inside,
          List.getElem?_eq_getElem inside,same]
    · obtain failed | ⟨_,_,made⟩ := bind_error.mp failed
      · obtain ⟨cause,position,token⟩ := (tokenEntry_judged content _ run.length).placed failed
        exact ⟨tokenOf content,run.length,⟨after,whole⟩,List.cons_ne_nil _ _,sound,token,position,fun _ => rfl,
          fun nested => absurd nested cause⟩
      · cases made

theorem Places.behind {run content after : List Char} (plain : Plain run) (inside : Plain content) {entry : Entry}
    (meaning : tokenEntry tables content run.length = .ok entry) {error : ParseError} {front shown : List Char}
    {position : Nat} (places : Places tables after error front shown position) :
    Places tables (run ++ tokenOf content ++ after)
      ⟨error.cause,some (position + (run ++ tokenOf content).length),error.token⟩ (run ++ tokenOf content ++ front)
      shown (position + (run ++ tokenOf content).length) := by
  obtain ⟨⟨back,rfl⟩,filled,⟨entries,sound⟩,token,_,first,nested⟩ := places
  generalize size : (run ++ tokenOf content).length = count
  refine ⟨⟨back,by simp⟩,filled,⟨literal run ++ entry :: entries,?_⟩,token,rfl,fun other => ?_,fun brace => ?_⟩
  · rw [entriesFrom_piece plain inside,Nat.zero_add,meaning,size,entriesFrom_behind,sound]
    rfl
  · rw [List.length_append,size,first other,Nat.add_comm]
  · obtain ⟨later,within,here⟩ := nested brace
    refine ⟨?_,?_,?_⟩
    · rw [List.length_append,size]
      omega
    · rw [List.length_append,size]
      omega
    · rw [← size,List.getElem?_append_right (Nat.le_add_left _ _),Nat.add_sub_cancel]
      exact here

theorem entriesFrom_places {text : List Char} {error : ParseError}
    (failed : entriesFrom tables 0 text = .error (.parse error)) :
    ∃ front shown position, Places tables text error front shown position := by
  induction size : text.length using Nat.strongRecOn generalizing text error with
  | ind length ih =>
    rcases text_cases text with plain | ⟨run,after,plain,rfl⟩ | ⟨run,body,plain,rfl⟩
    · rw [entriesFrom_plain plain] at failed
      cases failed
    · rw [entriesFrom_close plain,Nat.zero_add] at failed
      cases failed
      exact ⟨run,['\x7d'],run.length,⟨after,by simp⟩,nofun,⟨_,entriesFrom_plain plain⟩,rfl,rfl,fun _ => rfl,nofun⟩
    · have opened := failed
      rw [entriesFrom_open plain,Nat.zero_add] at opened
      rcases bind_error.mp opened with first | ⟨⟨entry,after⟩,reading,_⟩
      · obtain ⟨shown,position,places⟩ := token_places plain first
        exact ⟨run,shown,position,places⟩
      · obtain ⟨content,rfl,inside,meaning⟩ := token_split.mp reading
        rw [← tokenOf_body] at failed size ⊢
        rw [entriesFrom_piece plain inside,Nat.zero_add,entriesFrom_behind] at failed
        rcases bind_error.mp failed with first | ⟨_,_,failed⟩
        · cases first.symm.trans meaning
        rcases bind_error.mp failed with later | ⟨_,_,made⟩
        · obtain ⟨fault,refused,same⟩ := mapError_error.mp later
          obtain ⟨inner,rfl⟩ := Fault.behind_parse same
          have shorter : after.length < length := size ▸ piece_shorter run content after
          obtain ⟨front,shown,position,places⟩ := ih _ shorter refused rfl
          have whole := places.behind plain inside meaning
          rw [← Fault.behind_placed places.placed same] at whole
          exact ⟨_,_,_,whole⟩
        · cases made

end

-- A script that is refused is refused at its first fault: the token that is named stands in the
-- script, the position lies within it, and all before it is a script.
theorem parse_refused (tables : TableSet) {script : String} {error : ParseError}
    (failed : parse tables script = .error (.parse error)) :
    ∃ (front token back : String) (position : Nat), script = front ++ token ++ back ∧ token ≠ "" ∧
      error.token = some token ∧ error.position = some position ∧
      front.length ≤ position ∧ position < front.length + token.length ∧
      (error.cause ≠ .nestedOpen → position = front.length) ∧
      (error.cause = .nestedOpen → front.length < position ∧ script.toList[position]? = some '\x7b') ∧
      ∃ entries, parse tables front = .ok entries := by
  obtain ⟨front,token,position,⟨back,split⟩,filled,sound,shown,placed,first,nested⟩ := entriesFrom_places failed
  have inside : front.length ≤ position ∧ position < front.length + token.length := by
    by_cases brace : error.cause = .nestedOpen
    · obtain ⟨after,before,_⟩ := nested brace
      exact ⟨Nat.le_of_lt after,before⟩
    · rw [first brace]
      exact ⟨Nat.le_refl _,Nat.lt_add_of_pos_right (List.length_pos_iff.mpr filled)⟩
  refine ⟨String.ofList front,String.ofList token,String.ofList back,position,?_,by simpa using filled,shown,placed,?_⟩
  · rw [← String.toList_inj,split]
    simp
  · simp only [String.length_ofList,parse,String.toList_ofList]
    refine ⟨inside.1,inside.2,first,fun brace => ?_,sound⟩
    obtain ⟨after,_,here⟩ := nested brace
    exact ⟨after,here⟩

theorem parse_refused_sample :
    parse TableSet.sample "a\x7bVII\x7d\x7b:de\x7blay 1\x7d" =
        .error (.parse ⟨.nestedOpen,some 10,some "\x7b:de\x7blay 1\x7d"⟩) ∧
      ∃ front back : String, "a\x7bVII\x7d\x7b:de\x7blay 1\x7d" = front ++ "\x7b:de\x7blay 1\x7d" ++ back ∧
        front.length < 10 ∧ 10 < front.length + "\x7b:de\x7blay 1\x7d".length ∧
        "a\x7bVII\x7d\x7b:de\x7blay 1\x7d".toList[10]? = some '\x7b' ∧
        ∃ entries, parse TableSet.sample front = .ok entries := by
  have failed : parse TableSet.sample "a\x7bVII\x7d\x7b:de\x7blay 1\x7d" =
      .error (.parse ⟨.nestedOpen,some 10,some "\x7b:de\x7blay 1\x7d"⟩) := by decide +kernel
  obtain ⟨front,token,back,position,split,_,shown,placed,_,within,_,nested,sound⟩ :=
    parse_refused TableSet.sample failed
  cases shown
  cases placed
  exact ⟨failed,front,back,split,(nested rfl).1,within,(nested rfl).2,sound⟩

end GameText.Script
