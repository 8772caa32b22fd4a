import GameText.Proofs.Script.Fault

namespace GameText

-- A failure in a text that has so many more characters before it.
def Fault.behind (count : Nat) : Fault → Fault
  | .parse ⟨cause,some position,token⟩ => .parse ⟨cause,some (position + count),token⟩
  | fault => fault

theorem Fault.behind_other {fault : Fault} (other : ¬ fault.IsParse) (count : Nat) : fault.behind count = fault := by
  cases fault with
  | parse error => exact absurd ⟨error,rfl⟩ other
  | _ => rfl

theorem Fault.behind_parse {fault : Fault} {error : ParseError} {count : Nat} (same : fault.behind count = .parse error) :
    ∃ inner, fault = .parse inner := by
  cases fault with
  | parse inner => exact ⟨inner,rfl⟩
  | _ => cases same

theorem Fault.behind_placed {inner error : ParseError} {position count : Nat} (placed : inner.position = some position)
    (same : (Fault.parse inner).behind count = .parse error) :
    error = ⟨inner.cause,some (position + count),inner.token⟩ := by
  obtain ⟨cause,_,token⟩ := inner
  cases placed
  cases same
  rfl

namespace Script
open Outcome Text
variable {tables : TableSet}

-- What becomes of a token at two places: it is read, but never as a text, it is refused as a
-- whole, or it meets a fault of another kind.
inductive Judged (token : List Char) (place other : Nat) : Except Fault Entry → Except Fault Entry → Prop where
  | read {entry : Entry} (textless : ∀ content, entry ≠ .text content) : Judged token place other (.ok entry) (.ok entry)
  | refused {cause : ParseCause} (whole : cause ≠ .nestedOpen) :
      Judged token place other (fail cause place token) (fail cause other token)
  | broken {fault : Fault} (foreign : ¬ fault.IsParse) : Judged token place other (.error fault) (.error fault)

section
variable {token : List Char} {place other : Nat}

theorem build_judged (command : Command) (data : Option Bytes) :
    Judged token place other (Entry.build command none data) (Entry.build command none data) := by
  have foreign : ∀ error, ¬ (Fault.entry error).IsParse := by
    rintro error ⟨_,same⟩
    cases same
  unfold Entry.build Entry.ofFields
  split
  · exact .broken (foreign _)
  · cases data with
    | none => exact .broken (foreign _)
    | some bytes => exact .read fun _ => Entry.noConfusion
  · split
    · split
      · exact .broken (foreign _)
      · exact .read fun _ => Entry.noConfusion
    · exact .read fun _ => Entry.noConfusion

theorem argumentEntry_judged (row : CommandRow) (argument : List Char) :
    Judged token place other (argumentEntry row argument place token) (argumentEntry row argument other token) := by
  unfold argumentEntry
  split
  · split
    · exact .broken fun ⟨_,same⟩ => nomatch same
    · rename_i value _
      -- The bound and the bytes of an argument fail in the same ways wherever it stands.
      have bounds : ∀ fault, row.argumentBound = .error fault → ¬ fault.IsParse := by
        unfold CommandRow.argumentBound
        rintro fault failed ⟨_,rfl⟩
        grind
      have bytes : ∀ fault, row.argumentBytes value = .error fault → ¬ fault.IsParse := by
        unfold CommandRow.argumentBytes
        rintro fault failed ⟨_,rfl⟩
        grind
      cases bounded : row.argumentBound with
      | error fault => exact .broken (bounds fault bounded)
      | ok bound =>
        change Judged token place other (if _ then _ else _) (if _ then _ else _)
        split
        · exact .refused nofun
        · cases made : row.argumentBytes value with
          | error fault => exact .broken (bytes fault made)
          | ok data => exact build_judged _ _
  · exact .refused nofun

theorem commandEntry_judged (content : List Char) :
    Judged token place other (commandEntry tables content place token) (commandEntry tables content other token) := by
  unfold commandEntry
  split
  · exact .refused nofun
  · dsimp only
    split
    · exact .refused nofun
    · split
      · split
        · exact .refused nofun
        · exact argumentEntry_judged _ _
      · split
        · exact .refused nofun
        · exact build_judged _ _

theorem symbolEntry_judged (content : List Char) :
    Judged token place other (symbolEntry tables content place token) (symbolEntry tables content other token) := by
  unfold symbolEntry
  dsimp only
  split
  · exact .read nofun
  · split
    · unfold Entry.icon
      split
      · exact .broken fun ⟨_,same⟩ => nomatch same
      · exact .read nofun
    · exact .refused nofun

end

theorem tokenEntry_judged (content : List Char) (place other : Nat) :
    Judged (tokenOf content) place other (tokenEntry tables content place) (tokenEntry tables content other) := by
  unfold tokenEntry
  split
  · exact commandEntry_judged _
  · exact symbolEntry_judged _

theorem Judged.behind {token : List Char} {place count : Nat} {first second : Except Fault Entry}
    (judged : Judged token place (place + count) first second) : second = first.mapError (Fault.behind count) := by
  cases judged with
  | read => rfl
  | refused => rfl
  | broken foreign => exact congrArg Except.error (Fault.behind_other foreign count).symm

theorem Judged.textless {token : List Char} {place other : Nat} {first second : Except Fault Entry}
    (judged : Judged token place other first second) {entry : Entry} (made : first = .ok entry) (content : String) :
    entry ≠ .text content := by
  cases judged with
  | read textless =>
    cases made
    exact textless content
  | refused => cases made
  | broken => cases made

theorem tokenEntry_textless {inside : List Char} {position : Nat} {entry : Entry}
    (made : tokenEntry tables inside position = .ok entry) : ∀ content, entry ≠ .text content :=
  (tokenEntry_judged inside position position).textless made

theorem token_behind (count position : Nat) (body : List Char) :
    token tables (position + count) body = (token tables position body).mapError (Fault.behind count) := by
  unfold token
  dsimp only
  split
  · rfl
  · split
    · rename_i nested _
      rw [Nat.add_right_comm position count 1,Nat.add_right_comm (position + 1) count nested]
      rfl
    · rw [mapError_bind,(tokenEntry_judged _ position (position + count)).behind]
      rfl

theorem entriesFrom_behind (count position : Nat) (text : List Char) :
    entriesFrom tables (position + count) text =
      (entriesFrom tables position text).mapError (Fault.behind count) := by
  induction size : text.length using Nat.strongRecOn generalizing position text with
  | ind length ih =>
    rcases text_cases text with plain | ⟨run,after,plain,rfl⟩ | ⟨run,body,plain,rfl⟩
    · rw [entriesFrom_plain plain,entriesFrom_plain plain]
      rfl
    · rw [entriesFrom_close plain,entriesFrom_close plain,Nat.add_right_comm position count]
      rfl
    · rw [entriesFrom_open plain,entriesFrom_open plain,mapError_bind,Nat.add_right_comm position count,token_behind]
      cases reading : token tables (position + run.length) body with
      | error fault => rfl
      | ok read =>
        have shorter := token_shorter (show token tables _ body = .ok (read.1,read.2) from reading)
        have later := ih read.2.length (by rw [← size,List.length_append,List.length_cons]; omega)
          (position + (run.length + 1 + body.length - read.2.length)) read.2 rfl
        rw [Nat.add_right_comm] at later
        change entriesFrom tables _ _ >>= _ = (entriesFrom tables _ _ >>= _).mapError _
        rw [later,mapError_bind]
        rfl

end Script
end GameText
