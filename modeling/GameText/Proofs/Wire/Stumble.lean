import GameText.Proofs.Wire.Reading
import GameText.Proofs.Wire.Walk

namespace GameText.Wire
open Outcome

-- A reading that comes to a row of real width, with as many bytes as the row asks for and
-- what stands behind these.
inductive Meets (tables : TableSet) : Bytes → CommandRow → Bytes → Prop where
  | here {head : UInt8} {rest : Bytes} {row : CommandRow} (going : tables.terminator ≠ head.toNat)
      (claimed : tables.commands.byOpcode? head.toNat = some row) (real : row.isWhole = false)
      (full : row.argumentSize ≤ rest.length) : Meets tables (head :: rest) row (rest.drop row.argumentSize)
  | later {token : Token} {head : UInt8} {more rest behind : Bytes} {row : CommandRow}
      (going : tables.terminator ≠ head.toNat) (firm : Firm tables head) (spelled : Spelled tables token (head :: more))
      (further : Meets tables rest row behind) : Meets tables (head :: (more ++ rest)) row behind

-- The argument of such a row is not cut out, and behind a row without one no byte is read.
def Stumbles (tables : TableSet) (data : Bytes) : Prop :=
  ∃ row behind, Meets tables data row behind ∧ (row.hasArgument = true ∨ behind ≠ [])

-- An entry of no row of real width.
def Whole (tables : TableSet) (entry : Entry) : Prop :=
  ∀ row, tables.commands.rowFor? entry.command = some row → row.isWhole = true

-- How a reading ends that comes to such a row.
def halted {α : Type} (data : Bytes) (row : CommandRow) (behind : Bytes) : Except Fault α :=
  if row.hasArgument = true ∨ behind ≠ [] then .error .notAnInteger else fail (.missingTerminator .real) data.length

theorem halted_bind {α β : Type} (data : Bytes) (row : CommandRow) (behind : Bytes) (next : α → Except Fault β) :
    halted data row behind >>= next = halted data row behind := by
  unfold halted
  split <;> rfl

theorem Meets.row {tables : TableSet} {data behind : Bytes} {row : CommandRow} (meets : Meets tables data row behind) :
    row ∈ tables.commands.rows ∧ row.isWhole = false := by
  induction meets with
  | here _ claimed real => exact ⟨(CommandTable.byOpcode_mem claimed).1,real⟩
  | later _ _ _ _ ih => exact ih

section
variable {tables : TableSet} {data : Bytes}

theorem spelled_whole (consistent : tables.Consistent) {entry : Entry} {head : UInt8} {more : Bytes}
    (firm : Firm tables head) (spelled : Spelled tables (.entry entry) (head :: more)) : Whole tables entry := by
  have claimed : ∀ {row : CommandRow}, row ∈ tables.commands.rows → row.opcode = head.toNat →
      ∀ other, tables.commands.rowFor? row.command = some other → other.isWhole = true := by
    intro row member opcode other found
    cases found.symm.trans (consistent.commands.rowFor member)
    exact firm row (byOpcode_head consistent member opcode)
  cases spelled with
  | complex =>
    intro row found
    obtain ⟨member,same⟩ := CommandTable.rowFor_mem found
    exact absurd (congrArg Command.payload same) (consistent.commands.payloads row member).1
  | lineBreak member opcode command =>
    intro row found
    exact claimed member opcode row (command ▸ found)
  | bare member opcode fits => exact claimed member opcode
  | argument member opcode fits width => exact claimed member opcode

theorem turn_real (advancing : Advancing tables) {position : Nat} {head : UInt8} {rest : Bytes}
    (here : data.drop position = head :: rest) (going : tables.terminator ≠ head.toNat) {row : CommandRow}
    (claimed : tables.commands.byOpcode? head.toNat = some row) (real : row.isWhole = false)
    (full : row.argumentSize ≤ rest.length) :
    turn tables data position = halted data row (rest.drop row.argumentSize) := by
  obtain ⟨_,size,_⟩ := drop_cons here
  rw [turn_row advancing here (Ne.symm going) claimed,if_neg (Nat.not_lt.mpr full),if_neg (by simp [real]),halted]
  by_cases has : row.hasArgument = true
  · rw [if_pos has,if_pos (.inl has)]
  · rw [if_neg has,strand]
    by_cases last : rest.length ≤ row.argumentSize
    · have ended : rest.drop row.argumentSize = [] := List.drop_eq_nil_of_le last
      rw [if_pos (by omega),if_neg (by simp [has,ended]),show position + 1 + row.argumentSize = data.length by omega]
    · have more : rest.drop row.argumentSize ≠ [] := by simpa using last
      rw [if_neg (by omega),if_pos (.inr more)]

-- What one turn does with a token: the data cuts it short, the reader goes over it, or it is
-- one of real width.
theorem turn_cases (advancing : Advancing tables) {position : Nat} {head : UInt8} {rest : Bytes}
    (here : data.drop position = head :: rest) (going : tables.terminator ≠ head.toNat) :
    (∃ cause, turn tables data position = fail cause position ∧
      tokensFrom tables position (head :: rest) = fail cause position) ∨
    (∃ more tail, rest = more ++ tail ∧ tokenLength tables head = more.length + 1 ∧ Firm tables head) ∨
    ∃ row, tables.commands.byOpcode? head.toNat = some row ∧ row.isWhole = false ∧ row.argumentSize ≤ rest.length := by
  by_cases enough : tokenLength tables head - 1 ≤ rest.length
  · by_cases firm : Firm tables head
    · obtain ⟨more,tail,split,length⟩ := token_cut enough
      exact .inr (.inl ⟨more,tail,split,length,firm⟩)
    · simp only [Firm,not_forall,Bool.not_eq_true] at firm
      obtain ⟨row,claimed,real⟩ := firm
      rw [tokenLength,claimed,Nat.add_sub_cancel_left] at enough
      exact .inr (.inr ⟨row,claimed,real,enough⟩)
  · exact .inl (turn_short advancing here going (Nat.lt_of_not_le enough))

-- What a reader with some turns finds is what a reading from left to right finds, which takes
-- no token of a row of real width.
structure Straight (tables : TableSet) (data : Bytes) (turns position : Nat) : Prop where
  same : wander tables data turns position = placed (tokensFrom tables position (data.drop position))
  whole : ∀ tokens after, tokensFrom tables position (data.drop position) = .ok (tokens,after) →
    ∀ entry, .entry entry ∈ tokens → Whole tables entry

theorem straight_fail {turns position : Nat} {cause : EncodingCause} (stuck : turn tables data position = fail cause position)
    (reading : tokensFrom tables position (data.drop position) = fail cause position) :
    Straight tables data (turns + 1) position := by
  refine ⟨?_,fun tokens after found => ?_⟩
  · rw [reading]
    exact wander_fail stuck turns
  · cases reading.symm.trans found

theorem straight_past {turns position : Nat} (past : data.length ≤ position) : Straight tables data (turns + 1) position := by
  have stuck : turn tables data position = fail (.missingTerminator .whole) position := by
    rw [turn,if_pos (by omega)]
  refine straight_fail stuck ?_
  rw [List.drop_eq_nil_of_le past,tokensFrom]

theorem straight_ended {turns position : Nat} {head : UInt8} {rest : Bytes} (here : data.drop position = head :: rest)
    (ended : tables.terminator = head.toNat) : Straight tables data (turns + 1) position := by
  refine ⟨(wander_ended here ended turns).trans (by rw [here]),fun tokens after found => ?_⟩
  rw [here,tokensFrom,if_pos ended.symm] at found
  cases found
  simp

theorem straight_token {turns position next : Nat} {token : Token}
    (step : turn tables data position = .ok (.token token next))
    (reading : tokensFrom tables position (data.drop position) =
      tokensFrom tables next (data.drop next) >>= fun found => .ok (token :: found.1,found.2))
    (whole : ∀ entry, token = .entry entry → Whole tables entry) (further : Straight tables data turns next) :
    Straight tables data (turns + 1) position := by
  refine ⟨?_,fun tokens after found => ?_⟩
  · rw [reading,wander,step]
    change (wander tables data turns next >>= _) = _
    rw [further.same]
    cases tokensFrom tables next (data.drop next) <;> rfl
  · rw [reading] at found
    obtain ⟨⟨others,stop⟩,rest,made⟩ := bind_ok.mp found
    cases made
    intro entry member
    rcases List.mem_cons.mp member with first | other
    · exact whole entry first.symm
    · exact further.whole _ _ rest entry other

-- With a turn for every byte that is left, a reader that is never sent back goes from left to
-- right, up to a row of real width.
theorem wander_advancing (consistent : tables.Consistent) (advancing : Advancing tables) {turns position : Nat}
    (enough : data.length ≤ position + turns) :
    (∃ row behind, Meets tables (data.drop position) row behind ∧
      wander tables data (turns + 1) position = halted data row behind) ∨
    Straight tables data (turns + 1) position := by
  induction turns generalizing position with
  | zero => exact .inr (straight_past enough)
  | succ turns ih =>
    cases here : data.drop position with
    | nil => exact .inr (straight_past (List.drop_eq_nil_iff.mp here))
    | cons head rest =>
      by_cases ended : tables.terminator = head.toNat
      · exact .inr (straight_ended here ended)
      rcases turn_cases advancing here ended with ⟨cause,stuck,stopped⟩ | ⟨more,tail,rfl,length,firm⟩ | ⟨row,claimed,real,full⟩
      · exact .inr (straight_fail stuck (here ▸ stopped))
      · have step := turn_cut advancing here ended firm length
        have taken := @read_cut tables head more tail position ended length
        rcases @named_cases _ consistent position _ _ ended length with ⟨token,spelled,name⟩ | ⟨_,name⟩
        · rw [name] at step taken
          rcases @ih (position + (more.length + 1)) (by omega) with ⟨row,behind,meets,halts⟩ | straight
          · refine .inl ⟨row,behind,.later ended firm spelled (drop_token here ▸ meets),?_⟩
            rw [wander,step]
            change (wander tables data (turns + 1) _ >>= _) = _
            rw [halts]
            exact halted_bind _ _ _ _
          · refine .inr (straight_token step ?_ (fun entry same => spelled_whole consistent firm (same ▸ spelled)) straight)
            rw [here,taken,drop_token here]
            rfl
        · rw [name] at step taken
          exact .inr (straight_fail step (here ▸ taken))
      · refine .inl ⟨row,_,.here ended claimed real full,?_⟩
        rw [wander,turn_real advancing here ended claimed real full]
        exact halted_bind _ _ _ _

theorem wander_meets (consistent : tables.Consistent) (advancing : Advancing tables) {bytes behind : Bytes}
    {row : CommandRow} (meets : Meets tables bytes row behind) {turns position : Nat}
    (here : data.drop position = bytes) (enough : data.length ≤ position + turns) :
    wander tables data (turns + 1) position = halted data row behind := by
  induction meets generalizing turns position with
  | here going claimed real full =>
    rw [wander,turn_real advancing here going claimed real full]
    exact halted_bind _ _ _ _
  | @later token head more rest behind row going firm spelled _ ih =>
    obtain ⟨_,size,_⟩ := drop_cons here
    obtain ⟨_,_,same,length,name⟩ := spelled_named consistent spelled position
    cases same
    rw [List.length_append] at size
    obtain ⟨turns,rfl⟩ := Nat.exists_eq_succ_of_ne_zero (show turns ≠ 0 by omega)
    rw [wander,turn_cut advancing here going firm length,name]
    change (wander tables data (turns + 1) _ >>= _) = _
    rw [ih (drop_token here) (by omega)]
    exact halted_bind _ _ _ _

theorem tokensAt_turns (data : Bytes) (offset : Nat) : tokensAt tables data offset = wander tables data (turns data) offset := by
  by_cases forward : tables.commands.isForward = true
  · exact tokensAt_wander forward data offset
  · exact if_neg forward

theorem read_meets (consistent : tables.Consistent) (advancing : Advancing tables) {offset : Nat} {row : CommandRow}
    {behind : Bytes} (meets : Meets tables (data.drop offset) row behind) :
    read tables data offset = halted data row behind := by
  rw [read,tokensAt_turns,turns,wander_meets consistent advancing meets rfl (by omega)]
  exact halted_bind _ _ _ _

theorem read_stumbles (consistent : tables.Consistent) (advancing : Advancing tables) {offset : Nat}
    (stumbles : Stumbles tables (data.drop offset)) : read tables data offset = .error .notAnInteger := by
  obtain ⟨row,behind,meets,stops⟩ := stumbles
  rw [read_meets consistent advancing meets,halted,if_pos stops]

theorem read_straight (consistent : tables.Consistent) (advancing : Advancing tables) {offset : Nat} {entries : Message}
    {after : Int} (reading : read tables data offset = .ok (entries,after)) :
    ∃ tokens stop, tokensFrom tables offset (data.drop offset) = .ok (tokens,stop) ∧ entries = entriesOf tokens ∧
      after = Int.ofNat stop ∧ ∀ entry, .entry entry ∈ tokens → Whole tables entry := by
  rw [read,tokensAt_turns,turns] at reading
  obtain ⟨_,walked,made⟩ := bind_ok.mp reading
  cases made
  rcases wander_advancing consistent advancing (show data.length ≤ offset + 2 * data.length by omega) with
    ⟨row,behind,_,halts⟩ | straight
  · have failed := walked.symm.trans halts
    unfold halted at failed
    split at failed <;> cases failed
  · obtain ⟨⟨tokens,stop⟩,found,same⟩ := map_ok.mp (straight.same.symm.trans walked)
    cases same
    exact ⟨tokens,stop,found,rfl,rfl,straight.whole _ _ found⟩

theorem read_unmet (consistent : tables.Consistent) (advancing : Advancing tables) {offset : Nat}
    (unmet : ∀ row behind, ¬ Meets tables (data.drop offset) row behind) {fault : Fault}
    (failed : read tables data offset = .error fault) :
    ∃ tokens front back cause, data.drop offset = front ++ back ∧ Taken tables tokens front ∧ Stuck tables back cause ∧
      fault = .encoding ⟨cause,some ((offset + front.length : Nat) : Int)⟩ := by
  rw [read,tokensAt_turns,turns] at failed
  rcases wander_advancing consistent advancing (show data.length ≤ offset + 2 * data.length by omega) with
    ⟨row,behind,meets,_⟩ | straight
  · exact absurd meets (unmet row behind)
  · rw [straight.same] at failed
    cases reading : tokensFrom tables offset (data.drop offset) with
    | ok found =>
      rw [reading] at failed
      cases failed
    | error other =>
      rw [reading] at failed
      cases failed
      exact read_stuck consistent reading

theorem read_fails (consistent : tables.Consistent) (advancing : Advancing tables) (data : Bytes) (offset : Nat) :
    Fails (fun fault => fault.IsEncoding ∨ fault = .notAnInteger ∧ Stumbles tables (data.drop offset))
      (read tables data offset) := by
  intro fault failed
  by_cases met : ∃ row behind, Meets tables (data.drop offset) row behind
  · obtain ⟨row,behind,meets⟩ := met
    rw [read_meets consistent advancing meets,halted] at failed
    split at failed
    · rename_i stops
      cases failed
      exact .inr ⟨rfl,row,behind,meets,stops⟩
    · cases failed
      exact .inl ⟨_,rfl⟩
  · simp only [not_exists] at met
    obtain ⟨_,_,_,_,_,_,_,rfl⟩ := read_unmet consistent advancing met failed
    exact .inl ⟨_,rfl⟩

theorem decode_stumbles (consistent : tables.Consistent) (advancing : Advancing tables) (stumbles : Stumbles tables data) :
    decode tables data = .error .notAnInteger := by
  have failed := @read_stumbles tables data consistent advancing 0 stumbles
  rw [decode,failed]
  rfl

end
end GameText.Wire
