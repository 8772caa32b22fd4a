import GameText.Proofs.Wire.Stumble

namespace GameText.Wire
open Outcome

section
variable {tables : TableSet} {data : Bytes}

-- The bytes of a message that a walk goes over without coming to a row of real width.
inductive Clear (tables : TableSet) : Bytes → Prop where
  | ended {head : UInt8} (terminator : tables.terminator = head.toNat) : Clear tables [head]
  | token {head : UInt8} {more rest : Bytes} (going : tables.terminator ≠ head.toNat) (firm : Firm tables head)
      (length : tokenLength tables head = more.length + 1) (further : Clear tables rest) :
      Clear tables (head :: (more ++ rest))

-- A walk that comes to such a row, with bytes behind the argument.
inductive Trips (tables : TableSet) : Bytes → Prop where
  | here {head : UInt8} {rest : Bytes} {row : CommandRow} (going : tables.terminator ≠ head.toNat)
      (claimed : tables.commands.byOpcode? head.toNat = some row) (real : row.isWhole = false)
      (more : row.argumentSize < rest.length) : Trips tables (head :: rest)
  | later {head : UInt8} {more rest : Bytes} (going : tables.terminator ≠ head.toNat) (firm : Firm tables head)
      (length : tokenLength tables head = more.length + 1) (further : Trips tables rest) :
      Trips tables (head :: (more ++ rest))

theorem Clear.meets {bytes behind : Bytes} {row : CommandRow} (consistent : tables.Consistent)
    (clear : Clear tables bytes) : ¬ Meets tables bytes row behind := by
  intro meets
  induction meets with
  | here going claimed real full =>
    cases clear with
    | ended terminator => exact going terminator
    | token _ firm => cases real.symm.trans (firm _ claimed)
  | @later token head more rest behind row going firm spelled _ ih =>
    obtain ⟨_,_,same,length,_⟩ := spelled_named consistent spelled 0
    cases same
    generalize whole : head :: (more ++ rest) = bytes at clear
    cases clear with
    | ended terminator => exact going ((List.cons.inj whole).1 ▸ terminator)
    | @token _ other behind' _ _ size further =>
      obtain ⟨rfl,split⟩ := List.cons.inj whole
      obtain ⟨_,rfl⟩ := List.append_inj split (by omega)
      exact ih further

theorem Clear.extent {bytes : Bytes} (clear : Clear tables bytes) : Extent tables bytes := by
  induction clear with
  | ended terminator => exact .ended terminator
  | token going _ length _ ih => exact .token going length ih

theorem Extent.clear (whole : ∀ row ∈ tables.commands.rows, row.isWhole = true) {bytes : Bytes}
    (extent : Extent tables bytes) : Clear tables bytes := by
  induction extent with
  | ended terminator => exact .ended terminator
  | token going length _ ih =>
    exact .token going (fun row claimed => whole row (CommandTable.byOpcode_mem claimed).1) length ih

section
variable (advancing : Advancing tables) {position : Nat} {head : UInt8} {rest : Bytes}
  (here : data.drop position = head :: rest) (going : tables.terminator ≠ head.toNat)
include advancing here going

theorem scan_real {row : CommandRow} (claimed : tables.commands.byOpcode? head.toNat = some row)
    (real : row.isWhole = false) (turns : Nat) :
    scanWander tables data (turns + 1) position = strand data (position + 1 + row.argumentSize : Nat) := by
  obtain ⟨byte,size,_⟩ := drop_cons here
  rw [scanWander,if_neg (by omega)]
  simp only [byte,if_neg (Ne.symm going),claimed,real,advancing.width claimed]
  rfl

theorem scan_firm (firm : Firm tables head) (turns : Nat) : scanWander tables data (turns + 1) position =
    scanWander tables data turns (position + tokenLength tables head : Nat) := by
  obtain ⟨byte,size,_⟩ := drop_cons here
  rw [scanWander,if_neg (by omega),tokenLength]
  simp only [byte,if_neg (Ne.symm going)]
  cases claimed : tables.commands.byOpcode? head.toNat with
  | some row =>
    simp only [firm row claimed,if_true,advancing.width claimed]
    rw [← Nat.add_assoc]
    rfl
  | none => rfl

end

theorem scan_ended {position : Nat} {head : UInt8} {rest : Bytes} (here : data.drop position = head :: rest)
    (ended : tables.terminator = head.toNat) (turns : Nat) :
    scanWander tables data (turns + 1) position = .ok (position + 1 : Nat) := by
  obtain ⟨byte,size,_⟩ := drop_cons here
  rw [scanWander,if_neg (by omega)]
  simp only [byte,if_pos ended.symm]
  rfl

theorem scanWander_advancing (advancing : Advancing tables) {turns position : Nat}
    (enough : data.length ≤ position + turns) :
    (Trips tables (data.drop position) ∧ scanWander tables data (turns + 1) position = .error .notAnInteger) ∨
    (∃ error, scanWander tables data (turns + 1) position = .error (.encoding error)) ∨
    ∃ bytes rest, data.drop position = bytes ++ rest ∧ Clear tables bytes ∧
      scanWander tables data (turns + 1) position = .ok (position + bytes.length : Nat) := by
  have past : ∀ {place : Nat}, data.length ≤ place → ∀ count,
      ∃ error, scanWander tables data (count + 1) place = .error (.encoding error) := by
    intro place beyond count
    rw [scanWander,if_pos (by omega)]
    exact ⟨_,rfl⟩
  induction turns generalizing position with
  | zero => exact .inr (.inl (past enough 0))
  | succ turns ih =>
    cases here : data.drop position with
    | nil => exact .inr (.inl (past (List.drop_eq_nil_iff.mp here) _))
    | cons head rest =>
      obtain ⟨_,size,_⟩ := drop_cons here
      by_cases ended : tables.terminator = head.toNat
      · exact .inr (.inr ⟨[head],rest,rfl,.ended ended,scan_ended here ended _⟩)
      by_cases firm : Firm tables head
      · rw [scan_firm advancing here ended firm]
        by_cases enough : tokenLength tables head - 1 ≤ rest.length
        · obtain ⟨more,tail,rfl,length⟩ := token_cut enough
          rw [length]
          rcases @ih (position + (more.length + 1)) (by omega) with ⟨trips,failed⟩ | failed | ⟨bytes,behind,found,clear,ends⟩
          · exact .inl ⟨.later ended firm length (drop_token here ▸ trips),failed⟩
          · exact .inr (.inl failed)
          · refine .inr (.inr ⟨_,behind,?_,.token ended firm length clear,?_⟩)
            · rw [List.cons_append,List.append_assoc,← found,drop_token here]
            · rw [ends,List.length_cons,List.length_append]
              exact congrArg (fun place : Nat => Except.ok (place : Int)) (by omega)
        · exact .inr (.inl (past (by omega) turns))
      · simp only [Firm,not_forall,Bool.not_eq_true] at firm
        obtain ⟨row,claimed,real⟩ := firm
        rw [scan_real advancing here ended claimed real,strand]
        by_cases more : row.argumentSize < rest.length
        · exact .inl ⟨.here ended claimed real more,if_neg (by omega)⟩
        · exact .inr (.inl ⟨_,if_pos (by omega)⟩)

theorem scanWander_trips (advancing : Advancing tables) {bytes : Bytes} (trips : Trips tables bytes) {turns position : Nat}
    (here : data.drop position = bytes) (enough : data.length ≤ position + turns) :
    scanWander tables data (turns + 1) position = .error .notAnInteger := by
  induction trips generalizing turns position with
  | here going claimed real more =>
    obtain ⟨_,size,_⟩ := drop_cons here
    rw [scan_real advancing here going claimed real,strand,if_neg (by omega)]
  | @later head more rest going firm length _ ih =>
    obtain ⟨_,size,_⟩ := drop_cons here
    rw [List.length_append] at size
    obtain ⟨turns,rfl⟩ := Nat.exists_eq_succ_of_ne_zero (show turns ≠ 0 by omega)
    rw [scan_firm advancing here going firm,length]
    exact ih (drop_token here) (by omega)

theorem Trips.real {bytes : Bytes} (trips : Trips tables bytes) : tables.commands.isForward ≠ true := by
  intro forward
  induction trips with
  | here _ claimed real =>
    cases real.symm.trans ((forward_exact.mp forward).2 _ (CommandTable.byOpcode_mem claimed).1)
  | later _ _ _ _ ih => exact ih

theorem scan_trips (advancing : Advancing tables) {offset : Nat} (trips : Trips tables (data.drop offset)) :
    scan tables data offset = .error .notAnInteger := by
  rw [scan,if_neg trips.real,turns]
  exact scanWander_trips advancing trips rfl (by omega)

theorem scan_advancing (advancing : Advancing tables) (data : Bytes) (offset : Nat) :
    Fails (fun fault => fault.IsEncoding ∨ fault = .notAnInteger ∧ Trips tables (data.drop offset))
      (scan tables data offset) ∧
    ∀ after, scan tables data offset = .ok after →
      ∃ bytes rest, data.drop offset = bytes ++ rest ∧ Clear tables bytes ∧ after = Int.ofNat (offset + bytes.length) := by
  by_cases forward : tables.commands.isForward = true
  · refine ⟨(scan_fails forward data offset).imp fun _ => .inl,fun after found => ?_⟩
    obtain ⟨bytes,rest,split,extent,same⟩ := (scan_forward forward).mp found
    exact ⟨bytes,rest,split,extent.clear (forward_exact.mp forward).2,same⟩
  · rw [scan,if_neg forward,turns]
    rcases scanWander_advancing advancing (show data.length ≤ offset + 2 * data.length by omega) with
      ⟨trips,failed⟩ | ⟨error,failed⟩ | ⟨bytes,rest,split,clear,ends⟩
    · rw [failed]
      exact ⟨.error (.inr ⟨rfl,trips⟩),fun _ found => by cases found⟩
    · rw [failed]
      exact ⟨.error (.inl ⟨error,rfl⟩),fun _ found => by cases found⟩
    · rw [ends]
      refine ⟨.ok _,fun after found => ⟨bytes,rest,split,clear,?_⟩⟩
      cases found
      rfl

-- Over the bytes of a message that are clear a reader goes from left to right, whatever it makes of them.
theorem wander_clear (advancing : Advancing tables) {bytes : Bytes} (clear : Clear tables bytes) {rest : Bytes}
    {turns position : Nat} (here : data.drop position = bytes ++ rest) (enough : data.length ≤ position + turns) :
    wander tables data (turns + 1) position = placed (tokensFrom tables position (bytes ++ rest)) := by
  induction clear generalizing turns position with
  | ended terminator => exact wander_ended here terminator _
  | @token head more tail going firm length further ih =>
    rw [List.cons_append,List.append_assoc] at here ⊢
    obtain ⟨_,size,_⟩ := drop_cons here
    rw [List.length_append] at size
    obtain ⟨turns,rfl⟩ := Nat.exists_eq_succ_of_ne_zero (show turns ≠ 0 by omega)
    rw [read_cut going length]
    exact wander_token (turn_cut advancing here going firm length) (ih (drop_token here) (by omega))

theorem wander_ok (advancing : Advancing tables) {turns position : Nat} (enough : data.length ≤ position + turns)
    {tokens : List Token} {after : Int} (walked : wander tables data (turns + 1) position = .ok (tokens,after)) :
    ∃ bytes rest, data.drop position = bytes ++ rest ∧ Clear tables bytes ∧ after = Int.ofNat (position + bytes.length) := by
  induction turns generalizing position tokens with
  | zero =>
    rw [Nat.add_zero] at enough
    rw [wander_past enough,List.drop_eq_nil_of_le enough,tokensFrom] at walked
    cases walked
  | succ turns ih =>
    cases here : data.drop position with
    | nil =>
      rw [wander_past (List.drop_eq_nil_iff.mp here),here,tokensFrom] at walked
      cases walked
    | cons head rest =>
      by_cases ended : tables.terminator = head.toNat
      · rw [wander_ended here ended,tokensFrom,if_pos ended.symm] at walked
        cases walked
        exact ⟨[head],rest,rfl,.ended ended,rfl⟩
      rcases turn_cases advancing here ended with ⟨cause,stuck,_⟩ | ⟨more,tail,rfl,length,firm⟩ | ⟨row,claimed,real,full⟩
      · cases (wander_fail stuck _).symm.trans walked
      · rw [wander,turn_cut advancing here ended firm length] at walked
        obtain ⟨turn,named,walked⟩ := bind_ok.mp walked
        obtain ⟨token,_,rfl⟩ := map_ok.mp named
        obtain ⟨⟨others,stop⟩,further,made⟩ := bind_ok.mp walked
        cases made
        obtain ⟨bytes,behind,found,clear,rfl⟩ := ih (by omega) further
        refine ⟨_,behind,?_,.token ended firm length clear,?_⟩
        · rw [List.cons_append,List.append_assoc,← found,drop_token here]
        · rw [List.length_cons,List.length_append]
          exact congrArg Int.ofNat (by omega)
      · rw [wander,turn_real advancing here ended claimed real full] at walked
        have halts := (halted_bind _ _ _ _).symm.trans walked
        unfold halted at halts
        split at halts <;> cases halts

theorem scanWander_clear (advancing : Advancing tables) {bytes : Bytes} (clear : Clear tables bytes) {rest : Bytes}
    {turns position : Nat} (here : data.drop position = bytes ++ rest) (enough : data.length ≤ position + turns) :
    scanWander tables data (turns + 1) position = .ok (position + bytes.length : Nat) := by
  induction clear generalizing turns position with
  | ended terminator => exact scan_ended here terminator _
  | @token head more tail going firm length _ ih =>
    rw [List.cons_append,List.append_assoc] at here
    obtain ⟨_,size,_⟩ := drop_cons here
    rw [List.length_append] at size
    obtain ⟨turns,rfl⟩ := Nat.exists_eq_succ_of_ne_zero (show turns ≠ 0 by omega)
    rw [scan_firm advancing here going firm,length,ih (drop_token here) (by omega),List.length_cons,List.length_append]
    exact congrArg (fun place : Nat => Except.ok (place : Int)) (by omega)

-- What is found at an offset: bytes of some shape at the front of what stands there, with the
-- offset behind them.
def FoundAt (shape : Bytes → Prop) (data : Bytes) (offset : Nat) (after : Int) : Prop :=
  ∃ bytes rest, data.drop offset = bytes ++ rest ∧ shape bytes ∧ after = Int.ofNat (offset + bytes.length)

theorem scan_found (advancing : Advancing tables) {offset : Nat} {after : Int} :
    scan tables data offset = .ok after ↔ FoundAt (Clear tables) data offset after := by
  refine ⟨(scan_advancing advancing data offset).2 after,?_⟩
  rintro ⟨bytes,rest,split,clear,rfl⟩
  by_cases forward : tables.commands.isForward = true
  · exact (scan_forward forward).mpr ⟨bytes,rest,split,clear.extent,rfl⟩
  · rw [scan,if_neg forward,turns]
    exact scanWander_clear advancing clear split (by omega)

theorem read_clear (advancing : Advancing tables) {bytes rest : Bytes} (clear : Clear tables bytes) {offset : Nat}
    (split : data.drop offset = bytes ++ rest) : read tables data offset =
      (tokensFrom tables offset (bytes ++ rest)).map fun found => (entriesOf found.1,Int.ofNat found.2) := by
  rw [read,tokensAt_turns,turns,wander_clear advancing clear split (by omega)]
  cases tokensFrom tables offset (bytes ++ rest) <;> rfl

theorem read_ok (advancing : Advancing tables) {offset : Nat} {entries : Message} {after : Int} :
    read tables data offset = .ok (entries,after) ↔ FoundAt (fun bytes => Clear tables bytes ∧ ∃ tokens,
      tokensFrom tables offset (data.drop offset) = .ok (tokens,offset + bytes.length) ∧ entries = entriesOf tokens)
      data offset after := by
  constructor
  · intro reading
    have walked := reading
    rw [read,tokensAt_turns,turns] at walked
    obtain ⟨⟨_,_⟩,walked,made⟩ := bind_ok.mp walked
    cases made
    obtain ⟨bytes,rest,split,clear,rfl⟩ := wander_ok advancing (by omega) walked
    rw [read_clear advancing clear split] at reading
    obtain ⟨⟨tokens,stop⟩,found,same⟩ := map_ok.mp reading
    obtain ⟨made,place⟩ := Prod.mk.inj same
    obtain rfl : stop = offset + bytes.length := Int.ofNat.inj place
    exact ⟨bytes,rest,split,⟨clear,tokens,split ▸ found,made.symm⟩,rfl⟩
  · rintro ⟨bytes,rest,split,⟨clear,tokens,found,rfl⟩,rfl⟩
    rw [read_clear advancing clear split,← split,found]
    rfl

end
end GameText.Wire
