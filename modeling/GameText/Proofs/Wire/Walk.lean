import GameText.Proofs.Bytes
import GameText.Proofs.Wire.Grammar
import Mathlib.Data.Int.Interval

namespace GameText.Wire
open Outcome
variable {tables : TableSet} {data : Bytes}

-- No row sends the reader back, though a width may be a real number.
def Advancing (tables : TableSet) : Prop := ∀ row ∈ tables.commands.rows, 0 ≤ row.width

instance (tables : TableSet) : Decidable (Advancing tables) :=
  inferInstanceAs (Decidable (∀ row ∈ tables.commands.rows, 0 ≤ row.width))

-- A byte behind which the reader stands at an integer position: the row that it
-- introduces, if there is one, has an integer for its width.
def Firm (tables : TableSet) (head : UInt8) : Prop :=
  ∀ row, tables.commands.byOpcode? head.toNat = some row → row.isWhole = true

theorem forward_exact : tables.commands.isForward = true ↔
    Advancing tables ∧ ∀ row ∈ tables.commands.rows, row.isWhole = true := by
  simp only [CommandTable.isForward,List.all_eq_true,Bool.and_eq_true,decide_eq_true_eq,Advancing,forall_and]

theorem Advancing.width (advancing : Advancing tables) {opcode : Int} {row : CommandRow}
    (found : tables.commands.byOpcode? opcode = some row) : row.width = row.argumentSize :=
  (Int.toNat_of_nonneg (advancing row (CommandTable.byOpcode_mem found).1)).symm

theorem drop_cons {position : Nat} {head : UInt8} {rest : Bytes} (here : data.drop position = head :: rest) :
    Bytes.at? data position = some head ∧ data.length = position + 1 + rest.length ∧
      ∀ count : Nat, data.drop (position + 1 + count) = rest.drop count := by
  have size := congrArg List.length here
  rw [List.length_drop,List.length_cons] at size
  refine ⟨?_,by omega,fun count => ?_⟩
  · rw [Bytes.at_nat,← Nat.add_zero position,← List.getElem?_drop,here]
    rfl
  · rw [Nat.add_assoc,← List.drop_drop,here,Nat.add_comm,List.drop_succ_cons]

theorem drop_token {position : Nat} {head : UInt8} {more rest : Bytes} (here : data.drop position = head :: (more ++ rest)) :
    data.drop (position + (more.length + 1)) = rest := by
  rw [Nat.add_comm more.length,← Nat.add_assoc,(drop_cons here).2.2,List.drop_left]

def placed (reading : Except Fault (List Token × Nat)) : Except Fault (List Token × Int) :=
  reading.map fun found => (found.1,Int.ofNat found.2)

-- What a row does with the reader that has taken its opcode.
theorem turn_row (advancing : Advancing tables) {position : Nat} {head : UInt8} {rest : Bytes}
    (here : data.drop position = head :: rest) (going : (head.toNat : Int) ≠ tables.terminator) {row : CommandRow}
    (found : tables.commands.byOpcode? head.toNat = some row) :
    turn tables data position =
      if rest.length < row.argumentSize then fail (.truncatedArgument row.command head) position
      else if row.isWhole then (rowEntry row (rest.take row.argumentSize)).map fun entry =>
        .token (.entry entry) (position + 1 + row.argumentSize : Nat)
      else if row.hasArgument then .error .notAnInteger
      else strand data (position + 1 + row.argumentSize : Nat) := by
  obtain ⟨byte,size,later⟩ := drop_cons here
  have step : (position : Int) + 1 + row.width = (position + 1 + row.argumentSize : Nat) := by
    rw [advancing.width found]; rfl
  have slice : Bytes.slice data ((position : Int) + 1) (position + 1 + row.argumentSize : Nat) =
      rest.take row.argumentSize := by
    rw [← Int.natCast_succ,Bytes.slice_nat,later 0,Nat.add_sub_cancel_left]
    rfl
  rw [turn,if_neg (by omega)]
  simp only [byte,if_neg going,found,step,slice]
  by_cases short : rest.length < row.argumentSize
  · rw [if_pos (by omega),if_pos short]
  · rw [if_neg (by omega),if_neg short]
    cases rowEntry row (rest.take row.argumentSize) <;> rfl

theorem turn_code {position : Nat} {head : UInt8} {rest : Bytes} (here : data.drop position = head :: rest)
    (going : (head.toNat : Int) ≠ tables.terminator) (found : tables.commands.byOpcode? head.toNat = none)
    {more : Nat} (length : tables.characters.codeLength head.toNat = more + 1) :
    turn tables data position =
      if rest.length < more then fail (.truncatedGlyph (head :: rest.take more)) position
      else (codeToken tables position (head :: rest.take more)).map fun token =>
        .token token (position + 1 + more : Nat) := by
  obtain ⟨byte,size,_⟩ := drop_cons here
  have step : (position : Int) + (more + 1 : Nat) = (position + 1 + more : Nat) := by omega
  have slice : Bytes.slice data position (position + 1 + more : Nat) = head :: rest.take more := by
    rw [Bytes.slice_nat,here,show position + 1 + more - position = more + 1 by omega,List.take_succ_cons]
  rw [turn,if_neg (by omega)]
  simp only [byte,if_neg going,found,length,step,slice,List.length_cons,List.length_take]
  by_cases short : rest.length < more
  · rw [if_pos (by omega),if_pos short]
  · rw [if_neg (by omega),if_neg short]
    cases codeToken tables position _ <;> rfl

section
variable {position : Nat} {head : UInt8}

theorem turn_short (advancing : Advancing tables) {rest : Bytes} (here : data.drop position = head :: rest)
    (going : tables.terminator ≠ head.toNat) (short : rest.length < tokenLength tables head - 1) :
    ∃ cause, turn tables data position = fail cause position ∧ tokensFrom tables position (head :: rest) = fail cause position := by
  rw [tokenLength] at short
  rw [tokensFrom,if_neg (Ne.symm going)]
  cases claimed : tables.commands.byOpcode? head.toNat with
  | some row =>
    rw [claimed,Nat.add_sub_cancel_left] at short
    exact ⟨_,(turn_row advancing here (Ne.symm going) claimed).trans (if_pos short),if_pos short⟩
  | none =>
    rw [claimed] at short
    have positive : 0 < tables.characters.codeLength head.toNat := by
      rcases tables.characters.codeLength_cases head.toNat with one | two <;> omega
    obtain ⟨more,length⟩ := Nat.exists_eq_succ_of_ne_zero (Nat.ne_of_gt positive)
    simp only [length,Nat.succ_sub_one] at short ⊢
    exact ⟨_,(turn_code here (Ne.symm going) claimed length).trans (if_pos short),if_pos short⟩

theorem turn_cut (advancing : Advancing tables) {more rest : Bytes} (here : data.drop position = head :: (more ++ rest))
    (going : tables.terminator ≠ head.toNat) (firm : Firm tables head) (length : tokenLength tables head = more.length + 1) :
    turn tables data position =
      (named tables position head more).map fun token => .token token (position + (more.length + 1) : Nat) := by
  rw [named,Nat.add_comm more.length,← Nat.add_assoc]
  cases claimed : tables.commands.byOpcode? head.toNat with
  | some row =>
    rw [turn_row advancing here (Ne.symm going) claimed,row_length claimed length,if_neg (by simp),
      if_pos (firm row claimed),List.take_left]
    dsimp only
    cases rowEntry row more <;> rfl
  | none =>
    rw [turn_code here (Ne.symm going) claimed (code_length claimed length),if_neg (by simp),List.take_left]

theorem wander_ended {rest : Bytes} (here : data.drop position = head :: rest) (ended : tables.terminator = head.toNat)
    (turns : Nat) : wander tables data (turns + 1) position = placed (tokensFrom tables position (head :: rest)) := by
  obtain ⟨byte,size,_⟩ := drop_cons here
  rw [wander,turn,if_neg (by omega),tokensFrom,if_pos ended.symm]
  simp only [byte,if_pos ended.symm]
  rfl

end

theorem wander_past {position : Nat} (past : data.length ≤ position) (turns : Nat) :
    wander tables data (turns + 1) position = placed (tokensFrom tables position (data.drop position)) := by
  rw [List.drop_eq_nil_of_le past,wander,turn,tokensFrom,if_pos (by omega)]
  rfl

theorem wander_fail {cause : EncodingCause} {position place : Int}
    (stuck : turn tables data position = fail cause place) (turns : Nat) :
    wander tables data (turns + 1) position = fail cause place := by
  rw [wander,stuck]; rfl

theorem wander_token {α : Type} {made : Except Fault α} {token : α → Token} {position : Int} {next : Nat}
    (step : turn tables data position = made.map fun value => .token (token value) next) {turns : Nat}
    {reading : Except Fault (List Token × Nat)} (further : wander tables data turns next = placed reading) :
    wander tables data (turns + 1) position = placed (do
      let value ← made
      let (tokens,after) ← reading
      .ok (token value :: tokens,after)) := by
  rw [wander,step]
  cases made with
  | error fault => rfl
  | ok value =>
    change wander tables data turns next >>= _ = _
    rw [further]
    cases reading <;> rfl

-- With a turn for every byte that is left, the reader goes from left to right:
-- the rows lead it over each byte once.
theorem wander_forward (forward : tables.commands.isForward = true) {turns position : Nat}
    (enough : data.length ≤ position + turns) :
    wander tables data (turns + 1) position = placed (tokensFrom tables position (data.drop position)) := by
  induction turns generalizing position with
  | zero => exact wander_past enough 0
  | succ turns ih =>
    cases here : data.drop position with
    | nil =>
      rw [← here]
      exact wander_past (List.drop_eq_nil_iff.mp here) _
    | cons head rest =>
      have advancing := (forward_exact.mp forward).1
      by_cases ended : tables.terminator = head.toNat
      · exact wander_ended here ended _
      by_cases enough : tokenLength tables head - 1 ≤ rest.length
      · obtain ⟨more,tail,rfl,length⟩ := token_cut enough
        have firm : Firm tables head := fun row claimed =>
          (forward_exact.mp forward).2 row (CommandTable.byOpcode_mem claimed).1
        rw [read_cut ended length]
        refine wander_token (turn_cut advancing here ended firm length) ?_
        rw [ih (by omega),drop_token here]
      · obtain ⟨cause,stuck,stopped⟩ := turn_short advancing here ended (Nat.lt_of_not_le enough)
        rw [stopped]
        exact wander_fail stuck _

-- So the two readers of forward tables are one.
theorem tokensAt_wander (forward : tables.commands.isForward = true) (data : Bytes) (offset : Nat) :
    tokensAt tables data offset = wander tables data (turns data) offset := by
  rw [tokensAt,if_pos forward,turns,wander_forward forward (by omega)]
  cases tokensFrom tables offset (data.drop offset) <;> rfl

def onward? (tables : TableSet) (data : Bytes) (position : Int) : Option Int :=
  match turn tables data position with
  | .ok (.token _ next) => some next
  | _ => none

def route (tables : TableSet) (data : Bytes) : Nat → Int → Option Int
  | 0, position => some position
  | turns + 1, position => (onward? tables data position).bind (route tables data turns)

theorem route_add (first more : Nat) (position : Int) :
    route tables data (first + more) position =
      (route tables data first position).bind (route tables data more) := by
  induction first generalizing position with
  | zero => rw [Nat.zero_add]; rfl
  | succ first ih =>
    rw [Nat.succ_add,route,route,Option.bind_assoc]
    exact congrArg _ (funext ih)

theorem build_fault (command : Command) (text : Option String) (bytes : Option Bytes) :
    Entry.build command text bytes ≠ .error .endless := by
  unfold Entry.build
  cases Entry.ofFields command text bytes <;> simp

theorem step_fault {α β : Type} {made : Except Fault α} {next : α → β} (other : made ≠ .error .endless) :
    (made >>= fun value => Except.ok (next value)) ≠ .error .endless := by
  cases made with
  | ok value => simp
  | error fault => simpa using other

theorem code_fault (position : Int) (code : Bytes) : codeToken tables position code ≠ .error .endless := by
  unfold codeToken
  split
  · simp
  · split
    · simp [fail]
    · exact step_fault (build_fault _ _ _)

theorem strand_fault (position : Int) : (strand data position : Except Fault Turn) ≠ .error .endless := by
  unfold strand
  split <;> simp [fail]

theorem turn_fault (position : Int) : turn tables data position ≠ .error .endless := by
  unfold turn
  split
  · simp [fail]
  · split
    · simp
    · split
      · simp
      · split
        · simp only
          split
          · simp [fail]
          split
          · exact step_fault (build_fault _ _ _)
          split
          · simp
          · exact strand_fault _
        · simp only
          split
          · simp [fail]
          · exact step_fault (code_fault _ _)

theorem onward_inside {position next : Int} (moved : onward? tables data position = some next) :
    -(data.length : Int) ≤ position ∧ position < data.length := by
  have below : position < data.length := by
    by_contra past
    rw [onward?,turn,if_pos (by omega)] at moved
    cases moved
  refine ⟨?_,below⟩
  by_contra before
  have nothing : Bytes.at? data position = none := by
    have far : ¬ 0 ≤ Bytes.place data position := by
      rw [Bytes.place,if_pos (by omega)]; omega
    rw [Bytes.at?,if_neg far]
  rw [onward?,turn,if_neg (by omega),nothing] at moved
  cases moved

theorem wander_endless {turns : Nat} {position : Int} :
    wander tables data turns position = .error .endless ↔ (route tables data turns position).isSome = true := by
  induction turns generalizing position with
  | zero => simp [wander,route]
  | succ turns ih =>
    rw [wander,route,onward?]
    cases taken : turn tables data position with
    | error fault =>
      have other := @turn_fault tables data position
      rw [taken] at other
      simpa using other
    | ok turn =>
      cases turn with
      | ended after => simp
      | token token next =>
        rw [Option.bind_some,← ih]
        change (wander tables data turns next >>= _) = _ ↔ _
        cases wander tables data turns next <;> simp

theorem route_prior {early later : Nat} (le : early ≤ later) {position : Int}
    (going : (route tables data later position).isSome = true) :
    (route tables data early position).isSome = true := by
  obtain ⟨more,rfl⟩ := Nat.exists_eq_add_of_le le
  rw [route_add] at going
  exact Option.isSome_of_isSome_bind going

-- There are fewer places than turns, so that a reader that is still on its way
-- has come back to a place.
theorem route_returns {position : Int} (going : (route tables data (turns data) position).isSome = true) :
    ∃ first again, first < again ∧ again < turns data ∧
      route tables data first position = route tables data again position := by
  have inside : ∀ turn ∈ Finset.range (turns data),
      (route tables data turn position).getD 0 ∈ Finset.Ico (-(data.length : Int)) data.length := by
    intro turn member
    have next := route_prior (Nat.succ_le_of_lt (Finset.mem_range.mp member)) going
    obtain ⟨place,found⟩ := Option.isSome_iff_exists.mp (route_prior (Nat.le_succ turn) next)
    rw [Nat.succ_eq_add_one,route_add,found,Option.bind_some,route] at next
    obtain ⟨after,moved⟩ := Option.isSome_iff_exists.mp (Option.isSome_of_isSome_bind next)
    rw [found]
    exact Finset.mem_Ico.mpr (onward_inside moved)
  have fewer : (Finset.Ico (-(data.length : Int)) data.length).card < (Finset.range (turns data)).card := by
    rw [Int.card_Ico,Finset.card_range,turns]
    omega
  obtain ⟨i,memberI,j,memberJ,apart,same⟩ := Finset.exists_ne_map_eq_of_card_lt_of_maps_to fewer inside
  rw [Finset.mem_range] at memberI memberJ
  obtain ⟨a,atI⟩ := Option.isSome_iff_exists.mp (route_prior memberI.le going)
  obtain ⟨b,atJ⟩ := Option.isSome_iff_exists.mp (route_prior memberJ.le going)
  rw [atI,atJ,Option.getD_some,Option.getD_some] at same
  have equal : route tables data i position = route tables data j position := by rw [atI,atJ,same]
  rcases Nat.lt_or_gt_of_ne apart with before | behind
  · exact ⟨i,j,before,memberJ,equal⟩
  · exact ⟨j,i,behind,memberI,equal.symm⟩

theorem route_endless {position : Int} (going : (route tables data (turns data) position).isSome = true)
    (count : Nat) : (route tables data count position).isSome = true := by
  obtain ⟨first,again,before,soon,same⟩ := route_returns going
  induction count using Nat.strongRecOn with
  | ind count ih =>
    by_cases early : count ≤ turns data
    · exact route_prior early going
    · obtain ⟨more,rfl⟩ := Nat.exists_eq_add_of_le (show again ≤ count by omega)
      rw [route_add,← same,← route_add]
      exact ih (first + more) (by omega)

theorem wander_add {first : Nat} {position : Int} (ended : wander tables data first position ≠ .error .endless)
    (more : Nat) : wander tables data (first + more) position = wander tables data first position := by
  induction first generalizing position with
  | zero => exact absurd rfl ended
  | succ first ih =>
    rw [Nat.succ_add,wander,wander]
    rw [wander] at ended
    cases taken : turn tables data position with
    | error fault => rfl
    | ok turn =>
      cases turn with
      | ended after => rfl
      | token token next =>
        rw [taken] at ended
        have further : wander tables data first next ≠ .error .endless := by
          intro endless
          apply ended
          change (wander tables data first next >>= _) = _
          rw [endless]; rfl
        change (wander tables data (first + more) next >>= _) = (wander tables data first next >>= _)
        rw [ih further]

-- The limit on turns hides nothing: a reading that ends with any number of turns
-- is the reading with this one.
theorem wander_turns {count : Nat} {position : Int} (ended : wander tables data count position ≠ .error .endless) :
    wander tables data (turns data) position = wander tables data count position := by
  have within : wander tables data (turns data) position ≠ .error .endless := by
    intro endless
    exact ended (wander_endless.mpr (route_endless (wander_endless.mp endless) count))
  rw [← wander_add within count,← wander_add ended (turns data),Nat.add_comm]

end GameText.Wire
