import GameText.Proofs.Wire.RoundTrip
import GameText.Proofs.Wire.Scan

namespace GameText.Wire
open Outcome

-- How a walk and a reading from the same position go together: they come to the same end, the
-- reading stops at a code without a glyph on the way, or both fail.
inductive Concurs (position : Nat) : Except Fault Nat → Except Fault (List Token × Nat) → Prop where
  | ended {tokens : List Token} {after : Nat} (later : position < after) :
      Concurs position (.ok after) (.ok (tokens,after))
  | unassigned {after place : Nat} {code : Bytes} (start : position ≤ place) (inside : place < after) :
      Concurs position (.ok after) (fail (.unassignedGlyph code) place)
  | failed {fault other : Fault} : Concurs position (.error fault) (.error other)

section
variable {tables : TableSet}

theorem named_cases (consistent : tables.Consistent) {position : Nat} {head : UInt8} {more : Bytes}
    (going : tables.terminator ≠ head.toNat) (length : tokenLength tables head = more.length + 1) :
    (∃ token, Spelled tables token (head :: more) ∧ named tables position head more = .ok token) ∨
      (∀ rest, Stuck tables (head :: (more ++ rest)) (.unassignedGlyph (head :: more))) ∧
        named tables position head more = fail (.unassignedGlyph (head :: more)) position := by
  cases name : named tables position head more with
  | ok token => exact .inl ⟨token,named_spelled consistent length name,rfl⟩
  | error fault =>
    rw [named] at name
    cases claimed : tables.commands.byOpcode? head.toNat with
    | some row =>
      rw [claimed] at name
      obtain ⟨member,opcode⟩ := CommandTable.byOpcode_mem claimed
      obtain ⟨entry,built,_⟩ := rowEntry_spelled consistent member opcode (row_length claimed length).symm
      dsimp only at name
      rw [built] at name
      cases name
    | none =>
      rw [claimed] at name
      dsimp only [codeToken] at name
      split at name
      · cases name
      · rename_i glyphless
        split at name
        · rename_i keyless
          cases name
          exact .inr ⟨fun rest => .unassigned going claimed (code_length claimed length).symm glyphless keyless,rfl⟩
        · cases name

theorem concurs_later {position count : Nat} {walk : Except Fault Nat} {reading : Except Fault (List Token × Nat)}
    (token : Token) (concurs : Concurs (position + count) walk reading) :
    Concurs position walk (reading >>= fun found => .ok (token :: found.1,found.2)) := by
  cases concurs with
  | ended later => exact .ended (by omega)
  | unassigned start inside => exact .unassigned (by omega) inside
  | failed => exact .failed

theorem concurs_here {position count : Nat} {walk : Except Fault Nat} {reading : Except Fault (List Token × Nat)}
    (positive : 0 < count) (code : Bytes) (concurs : Concurs (position + count) walk reading) :
    Concurs position walk (fail (.unassignedGlyph code) position) := by
  cases concurs with
  | ended later => exact .unassigned (Nat.le_refl _) (by omega)
  | unassigned start inside => exact .unassigned (Nat.le_refl _) (by omega)
  | failed => exact .failed

theorem scan_concurs (consistent : tables.Consistent) (position : Nat) (data : Bytes) :
    Concurs position (scanFrom tables position data) (tokensFrom tables position data) := by
  induction size : data.length using Nat.strongRecOn generalizing position data with
  | ind count ih =>
    cases data with
    | nil =>
      rw [scanFrom,tokensFrom]
      exact .failed
    | cons head rest =>
      by_cases ended : tables.terminator = head.toNat
      · rw [scanFrom,if_pos ended.symm,tokensFrom,if_pos ended.symm]
        exact .ended (Nat.lt_succ_self position)
      · have positive := tokenLength_pos tables head
        have dropped := @List.length_drop _ (tokenLength tables head - 1) rest
        rw [List.length_cons] at size
        have later := ih _ (by omega) (position + tokenLength tables head) _ dropped
        rw [scanFrom,if_neg (Ne.symm ended)]
        rcases @read_turn tables position head rest ended with ⟨short,cause,_,stopped⟩ | ⟨more,tail,rfl,length⟩
        · rw [stopped,List.drop_eq_nil_of_le (by omega),scanFrom]
          exact .failed
        · rw [length,Nat.add_sub_cancel,List.drop_left] at later ⊢
          rw [read_cut ended length]
          rcases @named_cases _ consistent position _ _ ended length with ⟨token,_,name⟩ | ⟨_,name⟩
          · rw [name]
            exact concurs_later token later
          · rw [name]
            exact concurs_here (Nat.succ_pos more.length) _ later

end
end GameText.Wire
