import GameText.Proofs.Wire.Agreement
import Mathlib.Data.List.Chain

namespace GameText.Wire
open Outcome

-- Texts of neighbouring glyphs are one text.
def Apart (entries : Message) : Prop :=
  entries.IsChain fun one next => ¬ (one.command = .printText ∧ next.command = .printText)

-- The entries that a reading can make: no more in them than stands in the stream.
structure Canonical (tables : TableSet) (entries : Message) : Prop where
  widths : ∀ command data fits, .argument command data fits ∈ entries →
    ∃ row, tables.commands.rowFor? command = some row ∧ (data.length : Int) = row.width
  filled : .text "" ∉ entries
  apart : Apart entries
  keys : ∀ key, .complex key ∈ entries → tables.commands.isComplex key = true
  plain : ∀ strayText strayData, .lineBreak strayText strayData ∈ entries → strayText = none ∧ strayData = none

-- Tokens that a reading takes one after another, with no end yet.
inductive Taken (tables : TableSet) : List Token → Bytes → Prop where
  | none : Taken tables [] []
  | token {token : Token} {tokens : List Token} {head : UInt8} {more rest : Bytes}
      (going : tables.terminator ≠ head.toNat) (spelled : Spelled tables token (head :: more))
      (further : Taken tables tokens rest) : Taken tables (token :: tokens) (head :: (more ++ rest))

theorem prepend_apart (text : String) {entries : Message} (apart : Apart entries) :
    Apart (Message.prepend text entries) := by
  unfold Message.prepend
  split
  · exact apart
  · cases entries with
    | nil => exact .singleton _
    | cons first rest =>
      by_cases shown : first.command = .printText
      · obtain ⟨content,rfl⟩ := Entry.text_of_command shown
        simp only [Apart,List.isChain_cons] at apart ⊢
        exact apart
      · have behind : Apart (.text text :: first :: rest) :=
          List.isChain_cons_cons.mpr ⟨fun both => shown both.2,apart⟩
        cases first with
        | text content => exact absurd rfl shown
        | _ => exact behind

theorem entriesOf_apart {tokens : List Token} (standing : Standing tokens) : Apart (entriesOf tokens) := by
  induction tokens with
  | nil => exact .nil
  | cons token rest ih =>
    have apart := ih standing.tail
    cases token with
    | glyph c =>
      rw [entriesOf_glyph standing.tail]
      exact prepend_apart _ apart
    | entry entry =>
      rw [entriesOf_entry]
      refine List.isChain_cons.mpr ⟨fun next _ both => ?_,apart⟩
      obtain ⟨content,rfl⟩ := Entry.text_of_command both.1
      exact standing content List.mem_cons_self

section
variable {tables : TableSet}

theorem stream_canonical (consistent : tables.Consistent) {tokens : List Token} {bytes : Bytes}
    (stream : Stream tables tokens bytes) : Canonical tables (entriesOf tokens) := by
  have alone : ∀ entry ∈ entriesOf tokens, entry.command ≠ .printText →
      ∃ piece, Spelled tables (.entry entry) piece := by
    intro entry member other
    rcases entriesOf_mem member with ⟨run,_,_,rfl⟩ | inside
    · exact absurd rfl other
    · exact stream.pieces _ inside
  refine ⟨fun command data fits member => ?_,fun member => ?_,entriesOf_apart stream.standing,
    fun key member => ?_,fun strayText strayData member => ?_⟩
  · obtain ⟨piece,spelled⟩ := alone _ member (by rintro rfl; cases fits)
    cases spelled with
    | @argument row head data listed opcode fits width =>
      exact ⟨row,consistent.commands.rowFor listed,width⟩
  · rcases entriesOf_mem member with ⟨run,filled,_,same⟩ | inside
    · exact filled (by simpa using (Entry.text.inj same).symm)
    · exact stream.standing _ inside
  · obtain ⟨piece,spelled⟩ := alone _ member nofun
    cases spelled with
    | complex listed => exact consistent.commands.isComplex listed
  · obtain ⟨piece,spelled⟩ := alone _ member nofun
    cases spelled
    exact ⟨rfl,rfl⟩

theorem read_taken (consistent : tables.Consistent) {tokens : List Token} {front : Bytes}
    (taken : Taken tables tokens front) {position after : Nat} {rest : Bytes} {others : List Token}
    (reading : tokensFrom tables (position + front.length) rest = .ok (others,after)) :
    tokensFrom tables position (front ++ rest) = .ok (tokens ++ others,after) := by
  induction taken generalizing position with
  | none => exact reading
  | @token token tokens head more tail going spelled further ih =>
    obtain ⟨_,_,same,length,name⟩ := spelled_named consistent spelled position
    cases same
    rw [List.cons_append,List.append_assoc]
    refine read_named going length name (ih ?_)
    rw [List.length_cons,List.length_append] at reading
    rwa [show position + (more.length + 1) + tail.length = position + (more.length + tail.length + 1) by omega]

theorem stuck_cases (consistent : tables.Consistent) {position : Nat} {head : UInt8} {rest : Bytes} {fault : Fault}
    (going : tables.terminator ≠ head.toNat) (failed : tokensFrom tables position (head :: rest) = .error fault) :
    (∃ cause, Stuck tables (head :: rest) cause ∧ fault = .encoding ⟨cause,some (position : Int)⟩) ∨
    ∃ token more tail, Spelled tables token (head :: more) ∧ rest = more ++ tail ∧
      tokensFrom tables (position + (more.length + 1)) tail = .error fault := by
  rcases @read_turn tables position head rest going with ⟨_,cause,stuck,stopped⟩ | ⟨more,tail,rfl,length⟩
  · cases failed.symm.trans stopped
    exact .inl ⟨cause,stuck,rfl⟩
  · rw [read_cut going length] at failed
    rcases @named_cases _ consistent position _ _ going length with ⟨token,spelled,name⟩ | ⟨stuck,name⟩
    · rw [name,ok_bind] at failed
      rcases bind_error.mp failed with later | ⟨_,_,made⟩
      · exact .inr ⟨token,more,tail,spelled,rfl,later⟩
      · cases made
    · rw [name] at failed
      cases failed
      exact .inl ⟨_,stuck tail,rfl⟩

theorem read_stuck (consistent : tables.Consistent) {position : Nat} {data : Bytes} {fault : Fault}
    (failed : tokensFrom tables position data = .error fault) :
    ∃ tokens front back cause, data = front ++ back ∧ Taken tables tokens front ∧ Stuck tables back cause ∧
      fault = .encoding ⟨cause,some ((position + front.length : Nat) : Int)⟩ := by
  induction size : data.length using Nat.strongRecOn generalizing position data with
  | ind count ih =>
    cases data with
    | nil =>
      rw [tokensFrom] at failed
      cases failed
      exact ⟨[],[],[],_,rfl,.none,.ended,rfl⟩
    | cons head rest =>
      by_cases ended : tables.terminator = head.toNat
      · rw [tokensFrom,if_pos ended.symm] at failed
        cases failed
      · rcases stuck_cases consistent ended failed with ⟨cause,stuck,rfl⟩ | ⟨token,more,tail,spelled,rfl,later⟩
        · exact ⟨[],[],_,cause,rfl,.none,stuck,rfl⟩
        · rw [List.length_cons,List.length_append] at size
          obtain ⟨tokens,front,back,cause,rfl,taken,stuck,rfl⟩ := ih _ (by omega) later rfl
          refine ⟨_,_,back,cause,by rw [List.cons_append,List.append_assoc],.token ended spelled taken,stuck,?_⟩
          rw [List.length_cons,List.length_append,show position + (more.length + 1) + front.length =
            position + (more.length + front.length + 1) by omega]

end
end GameText.Wire
