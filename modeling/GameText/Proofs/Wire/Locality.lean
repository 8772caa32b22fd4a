import GameText.Proofs.Wire.Trip

namespace GameText.Wire
open Outcome

-- The bytes of a message as a reader sees them: tokens by what their first bytes claim, then
-- the terminator. It names no place, and nothing around the bytes.
inductive Span (tables : TableSet) : List Token → Bytes → Prop where
  | ended {head : UInt8} (terminator : tables.terminator = head.toNat) : Span tables [] [head]
  | token {token : Token} {tokens : List Token} {head : UInt8} {more rest : Bytes}
      (going : tables.terminator ≠ head.toNat) (length : tokenLength tables head = more.length + 1)
      (name : ∀ position, named tables position head more = .ok token) (further : Span tables tokens rest) :
      Span tables (token :: tokens) (head :: (more ++ rest))

section
variable {tables : TableSet}

theorem named_anywhere {position : Nat} {head : UInt8} {more : Bytes} {token : Token}
    (name : named tables position head more = .ok token) (other : Nat) :
    named tables other head more = .ok token := by
  unfold named codeToken at name ⊢
  split at name
  · exact name
  · split at name
    · exact name
    · split at name
      · cases name
      · exact name

theorem read_span {tokens : List Token} {bytes : Bytes} (span : Span tables tokens bytes) (position : Nat)
    (rest : Bytes) : tokensFrom tables position (bytes ++ rest) = .ok (tokens,position + bytes.length) := by
  induction span generalizing position with
  | ended terminator =>
    rw [List.singleton_append,tokensFrom,if_pos terminator.symm]
    rfl
  | @token token tokens head more tail going length name further ih =>
    rw [List.cons_append,List.append_assoc,List.length_cons,List.length_append]
    refine read_named going length (name position) ?_
    rw [ih (position + (more.length + 1))]
    exact congrArg (fun stop => Except.ok (tokens,stop)) (by omega)

theorem span_of_read {position after : Nat} {data : Bytes} {tokens : List Token}
    (reading : tokensFrom tables position data = .ok (tokens,after)) :
    ∃ bytes rest, data = bytes ++ rest ∧ Span tables tokens bytes ∧ after = position + bytes.length := by
  induction size : data.length using Nat.strongRecOn generalizing position data tokens with
  | ind count ih =>
    cases data with
    | nil => rw [tokensFrom] at reading; cases reading
    | cons head rest =>
      by_cases ended : tables.terminator = head.toNat
      · rw [tokensFrom,if_pos ended.symm] at reading
        cases reading
        exact ⟨[head],rest,rfl,.ended ended,rfl⟩
      · rcases @read_turn tables position head rest ended with ⟨_,cause,_,stopped⟩ | ⟨more,tail,rfl,length⟩
        · rw [stopped] at reading
          cases reading
        · rw [read_cut ended length] at reading
          obtain ⟨token,name,reading⟩ := bind_ok.mp reading
          obtain ⟨⟨others,stop⟩,further,made⟩ := bind_ok.mp reading
          cases made
          have shorter : tail.length < count := by
            rw [← size,List.length_cons,List.length_append]
            omega
          obtain ⟨bytes,remaining,rfl,span,rfl⟩ := ih _ shorter further rfl
          refine ⟨_,remaining,?_,.token ended length (named_anywhere name) span,?_⟩
          · rw [List.cons_append,List.append_assoc]
          · rw [List.length_cons,List.length_append]
            omega

theorem read_found (advancing : Advancing tables) {data : Bytes} {offset : Nat} {entries : List Entry} {after : Int} :
    read tables data offset = .ok (entries,after) ↔ FoundAt (fun bytes => Clear tables bytes ∧
      ∃ tokens, Span tables tokens bytes ∧ entries = entriesOf tokens) data offset after := by
  rw [read_ok advancing]
  constructor
  · rintro ⟨bytes,rest,split,⟨clear,tokens,reading,made⟩,rfl⟩
    obtain ⟨others,behind,found,span,size⟩ := span_of_read reading
    obtain ⟨rfl,_⟩ := List.append_inj (split.symm.trans found) (by omega)
    exact ⟨bytes,rest,split,⟨clear,tokens,span,made⟩,rfl⟩
  · rintro ⟨bytes,rest,split,⟨clear,tokens,span,made⟩,rfl⟩
    exact ⟨bytes,rest,split,⟨clear,tokens,split ▸ read_span span offset rest,made⟩,rfl⟩

end

section
variable {shape : Bytes → Prop} {data : Bytes} {after : Int}

theorem found_around (before behind : Bytes) : FoundAt shape data 0 after ↔
    after ≤ data.length ∧ FoundAt shape (before ++ data ++ behind) before.length (before.length + after) := by
  unfold FoundAt
  rw [List.drop_zero,List.append_assoc,List.drop_left]
  constructor
  · rintro ⟨bytes,rest,rfl,shaped,rfl⟩
    refine ⟨?_,bytes,rest ++ behind,List.append_assoc _ _ _,shaped,?_⟩
    · rw [List.length_append,Int.ofNat_eq_natCast]
      omega
    · rw [Int.ofNat_eq_natCast,Int.ofNat_eq_natCast]
      omega
  · rintro ⟨inside,bytes,rest,split,shaped,placed⟩
    rw [Int.ofNat_eq_natCast] at placed
    have ended : after = bytes.length := by omega
    have front : data.take bytes.length = bytes := by
      have taken := congrArg (List.take bytes.length) split
      rwa [List.take_append_of_le_length (by omega),List.take_left] at taken
    refine ⟨bytes,data.drop bytes.length,?_,shaped,by rw [Int.ofNat_eq_natCast]; omega⟩
    rw [← front,List.length_take,Nat.min_eq_left (by omega),List.take_append_drop]

theorem found_alone (found : FoundAt shape data 0 after) : FoundAt shape (Bytes.slice data 0 after) 0 after := by
  obtain ⟨bytes,rest,split,shaped,rfl⟩ := found
  rw [show (0 : Int) = (0 : Nat) from rfl,slice_front split]
  exact ⟨bytes,[],(List.append_nil _).symm,shaped,rfl⟩

end

-- A message means the same wherever it stands and whatever surrounds it.
theorem decoding_local {tables : TableSet} (advancing : Advancing tables) (before data behind : Bytes) :
    (∀ entries (after : Int), read tables data 0 = .ok (entries,after) ↔ after ≤ data.length ∧
      read tables (before ++ data ++ behind) before.length = .ok (entries,before.length + after)) ∧
    (∀ entries after, read tables data 0 = .ok (entries,after) →
      read tables (Bytes.slice data 0 after) 0 = .ok (entries,after)) ∧
    (∀ after : Int, scan tables data 0 = .ok after ↔ after ≤ data.length ∧
      scan tables (before ++ data ++ behind) before.length = .ok (before.length + after)) ∧
    ∀ after, scan tables data 0 = .ok after → scan tables (Bytes.slice data 0 after) 0 = .ok after := by
  simp only [read_found advancing,scan_found advancing]
  exact ⟨fun _ _ => found_around before behind,fun _ _ => found_alone,fun _ => found_around before behind,
    fun _ => found_alone⟩

theorem decoding_local_sample :
    read TableSet.sample ([0x03,0x14] ++ [0x14,0x00,0x02,0x1A,0x00,0x00,0x61] ++ [0x14]) 2 =
      .ok ([.argument .delay [0x00,0x02] rfl,.text "é"],8) ∧
    read TableSet.sample [0x14,0x00,0x02,0x1A,0x00,0x00] 0 = .ok ([.argument .delay [0x00,0x02] rfl,.text "é"],6) ∧
    scan TableSet.sample ([0x03,0x14] ++ [0x14,0x00,0x02,0x1A,0x00,0x00,0x61] ++ [0x14]) 2 = .ok 8 := by
  have law := @decoding_local TableSet.sample (by decide) [0x03,0x14] [0x14,0x00,0x02,0x1A,0x00,0x00,0x61] [0x14]
  have made : read TableSet.sample [0x14,0x00,0x02,0x1A,0x00,0x00,0x61] 0 =
      .ok ([.argument .delay [0x00,0x02] rfl,.text "é"],6) := by decide +kernel
  have walked : scan TableSet.sample [0x14,0x00,0x02,0x1A,0x00,0x00,0x61] 0 = .ok 6 := by decide +kernel
  exact ⟨((law.1 _ _).mp made).2,law.2.1 _ _ made,((law.2.2.1 _).mp walked).2⟩

end GameText.Wire
