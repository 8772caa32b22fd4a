import GameText.Proofs.Wire.Grammar

namespace GameText

def Fault.IsEncoding (fault : Fault) : Prop := ∃ error, fault = .encoding error

theorem Fault.IsEncoding.codec {fault : Fault} (encoding : fault.IsEncoding) : fault.isCodec = true := by
  obtain ⟨error,rfl⟩ := encoding
  rfl

namespace Wire

-- The bytes of a message as a walk sees them: tokens by their lengths alone, then
-- the terminator. Codes without a glyph are walked over as well.
inductive Extent (tables : TableSet) : Bytes → Prop where
  | ended {head : UInt8} (terminator : tables.terminator = head.toNat) : Extent tables [head]
  | token {head : UInt8} {more rest : Bytes} (going : tables.terminator ≠ head.toNat)
      (length : tokenLength tables head = more.length + 1) (further : Extent tables rest) :
      Extent tables (head :: (more ++ rest))

section
variable {tables : TableSet}

theorem Extent.positive {bytes : Bytes} (extent : Extent tables bytes) : 0 < bytes.length := by
  cases extent <;> simp

theorem Extent.terminated {bytes : Bytes} (extent : Extent tables bytes) :
    ∃ front last, bytes = front ++ [last] ∧ tables.terminator = UInt8.toNat last := by
  induction extent with
  | @ended head terminator => exact ⟨[],head,rfl,terminator⟩
  | @token head more rest going length further ih =>
    obtain ⟨front,last,rfl,ended⟩ := ih
    exact ⟨head :: (more ++ front),last,by simp,ended⟩

theorem scan_extent {bytes : Bytes} (extent : Extent tables bytes) (position : Nat) (rest : Bytes) :
    scanFrom tables position (bytes ++ rest) = .ok (position + bytes.length) := by
  induction extent generalizing position with
  | ended terminator =>
    rw [List.singleton_append,scanFrom,if_pos terminator.symm]
    rfl
  | @token head more tail going length further ih =>
    rw [List.cons_append,List.append_assoc,scanFrom,if_neg (Ne.symm going),length,Nat.add_sub_cancel,
      List.drop_left,ih]
    simp only [List.length_cons,List.length_append]
    exact congrArg Except.ok (by omega)

theorem extent_of_scan {position after : Nat} {data : Bytes} (scanned : scanFrom tables position data = .ok after) :
    ∃ bytes rest, data = bytes ++ rest ∧ Extent tables bytes ∧ after = position + bytes.length := by
  induction size : data.length using Nat.strongRecOn generalizing position data with
  | ind count ih =>
    cases data with
    | nil => rw [scanFrom] at scanned; cases scanned
    | cons head tail =>
      rw [scanFrom] at scanned
      split at scanned
      · rename_i terminator
        cases scanned
        exact ⟨[head],tail,rfl,.ended terminator.symm,rfl⟩
      · rename_i going
        have positive := tokenLength_pos tables head
        have shorter : (tail.drop (tokenLength tables head - 1)).length < count := by
          rw [List.length_drop,← size,List.length_cons]
          omega
        obtain ⟨bytes,rest,split,extent,rfl⟩ := ih _ shorter scanned rfl
        have filled : (tail.take (tokenLength tables head - 1)).length = tokenLength tables head - 1 := by
          have reached := congrArg List.length split
          have some := extent.positive
          rw [List.length_drop,List.length_append] at reached
          rw [List.length_take]
          omega
        refine ⟨head :: (tail.take (tokenLength tables head - 1) ++ bytes),rest,?_,
          .token (Ne.symm going) (by omega) extent,?_⟩
        · rw [List.cons_append,List.append_assoc,← split,List.take_append_drop]
        · rw [List.length_cons,List.length_append]
          omega

theorem scan_forward (forward : tables.commands.isForward = true) {data : Bytes} {offset : Nat} {after : Int} :
    scan tables data offset = .ok after ↔
      ∃ bytes rest, data.drop offset = bytes ++ rest ∧ Extent tables bytes ∧
        after = Int.ofNat (offset + bytes.length) := by
  rw [scan,if_pos forward]
  constructor
  · intro found
    cases scanned : scanFrom tables offset (data.drop offset) with
    | error fault => rw [scanned] at found; cases found
    | ok stop =>
      rw [scanned] at found
      cases found
      obtain ⟨bytes,rest,split,extent,rfl⟩ := extent_of_scan scanned
      exact ⟨bytes,rest,split,extent,rfl⟩
  · rintro ⟨bytes,rest,split,extent,rfl⟩
    rw [split,scan_extent extent]
    rfl

theorem scan_beyond {position : Nat} {data : Bytes} {fault : Fault}
    (scanned : scanFrom tables position data = .error fault) :
    ∃ place : Nat, position + data.length ≤ place ∧ scanFrom tables position data = fail (.missingTerminator .whole) place := by
  induction size : data.length using Nat.strongRecOn generalizing position data with
  | ind count ih =>
    cases data with
    | nil =>
      rw [scanFrom]
      exact ⟨position,size ▸ Nat.le_refl _,rfl⟩
    | cons head tail =>
      rw [scanFrom] at scanned ⊢
      split at scanned
      · cases scanned
      · rename_i going
        have positive := tokenLength_pos tables head
        have dropped := @List.length_drop _ (tokenLength tables head - 1) tail
        rw [List.length_cons] at size
        obtain ⟨place,past,failed⟩ := ih _ (by omega) scanned rfl
        exact ⟨place,by omega,by rw [if_neg going]; exact failed⟩

theorem scan_fails (forward : tables.commands.isForward = true) (data : Bytes) (offset : Nat) :
    Outcome.Fails Fault.IsEncoding (scan tables data offset) := by
  rw [scan,if_pos forward]
  apply Outcome.Fails.map
  intro fault failed
  obtain ⟨place,_,same⟩ := scan_beyond failed
  cases failed.symm.trans same
  exact ⟨_,rfl⟩

-- What a walk from the start of a string can find: the end of the string, the end of a
-- message with more behind it, or nothing up to the end.
inductive Walked (tables : TableSet) (data : Bytes) : Except Fault Int → Prop where
  | whole (extent : Extent tables data) : Walked tables data (.ok data.length)
  | early {bytes rest : Bytes} (split : data = bytes ++ rest) (more : rest ≠ []) (extent : Extent tables bytes) :
      Walked tables data (.ok bytes.length)
  | beyond {place : Nat} (past : data.length ≤ place) : Walked tables data (fail (.missingTerminator .whole) place)

theorem scan_walked (forward : tables.commands.isForward = true) (data : Bytes) :
    Walked tables data (scan tables data 0) := by
  cases found : scan tables data 0 with
  | ok after =>
    obtain ⟨bytes,rest,split,extent,rfl⟩ := (scan_forward forward).mp found
    rw [Nat.zero_add]
    by_cases more : rest = []
    · subst more
      obtain rfl : data = bytes := split.trans (List.append_nil bytes)
      exact .whole extent
    · exact .early split more extent
  | error fault =>
    rw [scan,if_pos forward,List.drop_zero] at found
    cases scanned : scanFrom tables 0 data with
    | ok stop =>
      rw [scanned] at found
      cases found
    | error other =>
      obtain ⟨place,past,failed⟩ := scan_beyond scanned
      rw [failed] at found
      cases found
      exact .beyond (Nat.zero_add data.length ▸ past)

theorem scan_whole (forward : tables.commands.isForward = true) {data : Bytes} :
    scan tables data 0 = .ok data.length ↔ Extent tables data := by
  rw [← Int.ofNat_eq_natCast,← Nat.zero_add data.length,scan_forward forward,List.drop_zero]
  constructor
  · rintro ⟨bytes,rest,split,extent,same⟩
    have reached := congrArg List.length split
    rw [List.length_append] at reached
    have none : rest = [] := List.eq_nil_of_length_eq_zero (by have := Int.ofNat.inj same; omega)
    rw [split,none,List.append_nil]
    exact extent
  · exact fun extent => ⟨data,[],(List.append_nil data).symm,extent,rfl⟩

theorem stream_extent (consistent : tables.Consistent) (delimited : Delimited tables) {tokens : List Token}
    {bytes : Bytes} (stream : Stream tables tokens bytes) : Extent tables bytes := by
  induction stream with
  | ended terminator => exact .ended terminator
  | token spelled _ ih =>
    obtain ⟨head,more,rfl,length,_⟩ := spelled_named consistent spelled 0
    exact .token (spelled_unended consistent delimited spelled) length ih

end
end Wire
end GameText
