import GameText.Proofs.Wire.Flaw
import GameText.Proofs.Wire.RoundTrip
import GameText.Proofs.Wire.Scan

namespace GameText.Wire
open Outcome

section
variable {tables : TableSet}

theorem codeToken_fails (position : Int) (code : Bytes) :
    Fails (·.isCodec = true) (codeToken tables position code) := by
  unfold codeToken
  split
  · exact .ok _
  · split
    · exact .error rfl
    · rw [Entry.build_complex]
      exact .ok _

theorem tokensFrom_fails (consistent : tables.Consistent) (position : Nat) (data : Bytes) :
    Fails (·.isCodec = true) (tokensFrom tables position data) := by
  induction size : data.length using Nat.strongRecOn generalizing position data with
  | ind count ih =>
    cases data with
    | nil =>
      rw [tokensFrom]
      exact .error rfl
    | cons head rest =>
      have further : ∀ position more, Fails (·.isCodec = true) (tokensFrom tables position (rest.drop more)) := by
        intro position more
        exact ih _ (by rw [List.length_drop,← size,List.length_cons]; omega) position _ rfl
      rw [tokensFrom]
      split
      · exact .ok _
      · split
        · rename_i row found
          split
          · exact .error rfl
          · obtain ⟨member,opcode⟩ := CommandTable.byOpcode_mem found
            obtain ⟨entry,built,_⟩ := rowEntry_spelled consistent member opcode
              (List.length_take_of_le (by omega) : (rest.take row.argumentSize).length = _)
            rw [built]
            exact (further _ _).bind fun _ _ => .ok _
        · dsimp only
          split
          · exact .error rfl
          · apply (codeToken_fails _ _).bind
            intro token _
            exact (further _ _).bind fun _ _ => .ok _

theorem decode_fails (consistent : tables.Consistent) (forward : tables.commands.isForward = true) (data : Bytes) :
    Fails (·.isCodec = true) (decode tables data) := by
  unfold decode read tokensAt
  rw [if_pos forward]
  apply Fails.map
  apply Fails.bind
  · exact (tokensFrom_fails consistent _ _).bind fun _ _ => .ok _
  · exact fun _ _ => .ok _

theorem encodeFrom_fails (consistent : tables.Consistent) (index : Nat) (entries : List Entry) :
    Fails (·.isCodec = true) (encodeFrom tables index entries) := by
  intro fault failed
  obtain ⟨_,_,_,_,_,_,_,rfl⟩ := (encodeFrom_error consistent).mp failed
  rfl

theorem encode_decode (consistent : tables.Consistent) (delimited : Delimited tables)
    (forward : tables.commands.isForward = true) (noLine : tables.characters.encodeChar? '\n' = none) {data : Bytes}
    (extent : Extent tables data) {entries : List Entry} (decoded : decode tables data = .ok entries) :
    encode tables entries = .ok data := by
  obtain ⟨⟨_,after⟩,reading,rfl⟩ := map_ok.mp decoded
  obtain ⟨tokens,stop,found,rfl,rfl⟩ := (read_forward forward).mp reading
  obtain ⟨bytes,rest,split,stream,rfl⟩ := stream_of_read consistent found
  have short := scan_extent (stream_extent consistent delimited stream) 0 rest
  have long := scan_extent extent 0 []
  rw [List.drop_zero] at split
  rw [← split] at short
  rw [List.append_nil] at long
  have whole : bytes = data := by
    have length := congrArg List.length split
    have same := Except.ok.inj (short.symm.trans long)
    rw [List.length_append] at length
    have none : rest = [] := List.eq_nil_of_length_eq_zero (by omega)
    rw [split,none,List.append_nil]
  rw [← whole]
  exact encode_stream consistent noLine stream 0

end
end GameText.Wire
