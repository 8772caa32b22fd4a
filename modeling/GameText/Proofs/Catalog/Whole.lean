import GameText.Proofs.Catalog.Run
import GameText.Proofs.Tables.Packaged

namespace GameText.Catalog
open Outcome Wire

section
variable {tables : TableSet}

theorem ofBytes_whole (forward : tables.commands.isForward = true) {catalog : Catalog}
    (numbered : ∀ message ∈ catalog.messages.toList, 0 ≤ message.1 ∧ message.1 < 2 ^ 32) (fits : catalog.Fits) :
    ofBytes tables catalog.toBytes = .ok catalog ↔
      ∀ message ∈ catalog.messages.toList, scan tables message.2 0 = .ok message.2.length := by
  constructor
  · intro same message member
    exact (scan_whole forward).mpr (ofBytes_sound (forward_exact.mp forward).1 same message member).2
  · intro whole
    refine ofBytes_layout forward fits fun message member => ⟨numbered message member,?_⟩
    exact (scan_whole forward).mp (whole message member)

-- What is stored under a number is looked at no further than its last byte. A walk over it
-- may end before it does, or not at all, and only where each message is whole is the
-- catalog found again in its file.
theorem set_whole (forward : tables.commands.isForward = true) (changes : List Change) (id : Int) (data : Bytes) :
    ((∃ next, (run tables changes).set tables id data = .ok next) ↔
      (0 ≤ id ∧ id < 2 ^ 32) ∧ ∃ front last, data = front ++ [last] ∧ tables.terminator = UInt8.toNat last) ∧
    Walked tables data (scan tables data 0) ∧
    ∀ next, (run tables changes).set tables id data = .ok next → next.Fits →
      (ofBytes tables next.toBytes = .ok next ↔
        ∀ message ∈ next.messages.toList, scan tables message.2 0 = .ok message.2.length) := by
  refine ⟨⟨?_,?_⟩,scan_walked forward data,fun next accepted fits => ?_⟩
  · rintro ⟨next,accepted⟩
    obtain ⟨range,ends,_⟩ := set_exact.mp accepted
    exact ⟨range,ends_exact.mp ends⟩
  · rintro ⟨range,ends⟩
    exact ⟨_,set_exact.mpr ⟨range,ends_exact.mpr ends,rfl⟩⟩
  · refine ofBytes_whole forward (fun message member => ?_) fits
    have kept := run_kept tables (changes ++ [.set id data])
    rw [run_concat,after,show apply tables (run tables changes) (.set id data) = .ok next from accepted] at kept
    exact (kept message member).1

theorem set_whole_sample :
    (∃ next, (run TableSet.sample []).set TableSet.sample 1 [0x09,0x00] = .ok next) ∧
    (∃ next, (run TableSet.sample []).set TableSet.sample 1 [0x61,0x00,0x61,0x00] = .ok next) ∧
    ofBytes TableSet.sample (toBytes ⟨⟨[(1,[0x61,0x00,0x61,0x00])],by decide⟩⟩) ≠
      .ok ⟨⟨[(1,[0x61,0x00,0x61,0x00])],by decide⟩⟩ := by
  have forward : TableSet.sample.commands.isForward = true := rfl
  obtain ⟨accepted,_⟩ := set_whole forward [] 1 [0x09,0x00]
  obtain ⟨doubled,_,again⟩ := set_whole forward [] 1 [0x61,0x00,0x61,0x00]
  refine ⟨accepted.mpr ⟨by decide,[0x09],0x00,rfl,rfl⟩,doubled.mpr ⟨by decide,[0x61,0x00,0x61],0x00,rfl,rfl⟩,?_⟩
  intro same
  have whole := (again _ rfl (by unfold Fits; decide)).mp same _ (List.mem_singleton_self _)
  have found : scan TableSet.sample [0x61,0x00,0x61,0x00] 0 = .ok 2 := by decide +kernel
  rw [found] at whole
  cases whole

-- The packaged tables take an opcode and its argument for a message.
theorem set_whole_packaged :
    ¬ ∀ tables : TableSet, tables.Loaded → ∀ catalog id data next,
      Catalog.set tables catalog id data = .ok next → scan tables data 0 = .ok data.length := by
  intro law
  have claimed := law Packaged.set (.packaged Packaged.tables_built) .empty 1 [0x04,0x00] _ rfl
  have found : scan Packaged.set [0x04,0x00] 0 = fail (.missingTerminator .whole) 2 := by decide +kernel
  rw [found] at claimed
  cases claimed

end
end GameText.Catalog
