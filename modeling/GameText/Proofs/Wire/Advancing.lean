import GameText.Proofs.Wire.Trip

namespace GameText.Wire
open Outcome

section
variable {tables : TableSet}

-- Writing undoes reading byte for byte, so that a message has one written form.
theorem encode_read (accepted : tables.Accepted) (advancing : Advancing tables)
    (noLine : tables.characters.encodeChar? '\n' = none) {data : Bytes} {offset : Nat}
    {entries : List Entry} {after : Int} (decoded : read tables data offset = .ok (entries,after)) :
    encode tables entries = .ok (Bytes.slice data offset after) ∧
      ∀ other place stop, read tables other place = .ok (entries,stop) →
        Bytes.slice other place stop = Bytes.slice data offset after := by
  have written : ∀ {other : Bytes} {place : Nat} {stop : Int}, read tables other place = .ok (entries,stop) →
      encode tables entries = .ok (Bytes.slice other place stop) := by
    intro other place stop reading
    obtain ⟨bytes,rest,_,⟨_,tokens,found,rfl⟩,rfl⟩ := (read_ok advancing).mp reading
    exact encode_tokens accepted.consistent noLine found
  exact ⟨written decoded,fun other place stop again => Except.ok.inj ((written again).symm.trans (written decoded))⟩

theorem encode_read_sample :
    read TableSet.sample [0x03,0x1A,0x02,0x61,0x1A,0x00,0x02,0x14,0x00,0x02,0x00,0x61] 1 =
      .ok ([.complex "square",.text "aé",.lineBreak none none,.argument .delay [0x00,0x02] rfl],11) ∧
    encode TableSet.sample [.complex "square",.text "aé",.lineBreak none none,.argument .delay [0x00,0x02] rfl] =
      .ok [0x1A,0x02,0x61,0x1A,0x00,0x02,0x14,0x00,0x02,0x00] := by
  have decoded : read TableSet.sample [0x03,0x1A,0x02,0x61,0x1A,0x00,0x02,0x14,0x00,0x02,0x00,0x61] 1 =
      .ok ([.complex "square",.text "aé",.lineBreak none none,.argument .delay [0x00,0x02] rfl],11) := by
    decide +kernel
  exact ⟨decoded,(encode_read TableSet.sample_loaded.accepted (by decide) rfl decoded).1⟩

-- A row of negative width lets a reading end before it began: the bytes between
-- are none, and the entries have other bytes.
theorem encode_read_stepping :
    ¬ ∀ tables : TableSet, tables.Accepted → tables.characters.encodeChar? '\n' = none →
      ∀ data offset entries after, read tables data offset = .ok (entries,after) →
        encode tables entries = .ok (Bytes.slice data offset after) := by
  intro law
  have claimed := law stepping stepping_accepted rfl [0x03,0x10,0x00] 0 [.bare .reset rfl] 0 rfl
  have found : encode stepping [.bare .reset rfl] = .ok [0x03,0x00] := rfl
  exact absurd (Except.ok.inj (claimed.symm.trans found)) (by decide)

end

-- The walk finds the end that the reading finds, and only a code without a glyph keeps the
-- reading from the end that the walk finds.
theorem scan_agrees {tables : TableSet} (accepted : tables.Accepted) (advancing : Advancing tables)
    (data : Bytes) (offset : Nat) :
    (∀ entries after, read tables data offset = .ok (entries,after) → scan tables data offset = .ok after) ∧
    (∀ after, scan tables data offset = .ok after →
      (∃ entries, read tables data offset = .ok (entries,after)) ∨
        ∃ (code : Bytes) (place : Int), offset ≤ place ∧ place < after ∧
          read tables data offset = .error (.encoding ⟨.unassignedGlyph code,some place⟩)) ∧
    ∀ fault, scan tables data offset = .error fault → ∃ other, read tables data offset = .error other := by
  have walked : ∀ entries after, read tables data offset = .ok (entries,after) → scan tables data offset = .ok after := by
    intro entries after reading
    obtain ⟨bytes,rest,split,⟨clear,_⟩,place⟩ := (read_ok advancing).mp reading
    exact (scan_found advancing).mpr ⟨bytes,rest,split,clear,place⟩
  refine ⟨walked,fun after found => ?_,fun fault failed => ?_⟩
  · obtain ⟨bytes,rest,split,clear,rfl⟩ := (scan_found advancing).mp found
    have concurs := scan_concurs accepted.consistent offset (bytes ++ rest)
    rw [scan_extent clear.extent] at concurs
    rw [read_clear advancing clear split]
    generalize tokensFrom tables offset (bytes ++ rest) = reading at concurs
    cases concurs with
    | @ended tokens after later => exact .inl ⟨_,rfl⟩
    | @unassigned after place code start inside => exact .inr ⟨code,place,by omega,Int.ofNat_lt.mpr inside,rfl⟩
  · cases reading : read tables data offset with
    | ok made => cases failed.symm.trans (walked _ _ reading)
    | error other => exact ⟨other,rfl⟩

theorem scan_agrees_sample :
    scan TableSet.sample [0x03,0x14,0x00,0x02,0x1A,0x00,0x00,0x61] 1 = .ok 7 ∧
      scan TableSet.sample [0x14,0x00,0x00,0x1A,0x05,0x00] 0 = .ok 6 ∧
      ∃ (code : Bytes) (place : Int), 0 ≤ place ∧ place < 6 ∧
        read TableSet.sample [0x14,0x00,0x00,0x1A,0x05,0x00] 0 =
          .error (.encoding ⟨.unassignedGlyph code,some place⟩) := by
  have law := scan_agrees TableSet.sample_loaded.accepted (by decide)
  have walked : scan TableSet.sample [0x14,0x00,0x00,0x1A,0x05,0x00] 0 = .ok 6 := by decide +kernel
  have stopped : read TableSet.sample [0x14,0x00,0x00,0x1A,0x05,0x00] 0 =
      .error (.encoding ⟨.unassignedGlyph [0x1A,0x05],some 3⟩) := by decide +kernel
  refine ⟨(law _ 1).1 [.argument .delay [0x00,0x02] rfl,.text "é"] 7 (by decide +kernel),walked,?_⟩
  rcases (law _ 0).2.1 6 walked with ⟨entries,made⟩ | found
  · cases stopped.symm.trans made
  · exact found

section
variable {tables : TableSet}

theorem taken_clear (consistent : tables.Consistent) {tokens : List Token} {front back : Bytes}
    (taken : Taken tables tokens front) (unmet : ∀ row behind, ¬ Meets tables (front ++ back) row behind)
    {terminator : UInt8} (ended : tables.terminator = terminator.toNat) : Clear tables (front ++ [terminator]) := by
  induction taken with
  | none => exact .ended ended
  | @token token tokens head more tail going spelled _ ih =>
    obtain ⟨_,_,same,length,_⟩ := spelled_named consistent spelled 0
    cases same
    rw [List.cons_append,List.append_assoc] at unmet ⊢
    have firm : Firm tables head := by
      intro row claimed
      by_contra real
      have width := row_length claimed length
      exact unmet row _ (.here going claimed (by simpa using real) (by rw [List.length_append]; omega))
    exact .token going firm length (ih fun row behind meets => unmet row behind (.later going firm spelled meets))

end

-- A reading makes canonical entries, or it names the first place where the data goes wrong: what
-- stands there cannot be read on, and all before it can, up to an end put there. Only where it
-- meets a row of real width it halts.
theorem read_canonical {tables : TableSet} (accepted : tables.Accepted) (advancing : Advancing tables) {data : Bytes}
    {offset : Nat} (within : offset ≤ data.length) :
    (∀ entries after, read tables data offset = .ok (entries,after) → Canonical tables entries) ∧
    (∀ row behind, Meets tables (data.drop offset) row behind → read tables data offset = halted data row behind) ∧
    ((∀ row behind, ¬ Meets tables (data.drop offset) row behind) →
      ∀ fault, read tables data offset = .error fault → ∃ (cause : EncodingCause) (place : Nat) (terminator : UInt8),
        fault = .encoding ⟨cause,some (place : Int)⟩ ∧ offset ≤ place ∧ place ≤ data.length ∧
        Stuck tables (data.drop place) cause ∧ tables.terminator = terminator.toNat ∧
        ∃ entries, read tables (data.take place ++ [terminator]) offset = .ok (entries,place + 1)) := by
  have consistent := accepted.consistent
  refine ⟨fun entries after made => ?_,fun row behind meets => read_meets consistent advancing meets,
    fun unmet fault failed => ?_⟩
  · obtain ⟨bytes,rest,_,⟨_,tokens,reading,rfl⟩,_⟩ := (read_ok advancing).mp made
    obtain ⟨_,_,_,stream,_⟩ := stream_of_read consistent reading
    exact stream_canonical consistent stream
  · obtain ⟨tokens,front,back,cause,split,taken,stuck,rfl⟩ := read_unmet consistent advancing unmet failed
    obtain ⟨terminator,ended,_⟩ := consistent.ended
    have size := congrArg List.length split
    rw [List.length_drop,List.length_append] at size
    refine ⟨cause,offset + front.length,terminator,rfl,by omega,by omega,?_,ended,entriesOf (tokens ++ []),?_⟩
    · rw [← List.drop_drop,split,List.drop_left]
      exact stuck
    · have here : (data.take (offset + front.length) ++ [terminator]).drop offset = (front ++ [terminator]) ++ [] := by
        rw [List.drop_append_of_le_length (by rw [List.length_take]; omega),List.drop_take,split,
          Nat.add_sub_cancel_left,List.take_left,List.append_nil]
      have last : tokensFrom tables (offset + front.length) [terminator] = .ok ([],offset + front.length + 1) := by
        rw [tokensFrom,if_pos ended.symm]
      have clear := taken_clear consistent taken (split ▸ unmet) ended
      rw [read_clear advancing clear here,List.append_nil,read_taken consistent taken last]
      rfl

theorem read_canonical_sample :
    1 ≤ ([0x03,0x14,0x02,0x00,0x61,0x1A,0x05,0x00] : Bytes).length ∧
    read TableSet.sample [0x03,0x14,0x02,0x00,0x61,0x1A,0x05,0x00] 1 =
      .error (.encoding ⟨.unassignedGlyph [0x1A,0x05],some 5⟩) ∧
    (∃ entries, read TableSet.sample [0x03,0x14,0x02,0x00,0x61,0x00] 1 = .ok (entries,6)) ∧
    Canonical TableSet.sample [.argument .delay [0x02,0x00] rfl,.text "a"] := by
  have within : 1 ≤ ([0x03,0x14,0x02,0x00,0x61,0x1A,0x05,0x00] : Bytes).length := by decide
  have failed : read TableSet.sample [0x03,0x14,0x02,0x00,0x61,0x1A,0x05,0x00] 1 =
      .error (.encoding ⟨.unassignedGlyph [0x1A,0x05],some 5⟩) := by decide +kernel
  refine ⟨within,failed,?_,?_⟩
  · have unmet : ∀ row behind, ¬ Meets TableSet.sample (List.drop 1 [0x03,0x14,0x02,0x00,0x61,0x1A,0x05,0x00]) row behind := by
      intro row behind meets
      have whole : ∀ row ∈ TableSet.sample.commands.rows, row.isWhole = true := by decide
      cases meets.row.2.symm.trans (whole row meets.row.1)
    obtain ⟨cause,place,terminator,same,_,_,_,ended,entries,again⟩ :=
      (read_canonical TableSet.sample_loaded.accepted (by decide) within).2.2 unmet _ failed
    cases same
    obtain rfl : terminator = 0x00 := UInt8.toNat_inj.mp (Int.ofNat.inj ended).symm
    exact ⟨entries,again⟩
  · have whole : 1 ≤ ([0x03,0x14,0x02,0x00,0x61,0x00] : Bytes).length := by decide
    have made : read TableSet.sample [0x03,0x14,0x02,0x00,0x61,0x00] 1 =
        .ok ([.argument .delay [0x02,0x00] rfl,.text "a"],6) := by decide +kernel
    exact (read_canonical TableSet.sample_loaded.accepted (by decide) whole).1 _ _ made

-- With an argument of the width 1.0 a reading fails in another way.
theorem read_canonical_scaled :
    ¬ ∀ tables : TableSet, tables.Accepted → Advancing tables → ∀ (data : Bytes) (offset : Nat), offset ≤ data.length →
      ∀ fault, read tables data offset = .error fault → ∃ error, fault = .encoding error := by
  intro law
  have failed : read TableSet.scaled [0x0A,0x22,0x00] 0 = .error .notAnInteger := by decide +kernel
  obtain ⟨_,same⟩ := law TableSet.scaled TableSet.scaled_loaded.accepted (by decide) _ 0 (by decide) _ failed
  cases same

end GameText.Wire
