import GameText.Proofs.Catalog.History

namespace GameText.Catalog
open Outcome Wire

-- The number and the offset in a row of a file's table.
def rowId (file : Bytes) (index : Nat) : Int := word file (headerSize + index * rowSize)

def rowOffset (file : Bytes) (index : Nat) : Nat := word file (headerSize + index * rowSize + 4)

-- A file that holds what its header and its table say.
structure WellFormed (tables : TableSet) (file : Bytes) : Prop where
  header : headerSize ≤ file.length
  marked : word file 0 = magic
  table : tableEnd (word file 4) ≤ file.length
  rows : ∀ index < word file 4, tableEnd (word file 4) ≤ rowOffset file index ∧
    rowOffset file index < file.length ∧ ∃ after, scan tables file (rowOffset file index) = .ok after

-- The catalog of a file: a number stands where the table first has it, with the message of the
-- last row that has it, and each message is what a walk takes for one.
structure Holds (tables : TableSet) (file : Bytes) (catalog : Catalog) : Prop where
  ids : catalog.ids = ((List.range (word file 4)).map (rowId file)).eraseDups
  last : ∀ index < word file 4, (∀ later, index < later → later < word file 4 → rowId file later ≠ rowId file index) →
    ∃ after, scan tables file (rowOffset file index) = .ok after ∧
      catalog.get (rowId file index) = .ok (Bytes.slice file (rowOffset file index) after)
  whole : ∀ message ∈ catalog.messages.toList, scan tables message.2 0 = .ok message.2.length

-- A row with the message that it points to.
structure Row (tables : TableSet) (file : Bytes) (count index : Nat) (message : Int × Bytes) : Prop where
  id : message.1 = rowId file index
  behind : tableEnd count ≤ rowOffset file index
  inside : rowOffset file index < file.length
  found : ∃ after, scan tables file (rowOffset file index) = .ok after ∧
    message.2 = Bytes.slice file (rowOffset file index) after

-- A file that is read up to a row whose message comes to a row of real width.
structure Trips (tables : TableSet) (file : Bytes) : Prop where
  header : headerSize ≤ file.length
  marked : word file 0 = magic
  table : tableEnd (word file 4) ≤ file.length
  row : ∃ index < word file 4, (∀ earlier < index, ∃ message, Row tables file (word file 4) earlier message) ∧
    tableEnd (word file 4) ≤ rowOffset file index ∧ rowOffset file index < file.length ∧
      Wire.Trips tables (file.drop (rowOffset file index))

theorem range_split {count index : Nat} : index < count ↔
    ∃ back, List.range count = List.range index ++ index :: back := by
  constructor
  · intro inside
    refine ⟨(List.range count).drop (index + 1),?_⟩
    have split := (List.take_append_drop index (List.range count)).symm
    rwa [List.take_range,Nat.min_eq_left inside.le,List.drop_eq_getElem_cons (by simpa using inside),
      List.getElem_range] at split
  · rintro ⟨back,split⟩
    have size := congrArg List.length split
    simp only [List.length_append,List.length_cons,List.length_range] at size
    omega

theorem range_front {count item : Nat} {front back : List Nat} (split : List.range count = front ++ item :: back) :
    item < count ∧ front = List.range item := by
  have place : item = front.length := by
    have found : (List.range count)[front.length]? = some item := by simp [split]
    rw [List.getElem?_range (by have size := congrArg List.length split; simp at size; omega)] at found
    exact (Option.some.inj found).symm
  have member : item ∈ List.range count := split ▸ List.mem_append_right _ List.mem_cons_self
  have inside := List.mem_range.mp member
  obtain ⟨_,other⟩ := range_split.mp inside
  exact ⟨inside,(List.append_inj (split.symm.trans other) (by simp [← place])).1⟩

section
variable {tables : TableSet} {file : Bytes}

theorem readRow_exact {count index : Nat} {before after : OrderedMap Int Bytes} :
    readRow tables file count before index = .ok after ↔
      ∃ message, Row tables file count index message ∧ after = before.insert message.1 message.2 := by
  change (if rowOffset file index < tableEnd count ∨ file.length ≤ rowOffset file index then _
    else scan tables file (rowOffset file index) >>= fun stop =>
      .ok (before.insert (rowId file index) (Bytes.slice file (rowOffset file index) stop))) = _ ↔ _
  split
  · rename_i outside
    constructor
    · intro failed
      cases failed
    · rintro ⟨_,row,_⟩
      exact absurd outside (not_or.mpr ⟨Nat.not_lt.mpr row.behind,Nat.not_le.mpr row.inside⟩)
  · rename_i placed
    rw [not_or,Nat.not_lt,Nat.not_le] at placed
    rw [bind_ok]
    constructor
    · rintro ⟨stop,scanned,made⟩
      cases made
      exact ⟨(_,_),⟨rfl,placed.1,placed.2,stop,scanned,rfl⟩,rfl⟩
    · rintro ⟨⟨id,data⟩,⟨rfl,_,_,stop,scanned,rfl⟩,rfl⟩
      exact ⟨stop,scanned,rfl⟩

theorem ofBytes_exact {catalog : Catalog} : ofBytes tables file = .ok catalog ↔
    headerSize ≤ file.length ∧ word file 0 = magic ∧ tableEnd (word file 4) ≤ file.length ∧
      ∃ messages, List.Forall₂ (Row tables file (word file 4)) (List.range (word file 4)) messages ∧
        catalog.messages = .ofList messages := by
  have rows : ∀ map, (List.range (word file 4)).foldlM (readRow tables file (word file 4)) ∅ = .ok map ↔
      ∃ messages, List.Forall₂ (Row tables file (word file 4)) (List.range (word file 4)) messages ∧
        map = .ofList messages := by
    have steps : ∀ before index after, readRow tables file (word file 4) before index = .ok after ↔
        ∃ message, Row tables file (word file 4) index message ∧ after = before.insert message.1 message.2 :=
      fun _ _ _ => readRow_exact
    intro map
    rw [OrderedMap.fold_puts steps]
    rfl
  unfold ofBytes
  split
  · rename_i short
    exact ⟨nofun,fun ⟨header,_⟩ => absurd short (Nat.not_lt.mpr header)⟩
  · rename_i header
    split
    · rename_i other
      exact ⟨nofun,fun ⟨_,marked,_⟩ => absurd marked other⟩
    · rename_i marked
      dsimp only
      split
      · rename_i short
        exact ⟨nofun,fun ⟨_,_,table,_⟩ => absurd short (Nat.not_lt.mpr table)⟩
      · rename_i table
        rw [bind_ok]
        constructor
        · rintro ⟨map,read,made⟩
          cases made
          exact ⟨Nat.not_lt.mp header,not_not.mp marked,Nat.not_lt.mp table,(rows map).mp read⟩
        · rintro ⟨_,_,_,made⟩
          exact ⟨catalog.messages,(rows _).mpr made,rfl⟩

theorem ofBytes_formed : (∃ catalog, ofBytes tables file = .ok catalog) ↔ WellFormed tables file := by
  constructor
  · rintro ⟨catalog,reading⟩
    obtain ⟨header,marked,table,messages,each,_⟩ := ofBytes_exact.mp reading
    refine ⟨header,marked,table,fun index inside => ?_⟩
    obtain ⟨message,row⟩ := each_exists.mp ⟨messages,each⟩ index (List.mem_range.mpr inside)
    obtain ⟨after,scanned,_⟩ := row.found
    exact ⟨row.behind,row.inside,after,scanned⟩
  · rintro ⟨header,marked,table,rows⟩
    have each : ∀ index ∈ List.range (word file 4), ∃ message, Row tables file (word file 4) index message := by
      intro index member
      obtain ⟨behind,inside,after,scanned⟩ := rows index (List.mem_range.mp member)
      exact ⟨(_,_),rfl,behind,inside,after,scanned,rfl⟩
    obtain ⟨messages,each⟩ := each_exists.mpr each
    exact ⟨⟨.ofList messages⟩,ofBytes_exact.mpr ⟨header,marked,table,messages,each,rfl⟩⟩

theorem ofBytes_holds (advancing : Advancing tables) {catalog : Catalog}
    (reading : ofBytes tables file = .ok catalog) : Holds tables file catalog := by
  obtain ⟨_,_,_,messages,each,made⟩ := ofBytes_exact.mp reading
  obtain ⟨count,rows⟩ := List.forall₂_iff_get.mp each
  rw [List.length_range] at count
  have ids : messages.map Prod.fst = (List.range (word file 4)).map (rowId file) := by
    have same : List.Forall₂ Eq (messages.map Prod.fst) ((List.range (word file 4)).map (rowId file)) := by
      rw [List.forall₂_map_left_iff,List.forall₂_map_right_iff]
      exact each.flip.imp fun _ _ row => row.id
    exact List.forall₂_eq_eq_eq ▸ same
  refine ⟨?_,fun index inside last => ?_,fun message member => ?_⟩
  · rw [Catalog.ids,made,OrderedMap.ofList_keys,ids]
  · have row := rows index (by rwa [List.length_range]) (by omega)
    rw [List.get_eq_getElem,List.get_eq_getElem,List.getElem_range] at row
    obtain ⟨after,scanned,data⟩ := row.found
    refine ⟨after,scanned,?_⟩
    have split : messages = messages.take index ++ (rowId file index,Bytes.slice file (rowOffset file index) after) ::
        messages.drop (index + 1) := by
      rw [← row.id,← data,List.getElem_cons_drop,List.take_append_drop]
    have later : rowId file index ∉ (messages.drop (index + 1)).map Prod.fst := by
      rw [List.map_drop,ids,List.mem_drop_iff_getElem]
      rintro ⟨more,within,same⟩
      rw [List.length_map,List.length_range] at within
      rw [List.getElem_map,List.getElem_range] at same
      exact last _ (by omega) (by omega) same
    rw [get,made,split,OrderedMap.ofList_last later]
  · have clear := ofBytes_clear advancing reading message member
    exact (scan_found advancing).mpr ⟨message.2,[],(List.append_nil _).symm,clear,by rw [Nat.zero_add]; rfl⟩


theorem rows_read {count : Nat} {indices : List Nat} : (∃ map, indices.foldlM (readRow tables file count) ∅ = .ok map) ↔
    ∀ index ∈ indices, ∃ message, Row tables file count index message := by
  have steps : ∀ before index after, readRow tables file count before index = .ok after ↔
      ∃ message, Row tables file count index message ∧ after = before.insert message.1 message.2 :=
    fun _ _ _ => readRow_exact
  simp only [← each_exists,OrderedMap.fold_puts steps]
  exact ⟨fun ⟨_,pairs,each,_⟩ => ⟨pairs,each⟩,fun ⟨pairs,each⟩ => ⟨_,pairs,each,rfl⟩⟩

variable (advancing : Advancing tables)
include advancing

theorem readRow_stumbling (count index : Nat) (messages : OrderedMap Int Bytes) :
    Fails (fun fault => fault.IsEncoding ∨ fault = .notAnInteger ∧ tableEnd count ≤ rowOffset file index ∧
      rowOffset file index < file.length ∧ Wire.Trips tables (file.drop (rowOffset file index)))
      (readRow tables file count messages index) := by
  dsimp only [readRow]
  split
  · exact .error (.inl ⟨_,rfl⟩)
  · rename_i placed
    rw [not_or,Nat.not_lt,Nat.not_le] at placed
    refine ((scan_advancing advancing file _).1.imp fun fault => ?_).bind fun _ _ => .ok _
    exact Or.imp_right fun ⟨same,trips⟩ => ⟨same,placed.1,placed.2,trips⟩

theorem readRow_trips {count index : Nat} (behind : tableEnd count ≤ rowOffset file index)
    (inside : rowOffset file index < file.length) (trips : Wire.Trips tables (file.drop (rowOffset file index)))
    (messages : OrderedMap Int Bytes) : readRow tables file count messages index = .error .notAnInteger := by
  refine (if_neg (not_or.mpr ⟨Nat.not_lt.mpr behind,Nat.not_le.mpr inside⟩)).trans ?_
  exact bind_error.mpr (.inl (scan_trips advancing trips))

theorem ofBytes_stumbling : Fails (fun fault => fault.IsEncoding ∨ fault = .notAnInteger ∧ Trips tables file)
    (ofBytes tables file) := by
  unfold ofBytes
  split
  · exact .error (.inl ⟨_,rfl⟩)
  rename_i header
  split
  · exact .error (.inl ⟨_,rfl⟩)
  rename_i marked
  dsimp only
  split
  · exact .error (.inl ⟨_,rfl⟩)
  rename_i table
  refine Fails.bind (fun fault failed => ?_) fun _ _ => .ok _
  obtain ⟨front,index,back,map,split,read,failed⟩ := fold_error.mp failed
  obtain ⟨inside,rfl⟩ := range_front split
  refine (readRow_stumbling advancing _ index map fault failed).imp_right fun ⟨same,placed⟩ => ⟨same,?_⟩
  have earlier := rows_read.mp ⟨map,read⟩
  exact ⟨Nat.not_lt.mp header,not_not.mp marked,Nat.not_lt.mp table,index,inside,
    fun other below => earlier other (List.mem_range.mpr below),placed⟩

theorem ofBytes_trips (trips : Trips tables file) : ofBytes tables file = .error .notAnInteger := by
  obtain ⟨header,marked,table,index,inside,earlier,behind,within,trips⟩ := trips
  obtain ⟨map,read⟩ := rows_read.mpr fun other member => earlier other (List.mem_range.mp member)
  obtain ⟨back,split⟩ := range_split.mp inside
  have stopped := fold_error.mpr ⟨_,_,back,map,split,read,readRow_trips advancing behind within trips map⟩
  simp only [ofBytes,if_neg (Nat.not_lt.mpr header),marked,ne_eq,not_true_eq_false,if_false,if_neg (Nat.not_lt.mpr table)]
  exact bind_error.mpr (.inl stopped)

end

-- Exactly the well-formed files are read, and all others are refused by the codec itself, but
-- for those whose walks come to a row of real width.
theorem ofBytes_answers {tables : TableSet} (advancing : Advancing tables) (file : Bytes) :
    (∀ fault, (ofBytes tables file = .error fault ∧ ¬ ∃ error, fault = .encoding error) ↔
      fault = .notAnInteger ∧ Trips tables file) ∧
    ((∃ catalog, ofBytes tables file = .ok catalog) ↔ WellFormed tables file) ∧
    ∀ catalog, ofBytes tables file = .ok catalog → Holds tables file catalog := by
  refine ⟨fun fault => ⟨?_,?_⟩,ofBytes_formed,fun _ => ofBytes_holds advancing⟩
  · rintro ⟨failed,other⟩
    exact (ofBytes_stumbling advancing fault failed).resolve_left other
  · rintro ⟨rfl,trips⟩
    exact ⟨ofBytes_trips advancing trips,nofun⟩

-- Three rows for two numbers, and messages that overlap: the second one lies in an argument.
def overlapping : Bytes :=
  [0x01,0x00,0x00,0x00,0x03,0x00,0x00,0x00,0x07,0x00,0x00,0x00,0x20,0x00,0x00,0x00,0x09,0x00,0x00,0x00,0x22,0x00,0x00,0x00,
   0x07,0x00,0x00,0x00,0x21,0x00,0x00,0x00,0x61,0x14,0x00,0x02,0x00]

theorem overlapping_formed : WellFormed TableSet.sample overlapping := by
  refine ⟨by decide,by decide,by decide,fun index inside => ?_⟩
  have count : word overlapping 4 = 3 := by decide
  obtain rfl | rfl | rfl : index = 0 ∨ index = 1 ∨ index = 2 := by omega
  · exact ⟨by decide,by decide,0x25,by decide +kernel⟩
  · exact ⟨by decide,by decide,0x23,by decide +kernel⟩
  · exact ⟨by decide,by decide,0x25,by decide +kernel⟩

theorem ofBytes_answers_sample : ∃ catalog, ofBytes TableSet.sample overlapping = .ok catalog ∧
    catalog.ids = [7,9] ∧ catalog.get 7 = .ok [0x14,0x00,0x02,0x00] := by
  obtain ⟨_,formed,holds⟩ := @ofBytes_answers TableSet.sample (by decide) overlapping
  obtain ⟨catalog,reading⟩ := formed.mpr overlapping_formed
  have held := holds catalog reading
  have count : word overlapping 4 = 3 := by decide
  have scanned : scan TableSet.sample overlapping (rowOffset overlapping 2) = .ok 0x25 := by decide +kernel
  refine ⟨catalog,reading,?_,?_⟩
  · rw [held.ids]
    decide +kernel
  · obtain ⟨after,found,stored⟩ := held.last 2 (by omega) (by omega)
    cases scanned.symm.trans found
    exact stored

-- One message, with an argument of the width 1.0.
def scaled : Bytes :=
  [0x01,0x00,0x00,0x00,0x01,0x00,0x00,0x00,0x01,0x00,0x00,0x00,0x10,0x00,0x00,0x00,0x0A,0x22,0x00]

theorem ofBytes_answers_scaled :
    ¬ ∀ tables : TableSet, tables.Accepted → Advancing tables → ∀ file fault,
      ofBytes tables file = .error fault → ∃ error, fault = .encoding error := by
  intro law
  have failed : ofBytes TableSet.scaled scaled = .error .notAnInteger := rfl
  obtain ⟨_,same⟩ := law TableSet.scaled TableSet.scaled_loaded.accepted (by decide) _ _ failed
  cases same

end GameText.Catalog
