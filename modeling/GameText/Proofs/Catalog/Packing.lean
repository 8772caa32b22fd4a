import GameText.Proofs.Catalog.Container
import GameText.Proofs.Catalog.Run
import Mathlib.Algebra.GroupWithZero.Nat

namespace GameText.Catalog

-- The bytes of the messages in the order of their first use, each once.
def blobs (catalog : Catalog) : List Bytes := (catalog.messages.toList.map Prod.snd).eraseDups

-- Where one of several byte strings begins when they stand end to end.
def placeIn (blobs : List Bytes) (data : Bytes) : Nat := (blobs.takeWhile (· ≠ data)).flatten.length

-- Where a message begins in the file, behind the header, the table and all that is used before it.
def start (catalog : Catalog) (data : Bytes) : Nat := tableEnd catalog.size + placeIn catalog.blobs data

-- A file as it is written for a catalog.
structure Written (catalog : Catalog) (file : Bytes) : Prop where
  marked : word file 0 = 1
  count : word file 4 = catalog.size
  rows : ∀ index id data, catalog.messages.toList[index]? = some (id,data) →
    rowId file index = id ∧ rowOffset file index = catalog.start data
  stored : ∀ index id data, catalog.messages.toList[index]? = some (id,data) →
    (file.drop (rowOffset file index)).take data.length = data
  shared : ∀ one other first second, catalog.messages.toList[one]? = some first →
    catalog.messages.toList[other]? = some second →
    (rowOffset file one = rowOffset file other ↔ first.2 = second.2)
  packed : file.drop (8 + 8 * catalog.size) = catalog.blobs.flatten
  length : file.length = 8 + 8 * catalog.size + (catalog.blobs.map List.length).sum

theorem placeIn_cons (first : Bytes) (rest : List Bytes) (data : Bytes) :
    placeIn (first :: rest) data = if first = data then 0 else first.length + placeIn rest data := by
  unfold placeIn
  split
  · rename_i same
    simp [same]
  · rename_i apart
    simp [apart]

theorem placeIn_front {blobs : List Bytes} {data : Bytes} (member : data ∈ blobs) (more : List Bytes) :
    placeIn (blobs ++ more) data = placeIn blobs data := by
  induction blobs with
  | nil => cases member
  | cons first rest ih =>
    rw [List.cons_append,placeIn_cons,placeIn_cons]
    split
    · rfl
    · rename_i apart
      rw [ih ((List.mem_cons.mp member).resolve_left (Ne.symm apart))]

theorem placeIn_new {blobs : List Bytes} {data : Bytes} (absent : data ∉ blobs) :
    placeIn (blobs ++ [data]) data = blobs.flatten.length := by
  induction blobs with
  | nil => simp [placeIn]
  | cons first rest ih =>
    rw [List.mem_cons,not_or] at absent
    rw [List.cons_append,placeIn_cons,if_neg (Ne.symm absent.1),ih absent.2,List.flatten_cons,List.length_append]

theorem placeIn_inj {blobs : List Bytes} (filled : ∀ blob ∈ blobs, blob ≠ []) {one other : Bytes} (first : one ∈ blobs)
    (second : other ∈ blobs) (same : placeIn blobs one = placeIn blobs other) : one = other := by
  induction blobs with
  | nil => cases first
  | cons blob rest ih =>
    rw [List.forall_mem_cons] at filled
    have positive := List.length_pos_iff.mpr filled.1
    rw [placeIn_cons,placeIn_cons] at same
    by_cases here : blob = one
    · by_cases there : blob = other
      · exact here.symm.trans there
      · rw [if_pos here,if_neg there] at same
        omega
    · by_cases there : blob = other
      · rw [if_neg here,if_pos there] at same
        omega
      · rw [if_neg here,if_neg there] at same
        exact ih filled.2 ((List.mem_cons.mp first).resolve_left (Ne.symm here))
          ((List.mem_cons.mp second).resolve_left (Ne.symm there)) (by omega)

-- A layout in step with its messages: what it has laid down, and where each of them is.
structure Packed (start : Nat) (messages : List (Int × Bytes)) (layout : Layout) : Prop where
  blobs : layout.blobs = (messages.map Prod.snd).eraseDups.flatten
  offsets : layout.offsets = (messages.map Prod.snd).eraseDups.map fun data =>
    (data,start + placeIn (messages.map Prod.snd).eraseDups data)

theorem contents_concat (messages : List (Int × Bytes)) (message : Int × Bytes) :
    ((messages ++ [message]).map Prod.snd).eraseDups =
      if message.2 ∈ messages.map Prod.snd then (messages.map Prod.snd).eraseDups
      else (messages.map Prod.snd).eraseDups ++ [message.2] := by
  rw [List.map_append]
  exact OrderedMap.eraseDups_concat _ _

theorem add_packed {start : Nat} {messages : List (Int × Bytes)} {layout : Layout}
    (packed : Packed start messages layout) (message : Int × Bytes) :
    Packed start (messages ++ [message]) (layout.add start message) := by
  obtain ⟨blobs,offsets⟩ := packed
  have next := contents_concat messages message
  unfold Layout.add
  split
  · rename_i offset found
    obtain ⟨before,after,split,_⟩ := List.lookup_eq_some_iff.mp found
    have member : (message.2,offset) ∈ layout.offsets := by
      rw [split]
      exact List.mem_append_right _ List.mem_cons_self
    rw [offsets] at member
    obtain ⟨data,known,same⟩ := List.mem_map.mp member
    cases same
    rw [if_pos (List.mem_eraseDups.mp known)] at next
    exact ⟨by rw [next]; exact blobs,by rw [next]; exact offsets⟩
  · rename_i unknown
    have absent : message.2 ∉ (messages.map Prod.snd).eraseDups := by
      intro known
      have apart := List.lookup_eq_none_iff.mp unknown
      rw [offsets] at apart
      simpa using apart _ (List.mem_map_of_mem known)
    rw [if_neg (mt List.mem_eraseDups.mpr absent)] at next
    have kept : ∀ data ∈ (messages.map Prod.snd).eraseDups,
        (data,start + placeIn (messages.map Prod.snd).eraseDups data) =
          (data,start + placeIn ((messages.map Prod.snd).eraseDups ++ [message.2]) data) :=
      fun data known => by rw [placeIn_front known]
    refine ⟨?_,?_⟩
    · rw [next,List.flatten_append,← blobs]
      simp
    · rw [next,List.map_append,← List.map_congr_left kept,← offsets,List.map_singleton,placeIn_new absent,← blobs]

theorem layout_packed (catalog : Catalog) :
    Packed (tableEnd catalog.size) catalog.messages.toList catalog.layout :=
  layout_keeps catalog ⟨rfl,rfl⟩ fun _ _ message packed => add_packed packed message

section
variable {catalog : Catalog}

theorem fits_exact : catalog.Fits ↔ ∀ data ∈ catalog.blobs, catalog.start data < 2 ^ 32 := by
  unfold Fits
  rw [(layout_packed catalog).offsets,List.forall_mem_map]
  rfl

theorem place_start {data : Bytes} {offset : Nat} (place : (data,offset) ∈ catalog.layout.offsets) :
    data ∈ catalog.blobs ∧ offset = catalog.start data := by
  rw [(layout_packed catalog).offsets] at place
  obtain ⟨_,member,same⟩ := List.mem_map.mp place
  cases same
  exact ⟨member,rfl⟩

theorem row_leads (fits : catalog.Fits) {index : Nat} {id : Int} {data : Bytes}
    (here : catalog.messages.toList[index]? = some (id,data)) (nonneg : 0 ≤ id) (small : id < 2 ^ 32) :
    rowId catalog.toBytes index = id ∧ rowOffset catalog.toBytes index = catalog.start data ∧ data ∈ catalog.blobs ∧
      ∃ rest, catalog.toBytes.drop (rowOffset catalog.toBytes index) = data ++ rest := by
  have laid := layout_laid catalog
  obtain ⟨offset,place,number,position⟩ := row_words laid fits here nonneg small
  obtain ⟨_,blob⟩ := message_front laid rfl place
  obtain ⟨member,same⟩ := place_start place
  refine ⟨?_,position.trans same,member,?_⟩
  · rw [rowId,toBytes_layout,number,Int.toNat_of_nonneg nonneg]
  · rw [rowOffset,toBytes_layout,position]
    exact blob

theorem toBytes_behind (catalog : Catalog) : catalog.toBytes.drop (tableEnd catalog.size) = catalog.blobs.flatten := by
  have front : (wordBytes magic ++ wordBytes catalog.size ++ catalog.layout.rows).length = tableEnd catalog.size := by
    rw [List.length_append,header_length,(layout_laid catalog).rows.length]
    rfl
  rw [toBytes_layout,List.drop_left' front]
  exact (layout_packed catalog).blobs

theorem written_toBytes (numbered : ∀ message ∈ catalog.messages.toList, 0 ≤ message.1 ∧ message.1 < 2 ^ 32)
    (filled : ∀ message ∈ catalog.messages.toList, message.2 ≠ []) (fits : catalog.Fits) :
    Written catalog catalog.toBytes := by
  obtain ⟨marked,count⟩ := toBytes_words fits
  have table : tableEnd catalog.size = 8 + 8 * catalog.size := by
    rw [tableEnd,headerSize,rowSize,Nat.mul_comm]
  have row {index : Nat} {id : Int} {data : Bytes} (here : catalog.messages.toList[index]? = some (id,data)) :=
    row_leads fits here (numbered _ (List.mem_of_getElem? here)).1 (numbered _ (List.mem_of_getElem? here)).2
  have nonempty : ∀ blob ∈ catalog.blobs, blob ≠ [] := by
    intro blob member
    obtain ⟨message,inside,rfl⟩ := List.mem_map.mp (List.mem_eraseDups.mp member)
    exact filled message inside
  constructor
  case marked => exact marked
  case count => exact count
  case rows =>
    intro index id data here
    obtain ⟨number,offset,_⟩ := row here
    exact ⟨number,offset⟩
  case stored =>
    intro index id data here
    obtain ⟨_,_,_,rest,blob⟩ := row here
    rw [blob,List.take_left]
  case shared =>
    intro one other first second here there
    obtain ⟨_,begun,member,_⟩ := row here
    obtain ⟨_,begins,listed,_⟩ := row there
    rw [begun,begins]
    constructor
    · exact fun same => placeIn_inj nonempty member listed (Nat.add_left_cancel same)
    · exact fun same => congrArg catalog.start same
  case packed => rw [← table,toBytes_behind]
  case length =>
    rw [toBytes_length,table,(layout_packed catalog).blobs,List.length_flatten]
    rfl

end

-- After any changes a catalog can be written exactly if each of its messages begins at a place
-- that four bytes can say, and then its file is laid out so.
theorem save_written (tables : TableSet) (changes : List Change)
    (filled : ∀ message ∈ (run tables changes).messages.toList, message.2 ≠ []) :
    ((∃ file, (run tables changes).save = .ok file) ↔
      ∀ data ∈ (run tables changes).blobs, (run tables changes).start data < 2 ^ 32) ∧
    ∀ file, (run tables changes).save = .ok file → Written (run tables changes) file := by
  constructor
  · rw [← fits_exact]
    exact ⟨fun ⟨_,saved⟩ => (save_ok.mp saved).1,fun fits => ⟨_,save_ok.mpr ⟨fits,rfl⟩⟩⟩
  · intro file saved
    obtain ⟨fits,rfl⟩ := save_ok.mp saved
    exact written_toBytes (fun message member => (run_kept tables changes message member).1) filled fits

theorem save_written_sample : ∃ file,
    (run TableSet.sample [.set 9 [0x61,0x00],.set 7 [0x14,0x00,0x02,0x00],.set 3 [0x61,0x00]]).save = .ok file ∧
    file.length = 38 ∧ rowOffset file 0 = rowOffset file 2 ∧ rowOffset file 0 ≠ rowOffset file 1 := by
  obtain ⟨saves,written⟩ := save_written TableSet.sample
    [.set 9 [0x61,0x00],.set 7 [0x14,0x00,0x02,0x00],.set 3 [0x61,0x00]] (by decide +kernel)
  obtain ⟨file,saved⟩ := saves.mpr (by decide +kernel)
  obtain ⟨_,_,_,_,shared,_,length⟩ := written file saved
  refine ⟨file,saved,length.trans (by decide +kernel),?_,fun same => ?_⟩
  · exact (shared 0 2 (9,[0x61,0x00]) (3,[0x61,0x00]) (by decide +kernel) (by decide +kernel)).mpr rfl
  · have equal := (shared 0 1 (9,[0x61,0x00]) (7,[0x14,0x00,0x02,0x00]) (by decide +kernel) (by decide +kernel)).mp same
    cases equal

end GameText.Catalog
