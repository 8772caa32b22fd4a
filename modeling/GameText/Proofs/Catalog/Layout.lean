import GameText.Catalog
import GameText.Proofs.Bytes
import GameText.Proofs.OrderedMap
import GameText.Proofs.Wire.RoundTrip
import GameText.Proofs.Wire.Scan
import Mathlib.Algebra.Group.Int.Defs

namespace GameText.Catalog
open Wire

theorem toList_inj {a b : Catalog} (same : a.messages.toList = b.messages.toList) : a = b := by
  cases a; cases b; exact congrArg Catalog.mk (OrderedMap.toList_inj same)

theorem toBytes_layout (catalog : Catalog) :
    catalog.toBytes = wordBytes magic ++ wordBytes catalog.size ++ catalog.layout.rows ++ catalog.layout.blobs := rfl

-- The rows of messages, each with one of the places that its bytes have.
inductive Rows (offsets : List (Bytes × Nat)) : List (Int × Bytes) → Bytes → Prop where
  | none : Rows offsets [] []
  | row {messages : List (Int × Bytes)} {rows : Bytes} {id : Int} {data : Bytes} {offset : Nat}
      (before : Rows offsets messages rows) (place : (data,offset) ∈ offsets) :
      Rows offsets (messages ++ [(id,data)]) (rows ++ wordBytes id.toNat ++ wordBytes offset)

-- A layout of messages behind a table that ends at `start`.
structure Laid (start : Nat) (messages : List (Int × Bytes)) (layout : Layout) : Prop where
  rows : Rows layout.offsets messages layout.rows
  places : ∀ place ∈ layout.offsets, ∃ before after,
    layout.blobs = before ++ (place.1 ++ after) ∧ place.2 = start + before.length

theorem wordBytes_length (value : Nat) : (wordBytes value).length = 4 := Bytes.littleEndian_length 4 value

theorem word_front {file rest : Bytes} {offset value : Nat} (front : file.drop offset = wordBytes value ++ rest)
    (small : value < 2 ^ 32) : word file offset = value := by
  rw [word,front,List.take_left' (wordBytes_length value)]
  exact Bytes.ofLittleEndian_littleEndian small

theorem word_small (file : Bytes) (offset : Nat) : word file offset < 2 ^ 32 := by
  have less := Bytes.ofLittleEndian_lt ((file.drop offset).take 4)
  have short : 256 ^ ((file.drop offset).take 4).length ≤ 256 ^ 4 :=
    Nat.pow_le_pow_right (by decide) (List.length_take_le _ _)
  exact Nat.lt_of_lt_of_le less short

theorem Rows.grow {offsets more : List (Bytes × Nat)} (keeps : ∀ place ∈ offsets, place ∈ more)
    {messages : List (Int × Bytes)} {rows : Bytes} (laid : Rows offsets messages rows) :
    Rows more messages rows := by
  induction laid with
  | none => exact .none
  | row _ place ih => exact .row ih (keeps _ place)

theorem Rows.length {offsets : List (Bytes × Nat)} {messages : List (Int × Bytes)} {rows : Bytes}
    (laid : Rows offsets messages rows) : rows.length = messages.length * rowSize := by
  induction laid with
  | none => rfl
  | row _ _ ih =>
    simp only [List.length_append,wordBytes_length,ih,List.length_singleton,rowSize]
    omega

theorem Rows.at {offsets : List (Bytes × Nat)} {messages : List (Int × Bytes)} {rows : Bytes}
    (laid : Rows offsets messages rows) {index : Nat} {id : Int} {data : Bytes}
    (here : messages[index]? = some (id,data)) : ∃ offset rest, (data,offset) ∈ offsets ∧
      rows.drop (index * rowSize) = wordBytes id.toNat ++ (wordBytes offset ++ rest) := by
  induction laid with
  | none => cases here
  | @row messages rows other bytes offset before place ih =>
    have length := before.length
    by_cases old : index < messages.length
    · rw [List.getElem?_append_left old] at here
      obtain ⟨found,rest,member,front⟩ := ih here
      refine ⟨found,rest ++ wordBytes other.toNat ++ wordBytes offset,member,?_⟩
      have inside : index * rowSize ≤ rows.length := by
        rw [length]
        exact Nat.mul_le_mul_right _ (Nat.le_of_lt old)
      rw [List.append_assoc,List.drop_append_of_le_length inside,front]
      simp only [List.append_assoc]
    · rw [List.getElem?_append_right (Nat.le_of_not_lt old),List.getElem?_singleton] at here
      split at here
      · rename_i last
        cases here
        have position : index * rowSize = rows.length := by
          rw [length,show index = messages.length by omega]
        refine ⟨offset,[],place,?_⟩
        rw [position,List.append_assoc,List.drop_left,List.append_nil]
      · cases here

theorem add_laid {start : Nat} {messages : List (Int × Bytes)} {layout : Layout} (laid : Laid start messages layout)
    (message : Int × Bytes) : Laid start (messages ++ [message]) (layout.add start message) := by
  unfold Layout.add
  split
  · rename_i offset found
    obtain ⟨before,after,split,_⟩ := List.lookup_eq_some_iff.mp found
    have member : (message.2,offset) ∈ layout.offsets := by
      rw [split]
      exact List.mem_append_right _ List.mem_cons_self
    exact ⟨.row laid.rows member,laid.places⟩
  · refine ⟨.row (laid.rows.grow fun place member => List.mem_append_left _ member)
      (List.mem_append_right _ List.mem_cons_self),fun place member => ?_⟩
    rcases List.mem_append.mp member with old | new
    · obtain ⟨before,after,blobs,offset⟩ := laid.places place old
      refine ⟨before,after ++ message.2,?_,offset⟩
      simp only [blobs,List.append_assoc]
    · rw [List.mem_singleton.mp new]
      exact ⟨layout.blobs,[],by rw [List.append_nil],rfl⟩

theorem layout_keeps {valid : List (Int × Bytes) → Layout → Prop} (catalog : Catalog) (first : valid [] ⟨[],[],[]⟩)
    (keeps : ∀ messages layout message, valid messages layout →
      valid (messages ++ [message]) (layout.add (tableEnd catalog.size) message)) :
    valid catalog.messages.toList catalog.layout := by
  have folded : ∀ later done layout, valid done layout →
      valid (done ++ later) (later.foldl (Layout.add (tableEnd catalog.size)) layout) := by
    intro later
    induction later with
    | nil => exact fun done layout kept => (List.append_nil done).symm ▸ kept
    | cons message rest ih =>
      intro done layout kept
      have whole := ih _ _ (keeps done layout message kept)
      rwa [List.append_assoc,List.singleton_append] at whole
  exact folded _ [] _ first

theorem layout_laid (catalog : Catalog) :
    Laid (tableEnd catalog.size) catalog.messages.toList catalog.layout :=
  layout_keeps catalog ⟨.none,List.forall_mem_nil _⟩ fun _ _ message laid => add_laid laid message

-- A file: its header, then rows and messages that a layout put there.
section
variable {tables : TableSet} {count : Nat} {messages : List (Int × Bytes)} {layout : Layout}

theorem header_length (count : Nat) : (wordBytes magic ++ wordBytes count).length = headerSize := by
  rw [List.length_append,wordBytes_length,wordBytes_length]
  rfl

theorem row_front (laid : Laid (tableEnd count) messages layout) {index : Nat} {id : Int} {data : Bytes}
    (here : messages[index]? = some (id,data)) : ∃ offset rest, (data,offset) ∈ layout.offsets ∧
      (wordBytes magic ++ wordBytes count ++ layout.rows ++ layout.blobs).drop (headerSize + index * rowSize) =
        wordBytes id.toNat ++ (wordBytes offset ++ rest) := by
  obtain ⟨offset,rest,member,front⟩ := laid.rows.at here
  obtain ⟨inside,_⟩ := List.getElem?_eq_some_iff.mp here
  have room : index * rowSize ≤ layout.rows.length := by
    rw [laid.rows.length]
    exact Nat.mul_le_mul_right _ (Nat.le_of_lt inside)
  refine ⟨offset,rest ++ layout.blobs,member,?_⟩
  rw [List.append_assoc _ layout.rows,← header_length count,List.drop_length_add_append,List.drop_append_of_le_length room,front]
  simp only [List.append_assoc]

theorem message_front (laid : Laid (tableEnd count) messages layout) (whole : messages.length = count) {data : Bytes}
    {offset : Nat} (place : (data,offset) ∈ layout.offsets) : tableEnd count ≤ offset ∧
      ∃ rest, (wordBytes magic ++ wordBytes count ++ layout.rows ++ layout.blobs).drop offset = data ++ rest := by
  obtain ⟨before,after,blobs,same⟩ := laid.places _ place
  have front : (wordBytes magic ++ wordBytes count ++ layout.rows).length = tableEnd count := by
    rw [List.length_append,header_length,laid.rows.length,whole,tableEnd]
  dsimp only at same blobs
  refine ⟨by omega,after,?_⟩
  rw [same,← front,List.drop_length_add_append,blobs,List.drop_left]

theorem row_words (laid : Laid (tableEnd count) messages layout) (small : ∀ place ∈ layout.offsets, place.2 < 2 ^ 32)
    {index : Nat} {id : Int} {data : Bytes} (here : messages[index]? = some (id,data)) (nonneg : 0 ≤ id)
    (fits : id < 2 ^ 32) : ∃ offset, (data,offset) ∈ layout.offsets ∧
      word (wordBytes magic ++ wordBytes count ++ layout.rows ++ layout.blobs) (headerSize + index * rowSize) = id.toNat ∧
      word (wordBytes magic ++ wordBytes count ++ layout.rows ++ layout.blobs) (headerSize + index * rowSize + 4) = offset := by
  obtain ⟨offset,rest,place,row⟩ := row_front laid here
  refine ⟨offset,place,word_front row (by omega),@word_front _ rest _ _ ?_ (small _ place)⟩
  rw [← List.drop_drop,row,List.drop_left' (wordBytes_length _)]

theorem readRow_laid (forward : tables.commands.isForward = true) (laid : Laid (tableEnd count) messages layout)
    (whole : messages.length = count) (small : ∀ place ∈ layout.offsets, place.2 < 2 ^ 32) {index : Nat} {id : Int}
    {data : Bytes} (here : messages[index]? = some (id,data)) (nonneg : 0 ≤ id) (fits : id < 2 ^ 32)
    (extent : Extent tables data) (map : OrderedMap Int Bytes) :
    readRow tables (wordBytes magic ++ wordBytes count ++ layout.rows ++ layout.blobs) count map index =
      .ok (map.insert id data) := by
  obtain ⟨offset,place,number,position⟩ := row_words laid small here nonneg fits
  obtain ⟨behind,after,blob⟩ := message_front laid whole place
  generalize wordBytes magic ++ wordBytes count ++ layout.rows ++ layout.blobs = file at number position blob ⊢
  have inside : offset < file.length := by
    have length := congrArg List.length blob
    have positive := extent.positive
    rw [List.length_drop,List.length_append] at length
    omega
  have scanned := (scan_forward forward).mpr ⟨data,after,blob,extent,rfl⟩
  simp only [readRow,number,position]
  rw [if_neg (by omega),scanned]
  simp only [bind,Except.bind,slice_front blob,Int.toNat_of_nonneg nonneg]

end

theorem save_ok {catalog : Catalog} {file : Bytes} :
    catalog.save = .ok file ↔ catalog.Fits ∧ file = catalog.toBytes := by
  unfold save
  split
  · rename_i fits
    exact ⟨fun made => ⟨fits,(Except.ok.inj made).symm⟩,fun made => made.2 ▸ rfl⟩
  · rename_i large
    exact ⟨fun made => (nomatch made),fun made => absurd made.1 large⟩

theorem size_small {catalog : Catalog} (fits : catalog.Fits) : catalog.size < 2 ^ 32 := by
  have laid := layout_laid catalog
  cases messages : catalog.messages.toList with
  | nil =>
    rw [size,OrderedMap.size,messages]
    decide
  | cons message rest =>
    have here : catalog.messages.toList[0]? = some message := by rw [messages]; rfl
    obtain ⟨offset,_,place,_⟩ := laid.rows.at here
    have less := fits _ place
    obtain ⟨behind,_⟩ := message_front laid rfl place
    rw [tableEnd,headerSize,rowSize] at behind
    omega

theorem toBytes_length (catalog : Catalog) :
    catalog.toBytes.length = tableEnd catalog.size + catalog.layout.blobs.length := by
  rw [toBytes_layout,List.length_append,List.length_append,header_length,(layout_laid catalog).rows.length]
  rfl

theorem toBytes_words {catalog : Catalog} (fits : catalog.Fits) :
    word catalog.toBytes 0 = magic ∧ word catalog.toBytes 4 = catalog.size := by
  have front : ∀ rest, (wordBytes magic ++ wordBytes catalog.size ++ rest).drop 4 = wordBytes catalog.size ++ rest :=
    fun rest => by rw [List.append_assoc,List.drop_left' (wordBytes_length _)]
  constructor
  · rw [toBytes_layout,List.append_assoc,List.append_assoc]
    exact word_front List.drop_zero (by decide)
  · rw [toBytes_layout,List.append_assoc]
    exact word_front (front _) (size_small fits)

-- Numbers that a row can hold, and messages that end where a walk over them ends.
def Sound (tables : TableSet) (catalog : Catalog) : Prop := ∀ message ∈ catalog.messages.toList,
  (0 ≤ message.1 ∧ message.1 < 2 ^ 32) ∧ Extent tables message.2

theorem ends_exact {tables : TableSet} {data : Bytes} : endsInTerminator tables data = true ↔
    ∃ front last, data = front ++ [last] ∧ tables.terminator = UInt8.toNat last := by
  rcases List.eq_nil_or_concat data with rfl | ⟨front,last,rfl⟩
  · simp [endsInTerminator]
  · rw [List.concat_eq_append,endsInTerminator,List.getLast?_concat,decide_eq_true_eq]
    constructor
    · exact fun same => ⟨front,last,rfl,same.symm⟩
    · rintro ⟨other,byte,split,terminator⟩
      obtain ⟨_,equal⟩ := List.append_inj' split rfl
      cases equal
      exact terminator.symm

theorem Sound.storable {tables : TableSet} {catalog : Catalog} (sound : Sound tables catalog) :
    ∀ message ∈ catalog.messages.toList, (0 ≤ message.1 ∧ message.1 < 2 ^ 32) ∧
      endsInTerminator tables message.2 = true := by
  intro message member
  obtain ⟨range,extent⟩ := sound message member
  exact ⟨range,ends_exact.mpr extent.terminated⟩

theorem ofBytes_layout {tables : TableSet} (forward : tables.commands.isForward = true) {catalog : Catalog}
    (fits : catalog.Fits) (sound : Sound tables catalog) : ofBytes tables catalog.toBytes = .ok catalog := by
  have laid := layout_laid catalog
  have rows : List.Forall₂ (fun index (message : Int × Bytes) => ∀ map : OrderedMap Int Bytes,
      map.contains message.1 = false → readRow tables catalog.toBytes catalog.size map index =
        .ok (map.insert message.1 message.2)) (List.range catalog.size) catalog.messages.toList := by
    rw [List.forall₂_iff_get]
    refine ⟨List.length_range,fun index inside within map _ => ?_⟩
    have here : catalog.messages.toList[index]? = some catalog.messages.toList[index] :=
      List.getElem?_eq_getElem within
    obtain ⟨⟨nonneg,small⟩,extent⟩ := sound _ (List.getElem_mem within)
    rw [List.get_eq_getElem,List.get_eq_getElem,List.getElem_range,toBytes_layout]
    exact readRow_laid forward laid rfl fits here nonneg small extent map
  have folded := @OrderedMap.fold_inserts _ _ _ _ _ _ _ _ rows ∅ catalog.messages.distinct
  have length := toBytes_length catalog
  obtain ⟨first,second⟩ := toBytes_words fits
  rw [ofBytes,if_neg (by rw [length,tableEnd]; omega),if_neg (by rw [first]; exact fun other => other rfl)]
  simp only [second]
  rw [if_neg (by omega),folded]
  rfl

end GameText.Catalog
