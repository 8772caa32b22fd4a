import GameText.Proofs.Catalog.Layout
import GameText.Proofs.Text.Numeral

namespace GameText.Catalog
open Outcome Wire
variable {tables : TableSet}

theorem refuseId_fails {α : Type} (id : Int) (value : α) : refuseId id ≠ .ok value := by
  unfold refuseId refuse
  split <;> simp

theorem set_exact {catalog next : Catalog} {id : Int} {data : Bytes} :
    catalog.set tables id data = .ok next ↔
      (0 ≤ id ∧ id < 2 ^ 32) ∧ endsInTerminator tables data = true ∧ next = ⟨catalog.messages.insert id data⟩ := by
  rw [set,maxId]
  split
  · rename_i outside
    exact ⟨fun accepted => absurd accepted (refuseId_fails id next),fun ⟨range,_⟩ => by omega⟩
  · rename_i inside
    split
    · rename_i ends
      rw [Except.ok.injEq,@eq_comm _ _ next]
      exact ⟨fun same => ⟨by omega,ends,same⟩,fun ⟨_,_,same⟩ => same⟩
    · rename_i loose
      exact ⟨nofun,fun ⟨_,ends,_⟩ => absurd ends loose⟩

theorem delete_exact {catalog next : Catalog} {id : Int} :
    catalog.delete id = .ok next ↔ catalog.contains id = true ∧ next = ⟨catalog.messages.erase id⟩ := by
  rw [delete]
  split
  · rename_i present
    rw [Except.ok.injEq,@eq_comm _ _ next]
    exact ⟨fun same => ⟨present,same⟩,And.right⟩
  · rename_i absent
    exact ⟨nofun,fun ⟨present,_⟩ => absurd present absent⟩

-- A message of a catalog: a number that a row can hold, with bytes of some kind.
def Stored (valid : Bytes → Prop) (message : Int × Bytes) : Prop :=
  (0 ≤ message.1 ∧ message.1 < 2 ^ 32) ∧ valid message.2

theorem insert_left {valid : Bytes → Prop} {messages : OrderedMap Int Bytes} {id : Int} {data : Bytes}
    (new : Stored valid (id,data)) :
    ∀ message ∈ (messages.insert id data).toList, message ∈ messages.toList ∨ Stored valid message := by
  intro message member
  rcases OrderedMap.put_mem member with rfl | old
  · exact .inr new
  · exact .inl old

theorem set_left {valid : Bytes → Prop} {catalog next : Catalog} {id : Int} {data : Bytes}
    (new : endsInTerminator tables data = true → valid data) (accepted : catalog.set tables id data = .ok next) :
    ∀ message ∈ next.messages.toList, message ∈ catalog.messages.toList ∨ Stored valid message := by
  obtain ⟨range,ends,rfl⟩ := set_exact.mp accepted
  exact insert_left ⟨range,new ends⟩

theorem fold_stored {α σ : Type} {messages : σ → OrderedMap Int Bytes} {step : σ → α → Except Fault σ}
    {items : List α} {first last : σ} {valid : Bytes → Prop} (empty : (messages first).toList = [])
    (adds : ∀ item ∈ items, ∀ before after, step before item = .ok after →
      ∀ message ∈ (messages after).toList, message ∈ (messages before).toList ∨ Stored valid message)
    (ran : items.foldlM step first = .ok last) : ∀ message ∈ (messages last).toList, Stored valid message := by
  refine fold_preserves (fun state => ∀ message ∈ (messages state).toList, Stored valid message) ?_
    (empty ▸ List.forall_mem_nil _) ran
  intro item inside before after stored stepped message member
  exact (adds item inside before after stepped message member).elim (stored message) id

-- Bytes that a walk over a file took for a message.
def Found (tables : TableSet) (file data : Bytes) : Prop :=
  ∃ (offset : Nat) (after : Int), scan tables file offset = .ok after ∧ data = Bytes.slice file offset after

theorem readRow_left {file : Bytes} {count index : Nat} {before after : OrderedMap Int Bytes}
    (reading : readRow tables file count before index = .ok after) :
    ∀ message ∈ after.toList, message ∈ before.toList ∨ Stored (Found tables file) message := by
  simp only [readRow] at reading
  split at reading
  · cases reading
  · obtain ⟨stop,scanned,made⟩ := bind_ok.mp reading
    cases made
    have small := word_small file (headerSize + index * rowSize)
    exact insert_left ⟨⟨by omega,by omega⟩,⟨_,_,scanned,rfl⟩⟩

theorem ofBytes_found {file : Bytes} {catalog : Catalog} (reading : ofBytes tables file = .ok catalog) :
    ∀ message ∈ catalog.messages.toList, Stored (Found tables file) message := by
  unfold ofBytes at reading
  split at reading
  · cases reading
  · split at reading
    · cases reading
    · dsimp only at reading
      split at reading
      · cases reading
      · obtain ⟨messages,rows,made⟩ := bind_ok.mp reading
        cases made
        exact @fold_stored _ _ id _ _ _ _ _ rfl (fun _ _ _ _ row => readRow_left row) rows

theorem ofBytes_numbered {file : Bytes} {catalog : Catalog} (reading : ofBytes tables file = .ok catalog) :
    ∀ message ∈ catalog.messages.toList, Text.hasNumeral message.1 = true := by
  intro message member
  obtain ⟨⟨nonneg,small⟩,_⟩ := ofBytes_found reading message member
  exact Text.hasNumeral_word nonneg small

-- The bytes that a change comes with.
def Change.given : Change → List Bytes
  | .replaceByMessages messages => messages.map Prod.snd
  | .set _ data => [data]
  | _ => []

-- Where the bytes of a message come from: they were given, encoded, or found in a file.
inductive Source (tables : TableSet) (given : List Bytes) (data : Bytes) : Prop where
  | given (member : data ∈ given) (ends : endsInTerminator tables data = true)
  | encoded {entries : List Entry} (made : encode tables entries = .ok data)
      (ends : endsInTerminator tables data = true)
  | found {file : Bytes} (found : Found tables file data)

theorem ofBytes_source {file : Bytes} {catalog : Catalog} (given : List Bytes)
    (reading : ofBytes tables file = .ok catalog) :
    ∀ message ∈ catalog.messages.toList, Stored (Source tables given) message := by
  intro message member
  obtain ⟨range,found⟩ := ofBytes_found reading message member
  exact ⟨range,.found found⟩

theorem apply_left {catalog next : Catalog} {change : Change} (applied : apply tables catalog change = .ok next) :
    ∀ message ∈ next.messages.toList,
      message ∈ catalog.messages.toList ∨ Stored (Source tables change.given) message := by
  cases change with
  | replaceByFile file => exact fun message member => .inr (ofBytes_source _ applied message member)
  | reload =>
    obtain ⟨file,_,reading⟩ := bind_ok.mp applied
    exact fun message member => .inr (ofBytes_source _ reading message member)
  | replaceByMessages messages =>
    refine fun message member => .inr (@fold_stored _ _ Catalog.messages _ _ _ _ _ rfl ?_ applied message member)
    intro given inside before after accepted
    have one : given.2 ∈ messages.map Prod.snd := List.mem_map_of_mem (OrderedMap.ofList_mem inside)
    exact set_left (fun ends => .given one ends) accepted
  | replaceByEntries messages =>
    refine fun message member => .inr (@fold_stored _ _ Catalog.messages _ _ _ _ _ rfl ?_ applied message member)
    intro entries inside before after accepted
    obtain ⟨data,encoded,accepted⟩ := bind_ok.mp accepted
    exact set_left (fun ends => .encoded encoded ends) accepted
  | set id data => exact set_left (fun ends => .given (List.mem_singleton_self data) ends) applied
  | setScript id script =>
    obtain ⟨entries,_,applied⟩ := bind_ok.mp applied
    obtain ⟨data,encoded,accepted⟩ := bind_ok.mp applied
    exact set_left (fun ends => .encoded encoded ends) accepted
  | delete id =>
    obtain ⟨_,rfl⟩ := delete_exact.mp applied
    exact fun message member => .inl (List.mem_of_mem_filter member)

end GameText.Catalog
