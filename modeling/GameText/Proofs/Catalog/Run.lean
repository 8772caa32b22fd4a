import GameText.Proofs.Catalog.History

namespace GameText.Catalog
open Outcome Wire

-- A catalog after a change: what the change made of it, or the catalog itself where the
-- change failed.
def after (tables : TableSet) (catalog : Catalog) (change : Change) : Catalog :=
  match apply tables catalog change with
  | .ok next => next
  | .error _ => catalog

def run (tables : TableSet) (changes : List Change) : Catalog := changes.foldl (after tables) .empty

-- What a change of one message does to a catalog, and to nothing else.
structure Puts (catalog : Catalog) (id : Int) (data : Bytes) (next : Catalog) : Prop where
  ids : next.ids = if id ∈ catalog.ids then catalog.ids else catalog.ids ++ [id]
  stored : next.get id = .ok data
  others : ∀ other, other ≠ id → next.get other = catalog.get other

structure Drops (catalog : Catalog) (id : Int) (next : Catalog) : Prop where
  ids : next.ids = catalog.ids.filter (· ≠ id)
  others : ∀ other, other ≠ id → next.get other = catalog.get other

def Effect (tables : TableSet) (catalog : Catalog) (change : Change) (next : Catalog) : Prop :=
  match change with
  | .set id data => Puts catalog id data next
  | .setScript id script => ∃ entries data, Script.parse tables script = .ok entries ∧
      encode tables entries = .ok data ∧ Puts catalog id data next
  | .delete id => Drops catalog id next
  | _ => True

section
variable {tables : TableSet}

theorem insert_puts (catalog : Catalog) (id : Int) (data : Bytes) :
    Puts catalog id data ⟨catalog.messages.insert id data⟩ := by
  refine ⟨OrderedMap.put_keys id data catalog.messages.toList,?_,fun other apart => ?_⟩
  · rw [get,OrderedMap.get_insert]
  · rw [get,get,OrderedMap.get_insert_other _ apart]

theorem erase_drops (catalog : Catalog) (id : Int) : Drops catalog id ⟨catalog.messages.erase id⟩ := by
  refine ⟨OrderedMap.erase_keys catalog.messages id,fun other apart => ?_⟩
  rw [get,get,OrderedMap.get_erase_other _ apart]

theorem apply_effect {catalog next : Catalog} {change : Change} (applied : apply tables catalog change = .ok next) :
    Effect tables catalog change next := by
  cases change with
  | set id data =>
    obtain ⟨_,_,rfl⟩ := set_exact.mp applied
    exact insert_puts catalog id data
  | setScript id script =>
    obtain ⟨entries,parsed,applied⟩ := bind_ok.mp applied
    obtain ⟨data,encoded,accepted⟩ := bind_ok.mp applied
    obtain ⟨_,_,rfl⟩ := set_exact.mp accepted
    exact ⟨entries,data,parsed,encoded,insert_puts catalog id data⟩
  | delete id =>
    obtain ⟨_,rfl⟩ := delete_exact.mp applied
    exact erase_drops catalog id
  | _ => trivial

-- Bytes that end in the terminator, if no row leads a walk back.
def Ended (tables : TableSet) (data : Bytes) : Prop := Advancing tables →
  ∃ front last, data = front ++ [last] ∧ tables.terminator = UInt8.toNat last

-- What every catalog keeps: numbers that a row of a file can hold, and ended messages.
def Kept (tables : TableSet) (catalog : Catalog) : Prop :=
  ∀ message ∈ catalog.messages.toList, Stored (Ended tables) message

theorem source_ended {given : List Bytes} {data : Bytes} (source : Source tables given data) : Ended tables data := by
  intro advancing
  cases source with
  | given _ ends => exact ends_exact.mp ends
  | encoded _ ends => exact ends_exact.mp ends
  | found found => exact (found_clear advancing found).extent.terminated

theorem after_kept {catalog : Catalog} (kept : Kept tables catalog) (change : Change) :
    Kept tables (after tables catalog change) := by
  unfold after
  cases applied : apply tables catalog change with
  | error fault => exact kept
  | ok next =>
    intro message member
    rcases apply_left applied message member with old | ⟨range,source⟩
    · exact kept message old
    · exact ⟨range,source_ended source⟩

theorem foldl_kept {catalog : Catalog} (kept : Kept tables catalog) (changes : List Change) :
    Kept tables (changes.foldl (after tables) catalog) := by
  induction changes generalizing catalog with
  | nil => exact kept
  | cons change rest ih => exact ih (after_kept kept change)

theorem run_kept (tables : TableSet) (changes : List Change) : Kept tables (run tables changes) :=
  @foldl_kept tables .empty (List.forall_mem_nil _) changes

theorem run_concat (changes : List Change) (change : Change) :
    run tables (changes ++ [change]) = after tables (run tables changes) change := by
  rw [run,run,List.foldl_append]
  rfl

-- After any changes the numbers are distinct and fit a row, and the messages end in the
-- terminator where no row leads a walk back. One change more does to the catalog what it is for, or
-- nothing.
theorem run_invariant (tables : TableSet) (changes : List Change) (change : Change) :
    (run tables changes).ids.Nodup ∧
    (∀ id ∈ (run tables changes).ids, 0 ≤ id ∧ id ≤ 2 ^ 32 - 1) ∧
    (Advancing tables → ∀ message ∈ (run tables changes).messages.toList,
      ∃ front last, message.2 = front ++ [last] ∧ tables.terminator = UInt8.toNat last) ∧
    (∀ next, apply tables (run tables changes) change = .ok next →
      run tables (changes ++ [change]) = next ∧ Effect tables (run tables changes) change next) ∧
    (∀ fault, apply tables (run tables changes) change = .error fault →
      run tables (changes ++ [change]) = run tables changes) := by
  have kept := run_kept tables changes
  refine ⟨(run tables changes).messages.distinct,fun id member => ?_,
    fun advancing message member => (kept message member).2 advancing,fun next applied => ?_,fun fault failed => ?_⟩
  · obtain ⟨message,inside,rfl⟩ := List.mem_map.mp member
    have range := (kept message inside).1
    omega
  · exact ⟨by rw [run_concat,after,applied],apply_effect applied⟩
  · rw [run_concat,after,failed]

theorem run_invariant_sample :
    (run TableSet.sample [.set 9 [0x61,0x00],.setScript 7 "a\x7b:delay 512\x7d",.set 9 [0x00],.reload]).messages.toList =
      [(9,[0x00]),(7,[0x61,0x14,0x00,0x02,0x00])] ∧
    run TableSet.sample [.set 9 [0x61,0x00],.delete 7] = run TableSet.sample [.set 9 [0x61,0x00]] ∧
    ∀ message ∈ (run TableSet.sample [.set 9 [0x61,0x00],.setScript 7 "a\x7b:delay 512\x7d",.set 9 [0x00],.reload]).messages.toList,
      ∃ front last, message.2 = front ++ [last] ∧ TableSet.sample.terminator = UInt8.toNat last := by
  obtain ⟨_,_,_,_,failing⟩ := run_invariant TableSet.sample [.set 9 [0x61,0x00]] (.delete 7)
  obtain ⟨_,_,ended,_⟩ := run_invariant TableSet.sample
    [.set 9 [0x61,0x00],.setScript 7 "a\x7b:delay 512\x7d",.set 9 [0x00],.reload] .reload
  exact ⟨by decide +kernel,failing (.missingId 7) rfl,ended (by decide)⟩

-- A row that leads a walk back lets a message be found empty: the walk over the reset ends
-- in the message before it, in front of where it began.
theorem run_invariant_straying :
    ¬ ∀ tables : TableSet, tables.Accepted → ∀ changes,
      ∀ message ∈ (run tables changes).messages.toList, message.2 ≠ [] := by
  intro law
  have accepted : straying.Accepted :=
    ⟨⟨.ofList [("a",[0x61])],[],rfl⟩,⟨straying.commands.rows,[],[],rfl⟩,rfl⟩
  have claimed := law straying accepted [.replaceByEntries [(1,[.text "a"]),(2,[.bare .reset rfl])],.reload]
  have found : (run straying [.replaceByEntries [(1,[.text "a"]),(2,[.bare .reset rfl])],.reload]).messages.toList =
      [(1,[0x61,0x00]),(2,[])] := rfl
  rw [found] at claimed
  exact claimed (2,[]) (by decide) rfl

end
end GameText.Catalog
