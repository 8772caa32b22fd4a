import GameText.Batch
import GameText.Proofs.OrderedMap
import Mathlib.Algebra.Group.Int.Defs
import Mathlib.Data.List.Forall2

namespace GameText.Batch
open Outcome

-- An operation that succeeds just on what is good, and of which a batch skips all
-- else.
def Answers {α : Type} (good : Bool) (result : Except Fault α) : Prop :=
  (good = true ∧ ∃ value, result = .ok value) ∨
    (good = false ∧ ∃ fault, result = .error fault ∧ fault.isCodec = true)

theorem Answers.bind {α β : Type} {first second : Bool} {result : Except Fault α} {next : α → Except Fault β}
    (before : Answers first result) (after : ∀ value, result = .ok value → Answers second (next value)) :
    Answers (first && second) (result >>= next) := by
  rcases before with ⟨rfl,value,rfl⟩ | ⟨rfl,fault,rfl,codec⟩
  · exact after value rfl
  · exact .inr ⟨rfl,fault,rfl,codec⟩

theorem Answers.good {α : Type} {good : Bool} {result : Except Fault α} (answers : Answers good result) {value : α}
    (given : result = .ok value) : good = true := by
  rcases answers with ⟨good,_⟩ | ⟨_,fault,failed,_⟩
  · exact good
  · cases given.symm.trans failed

theorem Answers.ok {α : Type} (value : α) : Answers true (.ok value : Except Fault α) := .inl ⟨rfl,value,rfl⟩

section
variable {κ α β : Type} {label : κ → FailureKey} {convert : κ → α → Except Fault β}

-- Items and what they are converted to, each beside its key.
abbrev Converts (convert : κ → α → Except Fault β) (items : List (κ × α)) (values : List (κ × β)) : Prop :=
  List.Forall₂ (fun item value => value.1 = item.1 ∧ convert item.1 item.2 = .ok value.2) items values

theorem then_ok {α β : Type} {run : Run α} {next : α → Journal → Run β} {result : β} :
    (run.then next).result = .ok result ↔
      ∃ value, run.result = .ok value ∧ (next value run.journal).result = .ok result := by
  unfold Run.then
  split <;> rename_i found <;> simp [found]

theorem convertItems_result (policy : Policy) (items : List (κ × α)) :
    (convertItems policy label convert items).result = (convertAll policy label convert items .empty).result := by
  unfold convertItems
  dsimp only
  split <;> rename_i found <;> exact found.symm

theorem convertAll_each {policy : Policy} {items : List (κ × α)} {values : List (κ × β)}
    (converts : Converts convert items values) (journal : Journal) :
    (convertAll policy label convert items journal).result = .ok values := by
  induction converts with
  | nil => rfl
  | @cons item value _ _ first _ ih =>
    obtain ⟨key,converted⟩ := value
    obtain ⟨rfl,done⟩ := first
    simp only [convertAll,done,ih]
    rfl

theorem convertAll_exact {items : List (κ × α)} {journal : Journal} {values : List (κ × β)} :
    (convertAll .abort label convert items journal).result = .ok values ↔ Converts convert items values := by
  constructor
  · intro ended
    induction items generalizing values with
    | nil =>
      cases ended
      exact .nil
    | cons item rest ih =>
      rw [convertAll] at ended
      split at ended
      · rename_i value done
        obtain ⟨others,further,rfl⟩ := map_ok.mp ended
        exact .cons ⟨rfl,done⟩ (ih further)
      · cases ended
  · exact fun converts => convertAll_each converts journal

theorem converts_keys {items : List (κ × α)} {values : List (κ × β)} (converts : Converts convert items values) :
    values.map Prod.fst = items.map Prod.fst := by
  have same : List.Forall₂ Eq (items.map Prod.fst) (values.map Prod.fst) :=
    List.forall₂_map_left_iff.mpr (List.forall₂_map_right_iff.mpr (converts.imp fun _ _ facts => facts.1.symm))
  rw [List.forall₂_eq_eq_eq] at same
  exact same.symm

theorem converts_results {items : List (κ × α)} {results : List β} :
    (∃ values, Converts convert items values ∧ values.map Prod.snd = results) ↔
      List.Forall₂ (fun item result => convert item.1 item.2 = .ok result) items results := by
  constructor
  · rintro ⟨values,converts,rfl⟩
    exact List.forall₂_map_right_iff.mpr (converts.imp fun _ _ facts => facts.2)
  · intro each
    induction each with
    | nil => exact ⟨[],.nil,rfl⟩
    | @cons item result _ _ first _ ih =>
      obtain ⟨values,converts,rfl⟩ := ih
      exact ⟨(item.1,result) :: values,.cons ⟨rfl,first⟩ converts,rfl⟩

theorem converts_keyed {key : α → κ} {items : List α} {results : List β}
    (each : List.Forall₂ (fun item result => ∀ key, convert key item = .ok result) items results) :
    ∃ values, Converts convert (items.map fun item => (key item,item)) values ∧ values.map Prod.snd = results :=
  converts_results.mpr (List.forall₂_map_left_iff.mpr (each.imp fun _ _ converted => converted _))

theorem convertAll_good {policy : Policy} {good : κ × α → Bool} {items : List (κ × α)}
    (answers : ∀ item ∈ items, Answers (good item) (convert item.1 item.2))
    (noted : ∀ item ∈ items, (label item.1).hasText = true)
    (goes : policy = .skip ∨ ∀ item ∈ items, good item = true) (journal : Journal) :
    ∃ values, (convertAll policy label convert items journal).result = .ok values ∧
      Converts convert (items.filter good) values := by
  induction items generalizing journal with
  | nil => exact ⟨[],rfl,.nil⟩
  | cons item rest ih =>
    rw [List.forall_mem_cons] at answers noted goes
    have further := fun journal => ih answers.2 noted.2 (goes.imp_right And.right) journal
    rcases answers.1 with ⟨kept,value,done⟩ | ⟨skipped,fault,failed,codec⟩
    · obtain ⟨values,ran,converts⟩ := further journal
      refine ⟨(item.1,value) :: values,?_,?_⟩
      · simp only [convertAll,done,ran]
        rfl
      · rw [List.filter_cons_of_pos kept]
        exact .cons ⟨rfl,done⟩ converts
    · have skips : policy = .skip := goes.resolve_right fun all => by simp [skipped] at all
      obtain ⟨values,ran,converts⟩ := further (journal.skip (label item.1) fault)
      refine ⟨values,?_,by rwa [List.filter_cons_of_neg (by simp [skipped])]⟩
      simp only [convertAll,failed,forgive,skips,codec,noted.1,and_self,if_true] at ran ⊢
      exact ran

end

theorem storeAll_new {tables : TableSet} {policy : Policy} {messages : List (Int × Bytes)} {catalog : Catalog}
    (storable : ∀ message ∈ messages, (0 ≤ message.1 ∧ message.1 < 2 ^ 32) ∧
      Catalog.endsInTerminator tables message.2 = true)
    (distinct : ((catalog.messages.toList ++ messages).map Prod.fst).Nodup) (journal : Journal) :
    (storeAll policy (storeNew tables) messages catalog journal).result =
      .ok ⟨⟨catalog.messages.toList ++ messages,distinct⟩⟩ := by
  induction messages generalizing catalog with
  | nil => exact congrArg (fun map => Except.ok (Catalog.mk map)) (OrderedMap.toList_inj (List.append_nil _).symm)
  | cons message rest ih =>
    rw [List.forall_mem_cons] at storable
    have absent : catalog.messages.contains message.1 = false := by
      rw [List.map_append,List.map_cons] at distinct
      exact OrderedMap.contains_distinct distinct
    have same : (catalog.messages.insert message.1 message.2).toList ++ rest =
        catalog.messages.toList ++ message :: rest := by
      rw [OrderedMap.insert_absent absent,List.append_assoc,List.singleton_append]
    have stored : storeNew tables catalog message.1 message.2 =
        .ok ⟨catalog.messages.insert message.1 message.2⟩ := by
      have range : ¬ (message.1 < 0 ∨ Catalog.maxId < message.1) := by
        rw [Catalog.maxId]
        omega
      simp only [storeNew,Catalog.contains,absent,Catalog.set,if_neg range,storable.1.2]
      rfl
    simp only [storeAll,stored]
    exact (@ih ⟨catalog.messages.insert message.1 message.2⟩ storable.2 (same ▸ distinct)).trans
      (congrArg (fun map => Except.ok (Catalog.mk map)) (OrderedMap.toList_inj same))

end GameText.Batch
