import GameText.Proofs.Batch.Fate
import GameText.Proofs.Catalog.Change

namespace GameText.Batch
open Fate Outcome

-- A number that no catalog has a place for, and one that another message has taken.
def outOfRange (id : Int) : Fault := .encoding ⟨.idOutOfRange id,none⟩
def repeated (id : Int) : Fault := .parse ⟨.repeatedMessage id,none,none⟩

-- The fate of a converted message, with the numbers of those converted before it.
def messageFate (taken : List Int) (message : Int × Bytes) : Fate (Int × Bytes) :=
  if 0 ≤ message.1 ∧ message.1 < 2 ^ 32 then
    if message.1 ∈ taken then .unstored (.number message.1,repeated message.1) else .kept message
  else .unstored (.number message.1,outOfRange message.1)

-- What is converted goes on to be stored.
def storing (taken : List Int) : List (Fate (Int × Bytes)) → List (Fate (Int × Bytes))
  | [] => []
  | .kept message :: rest => messageFate taken message :: storing (taken ++ [message.1]) rest
  | fate :: rest => fate :: storing taken rest

theorem storing_refusals {taken : List Int} {first : List (Fate (Int × Bytes))} :
    refusals (storing taken first) = refusals first := by
  induction first generalizing taken with
  | nil => rfl
  | cons fate rest ih =>
    cases fate with
    | kept message =>
      have unrefused : refusal? (messageFate taken message) = none := by
        unfold messageFate
        split
        · split <;> rfl
        · rfl
      simp only [refusals,storing,List.filterMap_cons,unrefused]
      exact ih
    | refused failure => exact congrArg (failure :: ·) ih
    | unstored failure => exact ih

section
variable {tables : TableSet}

-- A catalog holds those of the taken numbers that it has a place for.
def Holds (catalog : Catalog) (taken : List Int) : Prop :=
  ∀ id, catalog.contains id = true ↔ id ∈ taken ∧ 0 ≤ id ∧ id < 2 ^ 32

theorem holds_insert {catalog : Catalog} {taken : List Int} (holds : Holds catalog taken) {id : Int}
    (range : 0 ≤ id ∧ id < 2 ^ 32) (data : Bytes) : Holds ⟨catalog.messages.insert id data⟩ (taken ++ [id]) := by
  intro other
  have old := holds other
  unfold Catalog.contains at old ⊢
  rw [OrderedMap.contains_insert,old,List.mem_append,List.mem_singleton]
  constructor
  · rintro (rfl | ⟨before,inside⟩)
    · exact ⟨.inr rfl,range⟩
    · exact ⟨.inl before,inside⟩
  · rintro ⟨before | rfl,inside⟩
    · exact .inr ⟨before,inside⟩
    · exact .inl rfl

theorem holds_taken {catalog : Catalog} {taken : List Int} (holds : Holds catalog taken) {id : Int}
    (needless : 0 ≤ id ∧ id < 2 ^ 32 → id ∈ taken) : Holds catalog (taken ++ [id]) := by
  intro other
  rw [holds other,List.mem_append,List.mem_singleton]
  constructor
  · rintro ⟨before,inside⟩
    exact ⟨.inl before,inside⟩
  · rintro ⟨before | rfl,inside⟩
    · exact ⟨before,inside⟩
    · exact ⟨needless inside,inside⟩

theorem storeNew_outside {catalog : Catalog} {taken : List Int} (holds : Holds catalog taken) {message : Int × Bytes}
    (outside : ¬ (0 ≤ message.1 ∧ message.1 < 2 ^ 32)) :
    storeNew tables catalog message.1 message.2 = Catalog.refuseId message.1 := by
  have absent : ¬ catalog.contains message.1 = true := fun present => outside ((holds message.1).mp present).2
  have beyond : message.1 < 0 ∨ Catalog.maxId < message.1 := by
    rw [Catalog.maxId]
    omega
  unfold storeNew Catalog.set
  rw [if_neg absent,if_pos beyond]

theorem storeNew_fate {catalog : Catalog} {taken : List Int} (holds : Holds catalog taken) {message : Int × Bytes}
    (ends : Catalog.endsInTerminator tables message.2 = true) (numbered : Text.hasNumeral message.1 = true) :
    (messageFate taken message = .kept message ∧ catalog.contains message.1 = false ∧
      storeNew tables catalog message.1 message.2 = .ok ⟨catalog.messages.insert message.1 message.2⟩ ∧
      Holds ⟨catalog.messages.insert message.1 message.2⟩ (taken ++ [message.1])) ∨
    ∃ fault, messageFate taken message = .unstored (.number message.1,fault) ∧ fault.isCodec = true ∧
      storeNew tables catalog message.1 message.2 = .error fault ∧ Holds catalog (taken ++ [message.1]) := by
  unfold messageFate
  by_cases range : 0 ≤ message.1 ∧ message.1 < 2 ^ 32
  · rw [if_pos range]
    by_cases present : message.1 ∈ taken
    · right
      rw [if_pos present]
      refine ⟨_,rfl,rfl,?_,holds_taken holds fun _ => present⟩
      exact if_pos ((holds message.1).mpr ⟨present,range⟩)
    · left
      have absent : ¬ catalog.contains message.1 = true := fun found => present ((holds message.1).mp found).1
      rw [if_neg present]
      refine ⟨rfl,by simpa using absent,?_,holds_insert holds range message.2⟩
      exact (if_neg absent).trans (Catalog.set_exact.mpr ⟨range,ends,rfl⟩)
  · right
    rw [if_neg range]
    refine ⟨_,rfl,rfl,?_,holds_taken holds fun inside => absurd inside range⟩
    rw [storeNew_outside holds range,Catalog.refuseId,if_pos numbered]
    rfl

variable {first : List (Fate (Int × Bytes))} (unheard : objections first = [])
  (ends : ∀ message ∈ values first, Catalog.endsInTerminator tables message.2 = true)
include unheard ends

theorem storeAll_fates (numbered : ∀ message ∈ values first, Text.hasNumeral message.1 = true) {catalog : Catalog}
    {taken : List Int} (holds : Holds catalog taken) :
    ∃ next : Catalog, next.messages.toList = catalog.messages.toList ++ values (storing taken first) ∧
      (∀ journal, storeAll .skip (storeNew tables) (values first) catalog journal =
        ⟨.ok next,journal.noting (objections (storing taken first))⟩) ∧
      ∀ journal, storeAll .abort (storeNew tables) (values first) catalog journal =
        ⟨stopped (objections (storing taken first)) next,journal⟩ := by
  induction first generalizing catalog taken with
  | nil => exact ⟨catalog,(List.append_nil _).symm,fun _ => rfl,fun _ => rfl⟩
  | cons fate rest ih =>
    cases fate with
    | refused failure => exact ih unheard ends numbered holds
    | unstored failure => cases unheard
    | kept message =>
      rw [values_kept,List.forall_mem_cons] at ends numbered
      simp only [values_kept,storeAll,storing]
      rcases storeNew_fate holds ends.1 numbered.1 with
        ⟨fate,absent,stored,grown⟩ | ⟨fault,fate,codec,refused,grown⟩
      · obtain ⟨next,list,skips,stops⟩ := ih unheard ends.2 numbered.2 grown
        refine ⟨next,?_,fun journal => ?_,fun journal => ?_⟩
        · rw [list,OrderedMap.insert_absent absent,fate,List.append_assoc]
          rfl
        · simp only [stored,skips,fate]
          rfl
        · simp only [stored,stops,fate]
          rfl
      · obtain ⟨next,list,skips,stops⟩ := ih unheard ends.2 numbered.2 grown
        refine ⟨next,?_,fun journal => ?_,fun journal => ?_⟩
        · rw [list,fate]
          rfl
        · simp only [refused,forgive,codec,FailureKey.hasText,numbered.1,skips,fate]
          rfl
        · simp only [refused,fate]
          rfl

theorem storeAll_returns {catalog : Catalog} {taken : List Int} (holds : Holds catalog taken) {journal : Journal} :
    (∃ next, (storeAll .skip (storeNew tables) (values first) catalog journal).result = .ok next) ↔
      ∀ message ∈ values first, Text.hasNumeral message.1 = true := by
  constructor
  · clear unheard
    generalize values first = messages at ends
    intro returns
    induction messages generalizing catalog taken journal with
    | nil => exact List.forall_mem_nil _
    | cons message rest ih =>
      rw [List.forall_mem_cons] at ends ⊢
      obtain ⟨next,ended⟩ := returns
      rw [storeAll] at ended
      by_cases numbered : Text.hasNumeral message.1 = true
      · refine ⟨numbered,?_⟩
        rcases storeNew_fate holds ends.1 numbered with ⟨_,_,stored,grown⟩ | ⟨fault,_,codec,refused,grown⟩
        · rw [stored] at ended
          exact ih grown ends.2 ⟨next,ended⟩
        · simp only [refused,forgive,codec,FailureKey.hasText,numbered,and_self,if_true] at ended
          exact ih grown ends.2 ⟨next,ended⟩
      · have outside : ¬ (0 ≤ message.1 ∧ message.1 < 2 ^ 32) :=
          fun inside => numbered (Text.hasNumeral_word inside.1 inside.2)
        rw [storeNew_outside holds outside,Catalog.refuseId,if_neg numbered] at ended
        simp [forgive,Fault.isCodec] at ended
  · intro numbered
    obtain ⟨next,_,skips,_⟩ := storeAll_fates unheard ends numbered holds
    exact ⟨next,congrArg Run.result (skips journal)⟩

end

section
variable {tables : TableSet}

theorem storeAll_silent {store : Catalog → Int → Bytes → Except Fault Catalog} {messages : List (Int × Bytes)}
    {catalog : Catalog} {journal : Journal} : (storeAll .abort store messages catalog journal).journal = journal := by
  induction messages generalizing catalog with
  | nil => rfl
  | cons message rest ih =>
    rw [storeAll]
    split
    · exact ih
    · rfl

theorem storeNew_set {catalog : Catalog} {id : Int} (absent : catalog.messages.contains id = false) (data : Bytes) :
    storeNew tables catalog id data = catalog.set tables id data := if_neg (by simp [Catalog.contains,absent])

theorem storeAll_distinct {policy : Policy} {messages : List (Int × Bytes)} {catalog : Catalog}
    (distinct : ((catalog.messages.toList ++ messages).map Prod.fst).Nodup) (journal : Journal) :
    storeAll policy (Catalog.set tables) messages catalog journal =
      storeAll policy (storeNew tables) messages catalog journal := by
  induction messages generalizing catalog journal with
  | nil => rfl
  | cons message rest ih =>
    have absent : catalog.messages.contains message.1 = false := by
      rw [List.map_append,List.map_cons] at distinct
      exact OrderedMap.contains_distinct distinct
    have fewer : ((catalog.messages.toList ++ rest).map Prod.fst).Nodup :=
      distinct.sublist (((List.Sublist.refl _).append (List.sublist_cons_self _ _)).map _)
    simp only [storeAll,storeNew_set absent]
    split
    · rename_i next stored
      obtain ⟨_,_,rfl⟩ := Catalog.set_exact.mp stored
      refine ih ?_ journal
      rw [OrderedMap.insert_absent absent,List.append_assoc]
      exact distinct
    · split
      · exact ih fewer _
      · rfl

theorem empty_holds : Holds .empty [] := by
  intro id
  simp [Catalog.contains,Catalog.empty,OrderedMap.contains,OrderedMap.keys,EmptyCollection.emptyCollection,
    OrderedMap.empty]

end
end GameText.Batch
