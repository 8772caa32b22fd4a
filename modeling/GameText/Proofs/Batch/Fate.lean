import GameText.Proofs.Batch

namespace GameText

-- What becomes of an item of a batch that skips. It is kept with its value, or it is
-- filed as a failure: while it is converted or, once converted, while it is stored.
inductive Fate (β : Type) where
  | kept (value : β)
  | refused (failure : FailureKey × Fault)
  | unstored (failure : FailureKey × Fault)

namespace Fate
variable {β γ : Type}

def value? : Fate β → Option β
  | kept value => some value
  | _ => none

def refusal? : Fate β → Option (FailureKey × Fault)
  | refused failure => some failure
  | _ => none

def objection? : Fate β → Option (FailureKey × Fault)
  | unstored failure => some failure
  | _ => none

def map (f : β → γ) : Fate β → Fate γ
  | kept value => .kept (f value)
  | refused failure => .refused failure
  | unstored failure => .unstored failure

def values (fates : List (Fate β)) : List β := fates.filterMap value?
def refusals (fates : List (Fate β)) : List (FailureKey × Fault) := fates.filterMap refusal?
def objections (fates : List (Fate β)) : List (FailureKey × Fault) := fates.filterMap objection?

theorem values_kept (value : β) (rest : List (Fate β)) : values (.kept value :: rest) = value :: values rest := rfl

-- All failures of the conversion come before those of the storing.
def failures (fates : List (Fate β)) : List (FailureKey × Fault) := refusals fates ++ objections fates

theorem tally (fates : List (Fate β)) : (values fates).length + (failures fates).length = fates.length := by
  unfold failures values refusals objections
  rw [List.length_append]
  induction fates with
  | nil => rfl
  | cons fate rest ih =>
    cases fate <;> simp only [List.filterMap_cons,value?,refusal?,objection?,List.length_cons] <;> omega

theorem values_map (f : β → γ) (fates : List (Fate β)) : values (fates.map (map f)) = (values fates).map f := by
  unfold values
  rw [List.filterMap_map,List.map_filterMap]
  congr 1
  funext fate
  cases fate <;> rfl

theorem refusals_map (f : β → γ) (fates : List (Fate β)) : refusals (fates.map (map f)) = refusals fates := by
  unfold refusals
  rw [List.filterMap_map]
  congr 1
  funext fate
  cases fate <;> rfl

theorem objections_map (f : β → γ) (fates : List (Fate β)) : objections (fates.map (map f)) = objections fates := by
  unfold objections
  rw [List.filterMap_map]
  congr 1
  funext fate
  cases fate <;> rfl

end Fate

namespace Journal

def noting (journal : Journal) (failures : List (FailureKey × Fault)) : Journal :=
  failures.foldl (fun journal failure => journal.skip failure.1 failure.2) journal

theorem noting_failures (journal : Journal) (failures : List (FailureKey × Fault)) :
    (journal.noting failures).failures = journal.failures ++ failures := by
  induction failures generalizing journal with
  | nil => exact (List.append_nil _).symm
  | cons failure rest ih =>
    change ((journal.skip failure.1 failure.2).noting rest).failures = _
    rw [ih]
    exact List.append_assoc _ _ _

end Journal

namespace Batch
open Fate Outcome

-- Where nothing may be skipped the first failure ends the conversion.
def stopped {α : Type} (failures : List (FailureKey × Fault)) (value : α) : Except Fault α :=
  match failures with
  | [] => .ok value
  | failure :: _ => .error failure.2

theorem stopped_map {α β : Type} (failures : List (FailureKey × Fault)) (value : α) (f : α → β) :
    (stopped failures value).map f = stopped failures (f value) := by
  cases failures <;> rfl

section
variable {κ α β : Type} (label : κ → FailureKey) (convert : κ → α → Except Fault β)

-- The fate of an item in its conversion, which looks at no other item.
def itemFate (item : κ × α) : Fate (κ × β) :=
  match convert item.1 item.2 with
  | .ok value => .kept (item.1,value)
  | .error fault => .refused (label item.1,fault)

def fates (items : List (κ × α)) : List (Fate (κ × β)) := items.map (itemFate label convert)

-- A failure of the item can be noted.
def Skippable (item : κ × α) : Prop :=
  ∀ fault, convert item.1 item.2 = .error fault → fault.isCodec = true ∧ (label item.1).hasText = true

variable {convert}

theorem fates_unconverted {item : κ × α} {fault : Fault} (failed : convert item.1 item.2 = .error fault)
    (rest : List (κ × α)) :
    values (fates label convert (item :: rest)) = values (fates label convert rest) ∧
      refusals (fates label convert (item :: rest)) = (label item.1,fault) :: refusals (fates label convert rest) := by
  simp only [fates,values,refusals,List.map_cons,itemFate,failed]
  exact ⟨rfl,rfl⟩

theorem fates_converted {item : κ × α} {value : β} (done : convert item.1 item.2 = .ok value) (rest : List (κ × α)) :
    values (fates label convert (item :: rest)) = (item.1,value) :: values (fates label convert rest) ∧
      refusals (fates label convert (item :: rest)) = refusals (fates label convert rest) := by
  simp only [fates,values,refusals,List.map_cons,itemFate,done]
  exact ⟨rfl,rfl⟩

variable {label}

theorem fates_objections (items : List (κ × α)) : objections (fates label convert items) = [] := by
  unfold objections fates
  rw [List.filterMap_map,List.filterMap_eq_nil_iff]
  intro item _
  unfold Function.comp itemFate
  split <;> rfl

theorem convertAll_skips {items : List (κ × α)} (skippable : ∀ item ∈ items, Skippable label convert item)
    (journal : Journal) :
    convertAll .skip label convert items journal =
      ⟨.ok (values (fates label convert items)),journal.noting (refusals (fates label convert items))⟩ := by
  induction items generalizing journal with
  | nil => rfl
  | cons item rest ih =>
    rw [List.forall_mem_cons] at skippable
    cases converted : convert item.1 item.2 with
    | ok value =>
      obtain ⟨kept,noted⟩ := fates_converted label converted rest
      simp only [convertAll,converted,ih skippable.2,kept,noted]
      rfl
    | error fault =>
      obtain ⟨codec,text⟩ := skippable.1 fault converted
      obtain ⟨kept,noted⟩ := fates_unconverted label converted rest
      simp only [convertAll,converted,forgive,codec,text,and_self,if_true,ih skippable.2,kept,noted]
      rfl

theorem convertAll_stops (items : List (κ × α)) (journal : Journal) :
    convertAll .abort label convert items journal =
      ⟨stopped (refusals (fates label convert items)) (values (fates label convert items)),journal⟩ := by
  induction items with
  | nil => rfl
  | cons item rest ih =>
    cases converted : convert item.1 item.2 with
    | ok value =>
      obtain ⟨kept,noted⟩ := fates_converted label converted rest
      simp only [convertAll,converted,ih,kept,noted,stopped_map]
    | error fault =>
      obtain ⟨_,noted⟩ := fates_unconverted label converted rest
      simp only [convertAll,converted,noted]
      rfl

theorem convertAll_returns {items : List (κ × α)} {journal : Journal} :
    (∃ values, (convertAll .skip label convert items journal).result = .ok values) ↔
      ∀ item ∈ items, Skippable label convert item := by
  constructor
  · intro returns
    induction items generalizing journal with
    | nil => exact List.forall_mem_nil _
    | cons item rest ih =>
      obtain ⟨values,ended⟩ := returns
      rw [List.forall_mem_cons]
      rw [convertAll] at ended
      split at ended
      · rename_i value done
        obtain ⟨others,further,_⟩ := map_ok.mp ended
        refine ⟨?_,ih ⟨others,further⟩⟩
        intro fault failed
        cases done.symm.trans failed
      · rename_i fault failed
        split at ended
        · rename_i noted forgiven
          refine ⟨?_,ih ⟨values,ended⟩⟩
          intro other again
          cases failed.symm.trans again
          unfold forgive at forgiven
          split at forgiven
          · rename_i codec
            split at forgiven
            · rename_i text
              exact ⟨codec.2,text⟩
            · cases forgiven
          · cases forgiven
        · cases ended
  · intro skippable
    exact ⟨_,congrArg Run.result (convertAll_skips skippable journal)⟩

end

-- A batch that settles: under the skip policy it ends with a result and the failures
-- of its fates, and under the abort policy with the first of them, if there is one. The
-- summary counts what was not refused as converted, whatever becomes of it.
structure Settles {α β : Type} (run : Policy → Run α) (result : α) (fates : List (Fate β)) (converted : Nat) :
    Prop where
  skips : run .skip = ⟨.ok result,((Journal.empty.noting (refusals fates)).summary converted).noting (objections fates)⟩
  stops : (run .abort).result = stopped (failures fates) result
  counted : converted + (refusals fates).length = fates.length

theorem Settles.then {α β γ δ : Type} {first : Policy → Run α} {value : α} {before : List (Fate β)} {converted : Nat}
    (settles : Settles first value before converted) (unheard : objections before = [])
    {next : Policy → α → Journal → Run γ} {result : γ} {after : List (Fate δ)}
    (same : refusals after = refusals before) (even : after.length = before.length)
    (skips : ∀ journal, next .skip value journal = ⟨.ok result,journal.noting (objections after)⟩)
    (stops : ∀ journal, next .abort value journal = ⟨stopped (objections after) result,journal⟩) :
    Settles (fun policy => (first policy).then (next policy)) result after converted := by
  obtain ⟨skipped,ended,counted⟩ := settles
  rw [failures,unheard,List.append_nil] at ended
  refine ⟨?_,?_,by rw [same,even,counted]⟩
  · simp only [Run.then,skipped,unheard,skips,same]
    rfl
  · rw [failures,same]
    unfold Run.then
    rw [ended]
    cases refusals before with
    | nil => exact congrArg Run.result (stops _)
    | cons failure rest => rfl

theorem then_silent {α β : Type} {run : Run α} {next : α → Journal → Run β} (silent : run.journal.failures = [])
    (keeps : ∀ value journal, (next value journal).journal = journal) : (run.then next).journal.failures = [] := by
  unfold Run.then
  split
  · rw [keeps]
    exact silent
  · exact silent

theorem Settles.noted {α β : Type} {run : Policy → Run α} {result : α} {fates : List (Fate β)} {converted : Nat}
    (settles : Settles run result fates converted) :
    (run .skip).result = .ok result ∧ (run .skip).journal.failures = failures fates := by
  rw [settles.skips]
  exact ⟨rfl,by rw [Journal.noting_failures]; exact congrArg (· ++ _) (Journal.noting_failures _ _)⟩

section
variable {κ α β : Type} {label : κ → FailureKey} {convert : κ → α → Except Fault β} {items : List (κ × α)}

theorem convertItems_settles (skippable : ∀ item ∈ items, Skippable label convert item) :
    Settles (fun policy => convertItems policy label convert items) (values (fates label convert items))
      (fates label convert items) (values (fates label convert items)).length := by
  have counted := tally (fates label convert items)
  rw [failures,fates_objections,List.append_nil] at counted
  refine ⟨?_,?_,counted⟩
  · simp only [convertItems,convertAll_skips skippable,fates_objections]
    rfl
  · rw [failures,fates_objections,List.append_nil,convertItems_result,convertAll_stops]

theorem convertItems_silent : (convertItems .abort label convert items).journal.failures = [] := by
  simp only [convertItems,convertAll_stops]
  cases refusals (fates label convert items) <;> rfl

theorem convertItems_returns :
    (∃ values, (convertItems .skip label convert items).result = .ok values) ↔
      ∀ item ∈ items, Skippable label convert item := by
  rw [convertItems_result]
  exact convertAll_returns

theorem fates_keys : ((values (fates label convert items)).map Prod.fst).Sublist (items.map Prod.fst) := by
  induction items with
  | nil => exact List.Sublist.refl _
  | cons item rest ih =>
    cases converted : convert item.1 item.2 with
    | ok value =>
      rw [(fates_converted label converted rest).1]
      exact ih.cons_cons _
    | error fault =>
      rw [(fates_unconverted label converted rest).1]
      exact ih.cons _

theorem fates_value {value : κ × β} : value ∈ values (fates label convert items) ↔
    ∃ item ∈ items, item.1 = value.1 ∧ convert item.1 item.2 = .ok value.2 := by
  simp only [values,fates,List.mem_filterMap,List.mem_map,exists_exists_and_eq_and]
  refine exists_congr fun item => and_congr_right fun _ => ?_
  unfold itemFate
  cases convert item.1 item.2 with
  | ok converted => simp [value?,Prod.ext_iff]
  | error fault => simp [value?]

end

end Batch
end GameText
