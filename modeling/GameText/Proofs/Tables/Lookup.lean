import Mathlib.Data.List.Nodup
import Mathlib.Data.List.Pairwise

namespace GameText.Lookup
variable {α κ : Type}

theorem names_distinct {name : α → Option κ} {items : List α} (distinct : items.Nodup) :
    (items.filterMap name).Nodup ↔ ∀ a ∈ items, ∀ b ∈ items, name a = name b → name a ≠ none → a = b := by
  rw [List.Nodup,List.pairwise_filterMap]
  constructor
  · intro apart a memberA b memberB
    have unique : items.Pairwise fun a b => name a = name b → name a ≠ none → a = b := by
      refine apart.imp fun differ same named => ?_
      obtain ⟨text,given⟩ := Option.ne_none_iff_exists'.mp named
      exact absurd rfl (differ text given text (same ▸ given))
    have symmetric : Std.Symm fun a b : α => name a = name b → name a ≠ none → a = b :=
      ⟨fun _ _ law same named => (law same.symm (same ▸ named)).symm⟩
    exact unique.forall_of_forall (fun _ _ _ _ => rfl) memberA memberB
  · intro unique
    refine List.Pairwise.imp_of_mem (fun memberA memberB differ text given other named same => ?_) distinct
    exact differ (unique _ memberA _ memberB (by rw [given,named,same]) (by simp [given]))

variable [DecidableEq κ]

theorem find_mem {key : α → κ} {items : List α} {item : α} (distinct : (items.map key).Nodup)
    (member : item ∈ items) : items.find? (fun other => decide (key other = key item)) = some item := by
  induction items with
  | nil => cases member
  | cons first rest ih =>
    rw [List.map_cons,List.nodup_cons] at distinct
    rcases List.mem_cons.mp member with rfl | later
    · simp
    · have apart : key first ≠ key item := fun same =>
        distinct.1 (same ▸ List.mem_map_of_mem later)
      rw [List.find?_cons_of_neg (by simpa using apart)]
      exact ih distinct.2 later

theorem find_key {key : α → κ} {items : List α} {wanted : κ} {item : α}
    (found : items.find? (fun other => decide (key other = wanted)) = some item) :
    item ∈ items ∧ key item = wanted :=
  ⟨List.mem_of_find?_eq_some found,by simpa using List.find?_some found⟩

theorem find_none {key : α → κ} {items : List α} {wanted : κ}
    (absent : items.find? (fun other => decide (key other = wanted)) = none) :
    ∀ item ∈ items, key item ≠ wanted := by
  simpa using absent

end GameText.Lookup
