import GameText.OrderedMap
import GameText.Proofs.Outcome
import Mathlib.Data.List.Forall2
import Mathlib.Data.List.Induction

namespace GameText.OrderedMap
variable {κ ν : Type}

theorem toList_inj {a b : OrderedMap κ ν} (same : a.toList = b.toList) : a = b := by
  cases a; cases b; cases same; rfl

theorem front {map : OrderedMap κ ν} {front back : List (κ × ν)} (split : map.toList = front ++ back) :
    ∃ middle : OrderedMap κ ν, middle.toList = front := by
  have distinct := map.distinct
  rw [split] at distinct
  exact ⟨⟨front,distinct.sublist ((List.sublist_append_left _ _).map _)⟩,rfl⟩

variable [DecidableEq κ]

theorem put_absent {key : κ} {pairs : List (κ × ν)} (absent : key ∉ pairs.map Prod.fst) (value : ν) :
    put key value pairs = pairs ++ [(key,value)] := by
  induction pairs with
  | nil => rfl
  | cons head rest ih =>
    obtain ⟨other,old⟩ := head
    rw [List.map_cons,List.mem_cons,not_or] at absent
    rw [put,if_neg (Ne.symm absent.1),ih absent.2,List.cons_append]

theorem put_mem {key : κ} {value : ν} {pairs : List (κ × ν)} {pair : κ × ν}
    (member : pair ∈ put key value pairs) : pair = (key,value) ∨ pair ∈ pairs := by
  induction pairs with
  | nil => exact .inl (List.mem_singleton.mp member)
  | cons head rest ih =>
    obtain ⟨other,old⟩ := head
    rw [put] at member
    split at member
    · exact (List.mem_cons.mp member).imp_right (List.mem_cons_of_mem _)
    · rcases List.mem_cons.mp member with rfl | later
      · exact .inr List.mem_cons_self
      · exact (ih later).imp_right (List.mem_cons_of_mem _)

theorem contains_false {map : OrderedMap κ ν} {key : κ} :
    map.contains key = false ↔ key ∉ map.toList.map Prod.fst := by
  rw [contains,keys,List.contains_eq_mem,decide_eq_false_iff_not]

theorem contains_distinct {map : OrderedMap κ ν} {key : κ} {rest : List κ}
    (distinct : (map.toList.map Prod.fst ++ key :: rest).Nodup) : map.contains key = false :=
  contains_false.mpr fun member => (List.nodup_append.mp distinct).2.2 _ member _ List.mem_cons_self rfl

theorem insert_absent {map : OrderedMap κ ν} {key : κ} (absent : map.contains key = false) (value : ν) :
    (map.insert key value).toList = map.toList ++ [(key,value)] :=
  put_absent (contains_false.mp absent) value

theorem insert_exact {map next : OrderedMap κ ν} {pair : κ × ν} :
    next.toList = map.toList ++ [pair] ↔ map.contains pair.1 = false ∧ next = map.insert pair.1 pair.2 := by
  constructor
  · intro grown
    have distinct := next.distinct
    rw [grown,List.map_append] at distinct
    have absent := contains_distinct distinct
    exact ⟨absent,toList_inj (grown.trans (insert_absent absent _).symm)⟩
  · rintro ⟨absent,rfl⟩
    exact insert_absent absent _

@[simp]
theorem mem_insert {map : OrderedMap κ ν} {key other : κ} {value : ν} :
    other ∈ (map.insert key value).keys ↔ other = key ∨ other ∈ map.keys := by
  rw [insert,keys,keys,put_keys]
  split
  · rename_i present
    exact ⟨.inr,fun member => member.elim (fun same => same ▸ present) id⟩
  · rw [List.mem_append,List.mem_singleton]
    exact or_comm

@[simp]
theorem contains_insert {map : OrderedMap κ ν} {key other : κ} {value : ν} :
    (map.insert key value).contains other = true ↔ other = key ∨ map.contains other = true := by
  rw [contains,contains,List.contains_iff_mem,List.contains_iff_mem]
  exact mem_insert

@[simp]
theorem get_insert (map : OrderedMap κ ν) (key : κ) (value : ν) : (map.insert key value).get? key = some value := by
  change (put key value map.toList).lookup key = some value
  induction map.toList with
  | nil => simp [put]
  | cons head rest ih =>
    obtain ⟨other,old⟩ := head
    rw [put]
    split
    · simp
    · rename_i differs
      rw [List.lookup_cons,beq_false_of_ne (Ne.symm differs)]
      exact ih

theorem get_insert_other (map : OrderedMap κ ν) {key other : κ} (apart : other ≠ key) (value : ν) :
    (map.insert key value).get? other = map.get? other := by
  change (put key value map.toList).lookup other = map.toList.lookup other
  induction map.toList with
  | nil => rw [put,List.lookup_cons,beq_false_of_ne apart]
  | cons head rest ih =>
    obtain ⟨first,old⟩ := head
    rw [put]
    split
    · rename_i same
      subst same
      rw [List.lookup_cons,List.lookup_cons,beq_false_of_ne apart]
    · rw [List.lookup_cons,List.lookup_cons,ih]

theorem erase_keys (map : OrderedMap κ ν) (key : κ) : (map.erase key).keys = map.keys.filter (· ≠ key) := by
  rw [keys,keys,erase,List.filter_map]
  refine congrArg (List.map Prod.fst) (List.filter_congr fun pair _ => ?_)
  rw [Bool.eq_iff_iff,bne_iff_ne,Function.comp_apply,decide_eq_true_eq]

theorem get_erase_other (map : OrderedMap κ ν) {key other : κ} (apart : other ≠ key) :
    (map.erase key).get? other = map.get? other := by
  change (map.toList.filter fun pair => pair.1 != key).lookup other = map.toList.lookup other
  induction map.toList with
  | nil => rfl
  | cons head rest ih =>
    obtain ⟨first,old⟩ := head
    by_cases same : first = key
    · subst same
      rw [List.filter_cons_of_neg (by simp),List.lookup_cons,beq_false_of_ne apart]
      exact ih
    · rw [List.filter_cons_of_pos (by simpa using same),List.lookup_cons,List.lookup_cons,ih]

theorem ofList_mem {pairs : List (κ × ν)} {pair : κ × ν} (member : pair ∈ (ofList pairs).toList) :
    pair ∈ pairs := by
  have gathered : ∀ (later : List (κ × ν)) (map : OrderedMap κ ν),
      pair ∈ (later.foldl (fun map pair => map.insert pair.1 pair.2) map).toList →
        pair ∈ map.toList ∨ pair ∈ later := by
    intro later
    induction later with
    | nil => exact fun _ inside => .inl inside
    | cons head rest ih =>
      intro map inside
      rcases ih _ inside with old | new
      · exact (put_mem old).elim (fun same => .inr (same ▸ List.mem_cons_self)) .inl
      · exact .inr (List.mem_cons_of_mem _ new)
  exact (gathered pairs empty member).resolve_left List.not_mem_nil

theorem ofList_distinct {pairs : List (κ × ν)} (distinct : (pairs.map Prod.fst).Nodup) :
    (ofList pairs).toList = pairs := by
  have gathered : ∀ (pairs : List (κ × ν)) (map : OrderedMap κ ν), ((map.toList ++ pairs).map Prod.fst).Nodup →
      (pairs.foldl (fun map pair => map.insert pair.1 pair.2) map).toList = map.toList ++ pairs := by
    intro pairs
    induction pairs with
    | nil => exact fun map _ => (List.append_nil _).symm
    | cons pair rest ih =>
      intro map distinct
      obtain ⟨middle,grown⟩ := @front _ _ ⟨map.toList ++ pair :: rest,distinct⟩ _ rest (List.append_cons ..)
      obtain ⟨_,rfl⟩ := insert_exact.mp grown
      have whole : (map.insert pair.1 pair.2).toList ++ rest = map.toList ++ pair :: rest := by
        rw [grown,List.append_assoc,List.singleton_append]
      exact (ih _ (whole ▸ distinct)).trans whole
  exact gathered pairs empty distinct

theorem eraseDups_concat {α : Type} [BEq α] [LawfulBEq α] (items : List α) (item : α) :
    (items ++ [item]).eraseDups = if item ∈ items then items.eraseDups else items.eraseDups ++ [item] := by
  rw [List.eraseDups_append,List.removeAll]
  split
  · rename_i present
    simp [present]
  · rename_i absent
    rw [List.filter_cons_of_pos (by simp [absent])]
    rfl

theorem ofList_concat (pairs : List (κ × ν)) (pair : κ × ν) :
    ofList (pairs ++ [pair]) = (ofList pairs).insert pair.1 pair.2 := by
  rw [ofList,List.foldl_append]
  rfl

@[simp]
theorem ofList_keys (pairs : List (κ × ν)) : (ofList pairs).keys = (pairs.map Prod.fst).eraseDups := by
  induction pairs using List.reverseRecOn with
  | nil => rfl
  | append_singleton pairs pair ih =>
    have members : pair.1 ∈ (ofList pairs).keys ↔ pair.1 ∈ pairs.map Prod.fst := by
      rw [ih,List.mem_eraseDups]
    rw [ofList_concat,insert,keys,put_keys,List.map_append,List.map_singleton,eraseDups_concat,← ih]
    exact if_congr members rfl rfl

theorem ofList_last {front back : List (κ × ν)} {key : κ} {value : ν} (last : key ∉ back.map Prod.fst) :
    (ofList (front ++ (key,value) :: back)).get? key = some value := by
  induction back using List.reverseRecOn with
  | nil =>
    rw [ofList_concat]
    exact get_insert _ key value
  | append_singleton back pair ih =>
    rw [List.map_append,List.mem_append,not_or,List.map_singleton,List.mem_singleton] at last
    rw [← List.cons_append,← List.append_assoc,ofList_concat,get_insert_other _ last.2]
    exact ih last.1

theorem fold_puts {ε α : Type} {step : OrderedMap κ ν → α → Except ε (OrderedMap κ ν)} {makes : α → κ × ν → Prop}
    (steps : ∀ before item after, step before item = .ok after ↔
      ∃ pair, makes item pair ∧ after = before.insert pair.1 pair.2)
    {items : List α} {first last : OrderedMap κ ν} :
    items.foldlM step first = .ok last ↔ ∃ pairs, List.Forall₂ makes items pairs ∧
      last = pairs.foldl (fun map pair => map.insert pair.1 pair.2) first := by
  induction items generalizing first with
  | nil =>
    constructor
    · intro ended
      cases ended
      exact ⟨[],.nil,rfl⟩
    · rintro ⟨_,none,rfl⟩
      cases none
      rfl
  | cons item rest ih =>
    rw [List.foldlM_cons,Outcome.bind_ok]
    constructor
    · rintro ⟨middle,stepped,ran⟩
      obtain ⟨pair,made,rfl⟩ := (steps _ _ _).mp stepped
      obtain ⟨pairs,each,rfl⟩ := ih.mp ran
      exact ⟨pair :: pairs,.cons made each,rfl⟩
    · rintro ⟨_,each,rfl⟩
      cases each with
      | cons made each => exact ⟨_,(steps _ _ _).mpr ⟨_,made,rfl⟩,ih.mpr ⟨_,each,rfl⟩⟩

theorem fold_inserts {ε α : Type} {step : OrderedMap κ ν → α → Except ε (OrderedMap κ ν)} {items : List α}
    {pairs : List (κ × ν)}
    (steps : List.Forall₂ (fun item pair => ∀ map : OrderedMap κ ν, map.contains pair.1 = false →
      step map item = .ok (map.insert pair.1 pair.2)) items pairs)
    {start : OrderedMap κ ν} (distinct : ((start.toList ++ pairs).map Prod.fst).Nodup) :
    items.foldlM step start = .ok ⟨start.toList ++ pairs,distinct⟩ := by
  induction steps generalizing start with
  | nil => exact congrArg Except.ok (toList_inj (List.append_nil _).symm)
  | @cons item pair items pairs first _ ih =>
    have absent : start.contains pair.1 = false := by
      rw [List.map_append,List.map_cons] at distinct
      exact contains_distinct distinct
    have same : (start.insert pair.1 pair.2).toList ++ pairs = start.toList ++ pair :: pairs := by
      rw [insert_absent absent,List.append_assoc,List.singleton_append]
    rw [List.foldlM_cons,first start absent]
    exact (ih (same ▸ distinct)).trans (congrArg Except.ok (toList_inj same))

end GameText.OrderedMap
