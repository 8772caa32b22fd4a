namespace GameText

-- A finite map that remembers the order in which its keys first came. Giving a
-- present key a new value keeps the key's place; a new key goes to the end.
structure OrderedMap (κ : Type) (ν : Type) where
  toList : List (κ × ν)
  distinct : (toList.map Prod.fst).Nodup

namespace OrderedMap
variable {κ ν : Type}

def keys (map : OrderedMap κ ν) : List κ := map.toList.map Prod.fst

def size (map : OrderedMap κ ν) : Nat := map.toList.length

def empty : OrderedMap κ ν := ⟨[],by simp⟩

instance : EmptyCollection (OrderedMap κ ν) := ⟨empty⟩
instance : Inhabited (OrderedMap κ ν) := ⟨empty⟩

variable [DecidableEq κ]

def get? (map : OrderedMap κ ν) (key : κ) : Option ν := map.toList.lookup key

def contains (map : OrderedMap κ ν) (key : κ) : Bool := map.keys.contains key

def put (key : κ) (value : ν) : List (κ × ν) → List (κ × ν)
  | [] => [(key,value)]
  | (other,old) :: rest =>
    if other = key then (key,value) :: rest else (other,old) :: put key value rest

theorem put_keys (key : κ) (value : ν) (pairs : List (κ × ν)) :
    (put key value pairs).map Prod.fst =
      if key ∈ pairs.map Prod.fst then pairs.map Prod.fst else pairs.map Prod.fst ++ [key] := by
  induction pairs with
  | nil => simp [put]
  | cons head rest ih =>
    obtain ⟨other,old⟩ := head
    by_cases same : other = key
    · subst other; simp [put]
    · have apart : ¬key = other := fun h => same h.symm
      by_cases present : key ∈ rest.map Prod.fst
      · rw [if_pos present] at ih
        have member : key ∈ ((other,old) :: rest).map Prod.fst := by
          rw [List.map_cons]; exact List.mem_cons_of_mem _ present
        rw [if_pos member]
        simp only [put,if_neg same,List.map_cons,ih]
      · rw [if_neg present] at ih
        have absent : key ∉ ((other,old) :: rest).map Prod.fst := by
          rw [List.map_cons,List.mem_cons]; rintro (h | h)
          · exact apart h
          · exact present h
        rw [if_neg absent]
        simp only [put,if_neg same,List.map_cons,ih,List.cons_append]

theorem put_distinct (key : κ) (value : ν) (pairs : List (κ × ν))
    (distinct : (pairs.map Prod.fst).Nodup) : ((put key value pairs).map Prod.fst).Nodup := by
  rw [put_keys]
  split
  · exact distinct
  · rename_i absent
    rw [List.nodup_append]
    refine ⟨distinct,by simp,?_⟩
    intro a member b single same
    rw [List.mem_singleton] at single
    exact absent (single ▸ same ▸ member)

def insert (map : OrderedMap κ ν) (key : κ) (value : ν) : OrderedMap κ ν :=
  ⟨put key value map.toList,put_distinct key value map.toList map.distinct⟩

def erase (map : OrderedMap κ ν) (key : κ) : OrderedMap κ ν :=
  ⟨map.toList.filter (fun pair => pair.1 != key),
    List.Nodup.sublist ((List.filter_sublist).map Prod.fst) map.distinct⟩

def ofList (pairs : List (κ × ν)) : OrderedMap κ ν :=
  pairs.foldl (fun map pair => map.insert pair.1 pair.2) empty

end OrderedMap
end GameText
