import Mathlib.Data.List.Forall2
import Mathlib.Data.List.Nodup

namespace GameText.Outcome
variable {ε δ α β σ : Type}

@[simp]
theorem ok_bind (value : α) (next : α → Except ε β) : Except.ok value >>= next = next value := rfl

@[simp]
theorem error_bind (fault : ε) (next : α → Except ε β) : Except.error fault >>= next = .error fault := rfl

@[simp]
theorem ok_map (value : α) (f : α → β) : (Except.ok value : Except ε α).map f = .ok (f value) := rfl

@[simp]
theorem error_map (fault : ε) (f : α → β) : (Except.error fault).map f = .error fault := rfl

@[simp]
theorem ok_mapError (value : α) (f : ε → δ) : (Except.ok value : Except ε α).mapError f = .ok value := rfl

@[simp]
theorem error_mapError (fault : ε) (f : ε → δ) : (Except.error fault : Except ε α).mapError f = .error (f fault) := rfl

@[simp]
theorem bind_ok {first : Except ε α} {next : α → Except ε β} {result : β} :
    first >>= next = .ok result ↔ ∃ value, first = .ok value ∧ next value = .ok result := by
  cases first with
  | error fault => simp
  | ok value => simp

@[simp]
theorem bind_error {first : Except ε α} {next : α → Except ε β} {fault : ε} :
    first >>= next = .error fault ↔
      first = .error fault ∨ ∃ value, first = .ok value ∧ next value = .error fault := by
  cases first with
  | error other => simp
  | ok value => simp

@[simp]
theorem map_ok {first : Except ε α} {f : α → β} {result : β} :
    first.map f = .ok result ↔ ∃ value, first = .ok value ∧ f value = result := by
  cases first <;> simp

theorem pair_ok {first : Except ε β} {key : α} {pair : α × β} :
    (first >>= fun value => .ok (key,value)) = .ok pair ↔ pair.1 = key ∧ first = .ok pair.2 := by
  rw [bind_ok]
  constructor
  · rintro ⟨value,given,same⟩
    cases same
    exact ⟨rfl,given⟩
  · rintro ⟨rfl,given⟩
    exact ⟨pair.2,given,rfl⟩

theorem keyed_ok {first : Except ε β} {key : α} {next : α → β → Except ε σ} {result : σ} :
    first >>= next key = .ok result ↔
      ∃ pair : α × β, (pair.1 = key ∧ first = .ok pair.2) ∧ next pair.1 pair.2 = .ok result := by
  rw [bind_ok]
  constructor
  · rintro ⟨value,given,done⟩
    exact ⟨(key,value),⟨rfl,given⟩,done⟩
  · rintro ⟨pair,⟨rfl,given⟩,done⟩
    exact ⟨pair.2,given,done⟩

@[simp]
theorem unless_ok {refused : Prop} [Decidable refused] {fault : ε} {rest : Except ε α} {result : α} :
    (if refused then .error fault else rest) = .ok result ↔ ¬ refused ∧ rest = .ok result := by
  split
  · rename_i holds
    exact ⟨nofun,fun ⟨other,_⟩ => absurd holds other⟩
  · rename_i other
    exact ⟨fun made => ⟨other,made⟩,And.right⟩

-- Every failure of the operation is of one kind.
def Fails (kind : ε → Prop) (result : Except ε α) : Prop := ∀ fault, result = .error fault → kind fault

theorem Fails.ok {kind : ε → Prop} (value : α) : Fails kind (.ok value) := by
  intro fault failed
  cases failed

theorem Fails.error {kind : ε → Prop} {fault : ε} (given : kind fault) : Fails kind (.error fault : Except ε α) := by
  intro other failed
  cases failed
  exact given

theorem Fails.bind {kind : ε → Prop} {result : Except ε α} {next : α → Except ε β} (first : Fails kind result)
    (after : ∀ value, result = .ok value → Fails kind (next value)) : Fails kind (result >>= next) := by
  intro fault failed
  rcases bind_error.mp failed with early | ⟨value,given,late⟩
  · exact first fault early
  · exact after value given fault late

theorem Fails.map {kind : ε → Prop} {result : Except ε α} {f : α → β} (first : Fails kind result) :
    Fails kind (result.map f) := by
  cases result with
  | ok value => exact .ok _
  | error fault => exact .error (first fault rfl)

theorem Fails.imp {kind other : ε → Prop} {result : Except ε α} (fails : Fails kind result)
    (kinds : ∀ fault, kind fault → other fault) : Fails other result :=
  fun fault failed => kinds fault (fails fault failed)

theorem Fails.mapError {kind : δ → Prop} {result : Except ε α} {f : ε → δ} (kinds : ∀ fault, kind (f fault)) :
    Fails kind (result.mapError f) := by
  cases result with
  | ok value => exact .ok value
  | error fault => exact .error (kinds fault)

theorem Fails.fold {kind : ε → Prop} {step : σ → α → Except ε σ} {items : List α}
    (each : ∀ item ∈ items, ∀ before, Fails kind (step before item)) (first : σ) :
    Fails kind (items.foldlM step first) := by
  induction items generalizing first with
  | nil => exact .ok first
  | cons item rest ih =>
    rw [List.foldlM_cons]
    apply (each item List.mem_cons_self first).bind
    intro middle _
    exact ih (fun other member => each other (List.mem_cons_of_mem _ member)) middle

theorem Fails.forM {kind : ε → Prop} {check : α → Except ε Unit} {items : List α}
    (each : ∀ item ∈ items, Fails kind (check item)) : Fails kind (items.forM check) := by
  induction items with
  | nil => exact .ok ()
  | cons item rest ih =>
    rw [List.forall_mem_cons] at each
    exact each.1.bind fun _ _ => ih each.2

@[simp]
theorem mapError_ok {first : Except ε α} {f : ε → δ} {result : α} :
    first.mapError f = .ok result ↔ first = .ok result := by
  cases first <;> simp

theorem mapError_bind {first : Except ε α} {next : α → Except ε β} {f : ε → ε} :
    (first >>= next).mapError f = first.mapError f >>= fun value => (next value).mapError f := by
  cases first <;> rfl

@[simp]
theorem mapError_error {first : Except ε α} {f : ε → δ} {fault : δ} :
    first.mapError f = .error fault ↔ ∃ inner, first = .error inner ∧ f inner = fault := by
  cases first <;> simp

@[simp]
theorem toOption_ok {first : Except ε α} {result : α} : first.toOption = some result ↔ first = .ok result := by
  cases first <;> simp [Except.toOption]

theorem fold_preserves {step : σ → α → Except ε σ} (valid : σ → Prop) {items : List α}
    (preserves : ∀ item ∈ items, ∀ before after, valid before → step before item = .ok after → valid after)
    {first last : σ} (start : valid first) (ran : items.foldlM step first = .ok last) : valid last := by
  induction items generalizing first with
  | nil =>
    cases ran
    exact start
  | cons item rest ih =>
    rw [List.foldlM_cons,bind_ok] at ran
    obtain ⟨middle,stepped,ran⟩ := ran
    exact ih (fun other member => preserves other (List.mem_cons_of_mem _ member))
      (preserves item List.mem_cons_self first middle start stepped) ran

theorem fold_error {step : σ → α → Except ε σ} {items : List α} {first : σ} {fault : ε} :
    items.foldlM step first = .error fault ↔ ∃ front item back middle, items = front ++ item :: back ∧
      front.foldlM step first = .ok middle ∧ step middle item = .error fault := by
  constructor
  · intro failed
    induction items generalizing first with
    | nil => cases failed
    | cons item rest ih =>
      rw [List.foldlM_cons] at failed
      rcases bind_error.mp failed with here | ⟨next,stepped,failed⟩
      · exact ⟨[],item,rest,first,rfl,rfl,here⟩
      · obtain ⟨front,other,back,middle,rfl,ran,stopped⟩ := ih failed
        refine ⟨item :: front,other,back,middle,rfl,?_,stopped⟩
        rw [List.foldlM_cons,stepped]
        exact ran
  · rintro ⟨front,item,back,middle,rfl,ran,stopped⟩
    rw [List.foldlM_append]
    refine bind_error.mpr (.inr ⟨middle,ran,?_⟩)
    rw [List.foldlM_cons]
    exact bind_error.mpr (.inl stopped)

theorem fold_checks {apart : α → α → Prop} {valid : α → Prop} {step : List α → α → Except ε (List α)}
    (steps : ∀ before item after, step before item = .ok after ↔
      (∀ other ∈ before, apart other item) ∧ valid item ∧ after = before ++ [item])
    {items first last : List α} (start : first.Pairwise apart) :
    items.foldlM step first = .ok last ↔
      (first ++ items).Pairwise apart ∧ (∀ item ∈ items, valid item) ∧ last = first ++ items := by
  induction items generalizing first with
  | nil =>
    rw [List.append_nil]
    constructor
    · intro ended
      cases ended
      exact ⟨start,List.forall_mem_nil _,rfl⟩
    · rintro ⟨_,_,rfl⟩
      rfl
  | cons item rest ih =>
    rw [List.foldlM_cons,bind_ok,List.forall_mem_cons,List.append_cons]
    constructor
    · rintro ⟨middle,stepped,ran⟩
      obtain ⟨free,fits,rfl⟩ := (steps _ _ _).mp stepped
      have grown : (first ++ [item]).Pairwise apart :=
        List.pairwise_append.mpr ⟨start,List.pairwise_singleton _ _,by simpa using free⟩
      obtain ⟨pairs,others,whole⟩ := (ih grown).mp ran
      exact ⟨pairs,⟨fits,others⟩,whole⟩
    · rintro ⟨pairs,⟨fits,others⟩,whole⟩
      have grown := pairs.sublist (List.sublist_append_left _ _)
      have free : ∀ other ∈ first, apart other item := by simpa using (List.pairwise_append.mp grown).2.2
      exact ⟨_,(steps _ _ _).mpr ⟨free,fits,rfl⟩,(ih grown).mpr ⟨pairs,others,whole⟩⟩

section
variable {m : Type → Type} [Monad m] [LawfulMonad m] (gives : ∀ {γ : Type}, m γ → γ → Prop)

theorem mapM_gives (pures : ∀ {γ : Type} {value other : γ}, gives (pure value) other → other = value)
    (binds : ∀ {γ δ : Type} {first : m γ} {next : γ → m δ} {result : δ}, gives (first >>= next) result →
      ∃ value, gives first value ∧ gives (next value) result)
    {make : α → m β} {items : List α} {values : List β} (made : gives (items.mapM make) values) :
    ∀ value ∈ values, ∃ item ∈ items, gives (make item) value := by
  induction items generalizing values with
  | nil =>
    rw [List.mapM_nil] at made
    rw [pures made]
    simp
  | cons item rest ih =>
    rw [List.mapM_cons] at made
    obtain ⟨head,first,made⟩ := binds made
    obtain ⟨tail,others,whole⟩ := binds made
    rw [pures whole]
    intro value member
    rcases List.mem_cons.mp member with rfl | later
    · exact ⟨item,List.mem_cons_self,first⟩
    · obtain ⟨other,present,same⟩ := ih others value later
      exact ⟨other,List.mem_cons_of_mem _ present,same⟩

end

theorem mapM_made {make : α → Except ε β} {items : List α} {values : List β}
    (made : items.mapM make = .ok values) : ∀ value ∈ values, ∃ item ∈ items, make item = .ok value :=
  mapM_gives (fun (first : Except ε _) value => first = .ok value) (fun given => (Except.ok.inj given).symm)
    bind_ok.mp made

theorem mapM_read {read : α → Option β} {items : List α} {values : List β}
    (made : items.mapM read = some values) : ∀ value ∈ values, ∃ item ∈ items, read item = some value :=
  mapM_gives (fun (first : Option _) value => first = some value) (fun given => (Option.some.inj given).symm)
    Option.bind_eq_some_iff.mp made

theorem each_comp {first : α → β → Prop} {second : β → σ → Prop} {items : List α} {values : List σ} :
    List.Forall₂ (fun item value => ∃ middle, first item middle ∧ second middle value) items values ↔
      ∃ middle, List.Forall₂ first items middle ∧ List.Forall₂ second middle values := by
  constructor
  · intro each
    induction each with
    | nil => exact ⟨[],.nil,.nil⟩
    | cons head _ ih =>
      obtain ⟨value,before,after⟩ := head
      obtain ⟨middle,front,back⟩ := ih
      exact ⟨value :: middle,.cons before front,.cons after back⟩
  · rintro ⟨middle,front,back⟩
    induction front generalizing values with
    | nil =>
      cases back
      exact .nil
    | cons before _ ih =>
      cases back with
      | cons after back => exact .cons ⟨_,before,after⟩ (ih back)

theorem each_exists {related : α → β → Prop} {items : List α} :
    (∃ values, List.Forall₂ related items values) ↔ ∀ item ∈ items, ∃ value, related item value := by
  induction items with
  | nil => exact ⟨fun _ => List.forall_mem_nil _,fun _ => ⟨[],.nil⟩⟩
  | cons item rest ih =>
    rw [List.forall_mem_cons,← ih]
    constructor
    · rintro ⟨_,each⟩
      cases each with
      | cons first others => exact ⟨⟨_,first⟩,_,others⟩
    · rintro ⟨⟨value,first⟩,values,others⟩
      exact ⟨value :: values,.cons first others⟩

theorem fold_each {values : σ → List β} {makes : α → β → Prop} {step : σ → α → Except ε σ}
    (same : ∀ {a b : σ}, values a = values b → a = b)
    (fronts : ∀ {state : σ} {front back : List β}, values state = front ++ back → ∃ middle, values middle = front)
    (steps : ∀ before item after, step before item = .ok after ↔
      ∃ value, makes item value ∧ values after = values before ++ [value])
    {items : List α} {first last : σ} :
    items.foldlM step first = .ok last ↔
      ∃ added, List.Forall₂ makes items added ∧ values last = values first ++ added := by
  induction items generalizing first with
  | nil =>
    constructor
    · intro ended
      cases ended
      exact ⟨[],.nil,(List.append_nil _).symm⟩
    · rintro ⟨_,none,whole⟩
      cases none
      exact congrArg Except.ok (same (whole.trans (List.append_nil _))).symm
  | cons item rest ih =>
    rw [List.foldlM_cons,bind_ok]
    constructor
    · rintro ⟨middle,stepped,ran⟩
      obtain ⟨value,made,grown⟩ := (steps _ _ _).mp stepped
      obtain ⟨added,others,whole⟩ := ih.mp ran
      exact ⟨value :: added,.cons made others,by rw [whole,grown,← List.append_cons]⟩
    · rintro ⟨_,each,whole⟩
      cases each with
      | cons made others =>
        rw [List.append_cons] at whole
        obtain ⟨middle,grown⟩ := fronts whole
        exact ⟨middle,(steps _ _ _).mpr ⟨_,made,grown⟩,ih.mpr ⟨_,others,grown ▸ whole⟩⟩

theorem mapM_each {make : α → Except ε β} {items : List α} {values : List β} :
    items.mapM make = .ok values ↔ List.Forall₂ (fun item value => make item = .ok value) items values := by
  induction items generalizing values with
  | nil =>
    rw [List.mapM_nil,List.forall₂_nil_left_iff]
    exact ⟨fun made => (Except.ok.inj made).symm,fun none => none ▸ rfl⟩
  | cons item rest ih =>
    rw [List.mapM_cons,bind_ok,List.forall₂_cons_left_iff]
    constructor
    · rintro ⟨head,first,made⟩
      obtain ⟨tail,others,whole⟩ := bind_ok.mp made
      exact ⟨head,tail,first,ih.mp others,(Except.ok.inj whole).symm⟩
    · rintro ⟨head,tail,first,others,rfl⟩
      exact ⟨head,first,bind_ok.mpr ⟨tail,ih.mpr others,rfl⟩⟩

theorem mapM_error {make : α → Except ε β} {items : List α} {fault : ε} :
    items.mapM make = .error fault ↔ ∃ front item back, items = front ++ item :: back ∧
      (∀ other ∈ front, ∃ value, make other = .ok value) ∧ make item = .error fault := by
  induction items with
  | nil => simp [pure,Except.pure]
  | cons item rest ih =>
    rw [List.mapM_cons,bind_error]
    constructor
    · rintro (here | ⟨value,made,failed⟩)
      · exact ⟨[],item,rest,rfl,List.forall_mem_nil _,here⟩
      · obtain ⟨front,other,back,rfl,earlier,stopped⟩ :=
          ih.mp ((bind_error.mp failed).resolve_right fun ⟨_,_,more⟩ => nomatch more)
        exact ⟨item :: front,other,back,rfl,List.forall_mem_cons.mpr ⟨⟨value,made⟩,earlier⟩,stopped⟩
    · rintro ⟨front,other,back,split,earlier,stopped⟩
      cases front with
      | nil =>
        cases split
        exact .inl stopped
      | cons first front =>
        obtain ⟨rfl,rfl⟩ := List.cons.inj split
        obtain ⟨⟨value,made⟩,earlier⟩ := List.forall_mem_cons.mp earlier
        exact .inr ⟨value,made,bind_error.mpr (.inl (ih.mpr ⟨front,other,back,rfl,earlier,stopped⟩))⟩

theorem values_each {valid : β → Prop} {items : List α} {values : List β}
    (each : List.Forall₂ (fun _ value => valid value) items values) : ∀ value ∈ values, valid value := by
  induction each with
  | nil => exact List.forall_mem_nil _
  | cons first _ ih => exact List.forall_mem_cons.mpr ⟨first,ih⟩

theorem each_valid {related : α → β → Prop} {valid : β → Prop} {items : List α} {values : List β} :
    List.Forall₂ (fun item value => related item value ∧ valid value) items values ↔
      List.Forall₂ related items values ∧ ∀ value ∈ values, valid value := by
  constructor
  · exact fun each => ⟨each.imp fun _ _ => And.left,values_each (each.imp fun _ _ => And.right)⟩
  · rintro ⟨each,valid⟩
    induction each with
    | nil => exact .nil
    | cons first _ ih =>
      rw [List.forall_mem_cons] at valid
      exact .cons ⟨first,valid.1⟩ (ih valid.2)

theorem forM_ok {check : α → Except ε Unit} {items : List α} :
    items.forM check = .ok () ↔ ∀ item ∈ items, check item = .ok () := by
  induction items with
  | nil => simp [pure,Except.pure]
  | cons item rest ih =>
    change (check item >>= fun _ => rest.forM check) = .ok () ↔ _
    rw [bind_ok,List.forall_mem_cons]
    constructor
    · rintro ⟨_,checked,others⟩
      exact ⟨checked,ih.mp others⟩
    · rintro ⟨checked,others⟩
      exact ⟨(),checked,ih.mpr others⟩

end GameText.Outcome
