import GameText.Text.Decimal
import Mathlib.Algebra.Group.Int.Defs
import Mathlib.Algebra.Group.Nat.Defs
import Mathlib.Data.List.Induction
import Mathlib.Data.List.TakeWhile

namespace GameText.Text

theorem digitChar_ascii {digit : Nat} (small : digit < 10) : isAsciiDigit (digitChar digit) = true := by
  have all : ∀ d : Fin 10, isAsciiDigit (digitChar d) = true := by decide
  exact all ⟨digit,small⟩

theorem digitChar_value {digit : Nat} (small : digit < 10) : digitValue? (digitChar digit) = some digit := by
  have all : ∀ d : Fin 10, digitValue? (digitChar d) = some d.val := by decide
  exact all ⟨digit,small⟩

theorem ascii_range {c : Char} (ascii : isAsciiDigit c = true) : 48 ≤ c.toNat ∧ c.toNat ≤ 57 := by
  simpa [isAsciiDigit,Char.le_def,UInt32.le_iff_toNat_le] using ascii

theorem ascii_isDigit {c : Char} (ascii : isAsciiDigit c = true) : isDigit c = true := by
  have range := ascii_range ascii
  unfold isDigit digitValue?
  rw [Option.isSome_map,List.find?_isSome]
  exact ⟨0x30,by decide,by simp; omega⟩

theorem ascii_solid {c : Char} (ascii : isAsciiDigit c = true) : isBlank c = false := by
  have range := ascii_range ascii
  unfold isBlank
  rw [List.any_eq_false]
  intro blank member
  simp only [blankRanges,List.mem_cons,List.not_mem_nil,or_false] at member
  rcases member with rfl | rfl | rfl | rfl | rfl | rfl | rfl | rfl | rfl | rfl <;> simp <;> omega

theorem digits_ascii (n : Nat) : ∀ c ∈ digits n, isAsciiDigit c = true := by
  induction n using Nat.strongRecOn with
  | ind n ih =>
    rw [digits]
    split
    · rename_i small
      intro c member
      rw [List.mem_singleton.mp member]
      exact digitChar_ascii small
    · rename_i large
      intro c member
      rcases List.mem_append.mp member with high | low
      · exact ih (n / 10) (by omega) c high
      · rw [List.mem_singleton.mp low]
        exact digitChar_ascii (by omega)

theorem digits_cut {c : Char} (stop : isAsciiDigit c = false) (n : Nat) (rest : List Char) :
    (digits n ++ c :: rest).takeWhile isAsciiDigit = digits n := by
  rw [List.takeWhile_append_of_pos (digits_ascii n),List.takeWhile_cons_of_neg (by simp [stop]),List.append_nil]

theorem digits_nonempty (n : Nat) : digits n ≠ [] := by
  rw [digits]
  split <;> simp

theorem digits_length {n places : Nat} (small : n < 10 ^ (places + 1)) : (digits n).length ≤ places + 1 := by
  induction places generalizing n with
  | zero =>
    rw [digits,if_pos (by omega)]
    simp
  | succ places ih =>
    rw [digits]
    split
    · simp
    · have high : n / 10 < 10 ^ (places + 1) := by
        rw [Nat.pow_succ] at small; omega
      rw [List.length_append,List.length_singleton]
      exact Nat.succ_le_succ (ih high)

theorem digitsValue_digits (n : Nat) : digitsValue (digits n) = n := by
  induction n using Nat.strongRecOn with
  | ind n ih =>
    rw [digits]
    split
    · rename_i small
      simp [digitsValue,digitChar_value small]
    · rename_i large
      have high := ih (n / 10) (by omega)
      have low : n % 10 < 10 := by omega
      unfold digitsValue at high ⊢
      rw [List.foldl_append,high]
      simp only [List.foldl_cons,List.foldl_nil,digitChar_value low,Option.getD_some]
      omega

theorem digit_range {c : Char} (digit : isDigit c = true) :
    ∃ start ∈ decimalZeros, start ≤ c.toNat ∧ c.toNat < start + 10 := by
  unfold isDigit digitValue? at digit
  rw [Option.isSome_map,List.find?_isSome] at digit
  obtain ⟨start,member,inside⟩ := digit
  exact ⟨start,member,by simpa using inside⟩

theorem digit_solid {c : Char} (digit : isDigit c = true) : isBlank c = false := by
  obtain ⟨start,member,low,high⟩ := digit_range digit
  have apart : ∀ start ∈ decimalZeros, ∀ blank ∈ blankRanges, start + 10 ≤ blank.1 ∨ blank.2 < start := by decide
  unfold isBlank
  rw [List.any_eq_false]
  intro blank inside
  rcases apart start member blank inside with below | above
  · simp; omega
  · simp; omega

theorem digitValue_small {c : Char} {value : Nat} (found : digitValue? c = some value) : value < 10 := by
  obtain ⟨start,first,rfl⟩ := Option.map_eq_some_iff.mp found
  have inside := List.find?_some first
  simp only [Bool.and_eq_true,decide_eq_true_eq] at inside
  omega

theorem digitsValue_concat (text : List Char) (c : Char) :
    digitsValue (text ++ [c]) = 10 * digitsValue text + (digitValue? c).getD 0 := by
  unfold digitsValue
  rw [List.foldl_append]
  rfl

theorem digitsValue_lt (text : List Char) : digitsValue text < 10 ^ text.length := by
  induction text using List.reverseRecOn with
  | nil => decide
  | append_singleton front c ih =>
    have last : (digitValue? c).getD 0 < 10 := by
      cases found : digitValue? c with
      | none => decide
      | some value => exact digitValue_small found
    rw [digitsValue_concat,List.length_append,List.length_singleton,Nat.pow_succ]
    omega

theorem ungrouped_cons {c : Char} {rest : List Char} (digit : isDigit c = true) (filled : rest ≠ [])
    (plain : rest.head? ≠ some '_') : ungrouped (c :: rest) = (ungrouped rest).map (c :: ·) := by
  have others : ∀ tail : List Char, rest = '_' :: tail → False := by
    intro tail same
    rw [same] at plain
    exact plain rfl
  rw [ungrouped,if_pos digit]
  · exact filled
  · exact others

theorem ungrouped_digits {text : List Char} (nonempty : text ≠ []) (digits : ∀ c ∈ text, isDigit c = true) :
    ungrouped text = some text := by
  induction text with
  | nil => exact absurd rfl nonempty
  | cons c rest ih =>
    rw [List.forall_mem_cons] at digits
    cases rest with
    | nil => rw [ungrouped,if_pos digits.1]
    | cons d more =>
      have plain : (d :: more).head? ≠ some '_' := by
        intro same
        cases same
        exact absurd (digits.2 '_' List.mem_cons_self) (by decide)
      rw [ungrouped_cons digits.1 (by simp) plain,ih (by simp) digits.2]
      rfl

theorem ungrouped_chars {text found : List Char} (ungrouping : ungrouped text = some found) :
    (∀ c ∈ text, isDigit c = true ∨ c = '_') ∧ ∀ c ∈ found, isDigit c = true := by
  induction text using ungrouped.induct generalizing found with
  | case1 => cases ungrouping
  | case2 c digit =>
    rw [ungrouped,if_pos digit] at ungrouping
    cases ungrouping
    simp [digit]
  | case3 c none =>
    rw [ungrouped,if_neg none] at ungrouping
    cases ungrouping
  | case4 c rest digit ih =>
    rw [ungrouped,if_pos digit] at ungrouping
    obtain ⟨others,further,rfl⟩ := Option.map_eq_some_iff.mp ungrouping
    obtain ⟨before,after⟩ := ih further
    simp only [List.forall_mem_cons]
    exact ⟨⟨.inl digit,.inr trivial,before⟩,digit,after⟩
  | case5 c rest none =>
    rw [ungrouped,if_neg none] at ungrouping
    cases ungrouping
  | case6 c rest filled plain digit ih =>
    rw [ungrouped,if_pos digit] at ungrouping
    · obtain ⟨others,further,rfl⟩ := Option.map_eq_some_iff.mp ungrouping
      obtain ⟨before,after⟩ := ih further
      simp only [List.forall_mem_cons]
      exact ⟨⟨.inl digit,before⟩,digit,after⟩
    · exact filled
    · exact plain
  | case7 c rest filled plain none =>
    rw [ungrouped,if_neg none] at ungrouping
    · cases ungrouping
    · exact filled
    · exact plain

theorem trim_solid {drop : Char → Bool} {text : List Char} (solid : ∀ c ∈ text, drop c = false) :
    trim drop text = text := by
  have keep : ∀ list : List Char, (∀ c ∈ list, drop c = false) → list.dropWhile drop = list := by
    intro list none
    cases list with
    | nil => rfl
    | cons c rest => rw [List.dropWhile_cons_of_neg (by simp [none c])]
  rw [trim,keep text solid,keep text.reverse (fun c member => solid c (List.mem_reverse.mp member)),
    List.reverse_reverse]

theorem trim_split (drop : Char → Bool) (text : List Char) :
    ∃ left right, text = left ++ trim drop text ++ right ∧ (∀ c ∈ left, drop c = true) ∧
      ∀ c ∈ right, drop c = true := by
  have front := List.takeWhile_append_dropWhile (p := drop) (l := text)
  have back := List.takeWhile_append_dropWhile (p := drop) (l := (text.dropWhile drop).reverse)
  refine ⟨text.takeWhile drop,((text.dropWhile drop).reverse.takeWhile drop).reverse,?_,?_,?_⟩
  · rw [List.append_assoc,trim,← List.reverse_append,back,List.reverse_reverse,front]
  · exact fun c member => List.mem_takeWhile_imp member
  · exact fun c member => List.mem_takeWhile_imp (List.mem_reverse.mp member)

theorem trim_padded {drop : Char → Bool} {left middle right : List Char} (before : ∀ c ∈ left, drop c = true)
    (solid : ∀ c ∈ middle, drop c = false) (after : ∀ c ∈ right, drop c = true) (filled : middle ≠ []) :
    trim drop (left ++ middle ++ right) = middle := by
  have dropped : ∀ {pad list : List Char}, (∀ c ∈ pad, drop c = true) → (∀ c ∈ list.head?, drop c = false) →
      (pad ++ list).dropWhile drop = list := by
    intro pad list gone stays
    rw [List.dropWhile_append_of_pos gone]
    cases list with
    | nil => rfl
    | cons c rest => rw [List.dropWhile_cons_of_neg (by simp [stays c rfl])]
  have first : ∀ c ∈ (middle ++ right).head?, drop c = false := by
    intro c member
    cases middle with
    | nil => exact absurd rfl filled
    | cons head rest =>
      rw [List.cons_append,List.head?_cons,Option.mem_some_iff] at member
      exact solid c (member ▸ List.mem_cons_self)
  have last : ∀ c ∈ middle.reverse.head?, drop c = false :=
    fun c member => solid c (List.mem_reverse.mp (List.mem_of_mem_head? member))
  rw [List.append_assoc,trim,dropped before first,List.reverse_append,
    dropped (fun c member => after c (List.mem_reverse.mp member)) last,List.reverse_reverse]

theorem mem_trim {drop : Char → Bool} {text : List Char} {c : Char} (member : c ∈ text) (stays : drop c = false) :
    c ∈ trim drop text := by
  obtain ⟨left,right,split,before,after⟩ := trim_split drop text
  rw [split] at member
  rcases List.mem_append.mp member with inside | last
  · rcases List.mem_append.mp inside with first | middle
    · rw [before c first] at stays
      cases stays
    · exact middle
  · rw [after c last] at stays
    cases stays

theorem digit_unblank {c : Char} (digit : isDigit c = true) : isNumeralBlank c = false := by
  rw [isNumeralBlank,digit_solid digit]
  rfl

theorem readMagnitude_digits {text : List Char} (nonempty : text ≠ []) (digits : ∀ c ∈ text, isDigit c = true) :
    readMagnitude text = if text.length ≤ digitLimit then some (digitsValue text) else none := by
  rw [readMagnitude,ungrouped_digits nonempty digits]
  rfl

theorem readInteger_plain {text : List Char} (nonempty : text ≠ []) (digits : ∀ c ∈ text, isDigit c = true) :
    readInteger text = if text.length ≤ digitLimit then some (digitsValue text : Int) else none := by
  have magnitude := readMagnitude_digits nonempty digits
  unfold readInteger
  rw [trim_solid fun c member => digit_unblank (digits c member)]
  split
  · exact absurd (digits '-' List.mem_cons_self) (by decide)
  · exact absurd (digits '+' List.mem_cons_self) (by decide)
  · rw [magnitude]
    split <;> rfl

theorem readInteger_ascii {text : List Char} (nonempty : text ≠ [])
    (ascii : ∀ c ∈ text, isAsciiDigit c = true) (short : text.length ≤ digitLimit) :
    readInteger text = some (digitsValue text : Int) := by
  rw [readInteger_plain nonempty fun c member => ascii_isDigit (ascii c member),if_pos short]

theorem readInteger_magnitude {text : List Char} {value : Int} (reading : readInteger text = some value) :
    ∃ magnitude rest, readMagnitude rest = some magnitude ∧ value.natAbs = magnitude ∧
      ∀ c ∈ trim isNumeralBlank text, c ∈ rest ∨ c = '-' ∨ c = '+' := by
  have read : ∀ {rest : List Char} {sign : Int → Int}, (∀ n, (sign n).natAbs = n.natAbs) →
      (readMagnitude rest >>= fun magnitude => some (magnitude : Int)).map sign = some value →
      ∃ magnitude, readMagnitude rest = some magnitude ∧ value.natAbs = magnitude := by
    intro rest sign unsigned made
    obtain ⟨number,counted,signed⟩ := Option.map_eq_some_iff.mp made
    obtain ⟨magnitude,found,same⟩ := Option.bind_eq_some_iff.mp counted
    refine ⟨magnitude,found,?_⟩
    rw [← signed,← Option.some.inj same,unsigned]
    rfl
  unfold readInteger at reading
  split at reading
  · rename_i rest trimmed
    obtain ⟨magnitude,found,size⟩ := read Int.natAbs_neg reading
    refine ⟨magnitude,rest,found,size,fun c member => ?_⟩
    rw [trimmed] at member
    rcases List.mem_cons.mp member with rfl | inside
    · exact .inr (.inl rfl)
    · exact .inl inside
  · rename_i rest trimmed
    obtain ⟨magnitude,found,size⟩ := read (fun _ => rfl) reading
    refine ⟨magnitude,rest,found,size,fun c member => ?_⟩
    rw [trimmed] at member
    rcases List.mem_cons.mp member with rfl | inside
    · exact .inr (.inr rfl)
    · exact .inl inside
  · obtain ⟨magnitude,found,size⟩ := read (fun _ => rfl) reading
    exact ⟨magnitude,_,found,size,fun c member => .inl member⟩

theorem readMagnitude_facts {text : List Char} {magnitude : Nat} (reading : readMagnitude text = some magnitude) :
    magnitude < 10 ^ digitLimit ∧ ∀ c ∈ text, isDigit c = true ∨ c = '_' := by
  obtain ⟨found,ungrouping,reading⟩ := Option.bind_eq_some_iff.mp reading
  split at reading
  · rename_i short
    cases reading
    refine ⟨?_,(ungrouped_chars ungrouping).1⟩
    exact Nat.lt_of_lt_of_le (digitsValue_lt found) (Nat.pow_le_pow_right (by decide) short)
  · cases reading

theorem readInteger_none {text : List Char} (decimal : isDecimal (strip text) = true) :
    readInteger text = none ↔
      digitLimit < (strip text).length ∨ ∃ c ∈ text, isBlank c = true ∧ isNumeralBlank c = false := by
  obtain ⟨left,right,split,before,after⟩ := trim_split isBlank text
  change text = left ++ strip text ++ right at split
  rw [isDecimal,Bool.and_eq_true,List.all_eq_true] at decimal
  obtain ⟨filled,digits⟩ := decimal
  have nonempty : strip text ≠ [] := by simpa using filled
  by_cases separated : ∃ c ∈ text, isBlank c = true ∧ isNumeralBlank c = false
  · refine ⟨fun _ => .inr separated,fun _ => ?_⟩
    obtain ⟨c,member,blank,stays⟩ := separated
    rw [Option.eq_none_iff_forall_not_mem]
    intro value reading
    obtain ⟨magnitude,rest,found,_,chars⟩ := readInteger_magnitude reading
    rcases chars c (mem_trim member stays) with inside | rfl | rfl
    · rcases (readMagnitude_facts found).2 c inside with digit | rfl
      · rw [digit_solid digit] at blank
        cases blank
      · exact absurd blank (by decide)
    · exact absurd blank (by decide)
    · exact absurd blank (by decide)
  · have padding : ∀ c, c ∈ text → isBlank c = true → isNumeralBlank c = true := by
      intro c member blank
      by_contra stays
      exact separated ⟨c,member,blank,by simpa using stays⟩
    have trimmed : trim isNumeralBlank text = strip text := by
      conv_lhs => rw [split]
      refine trim_padded (fun c member => padding c ?_ (before c member))
        (fun c member => digit_unblank (digits c member)) (fun c member => padding c ?_ (after c member)) nonempty
      · rw [split]
        simp [member]
      · rw [split]
        simp [member]
    have same : readInteger text = readInteger (strip text) := by
      unfold readInteger
      rw [trimmed,trim_solid fun c member => digit_unblank (digits c member)]
    rw [same,readInteger_plain nonempty digits,or_iff_left separated]
    split <;> simp <;> omega

theorem numeral_some {n : Nat} (small : n < 10 ^ digitLimit) : numeral? n = some (natText n) := by
  rw [numeral?,Nat.pow_eq,if_pos small]

theorem readInteger_digits {n : Nat} (small : n < 10 ^ digitLimit) : readInteger (digits n) = some (n : Int) := by
  have short : (digits n).length ≤ digitLimit := by
    obtain ⟨places,limit⟩ : ∃ places, digitLimit = places + 1 := ⟨4299,rfl⟩
    rw [limit] at small ⊢
    exact digits_length small
  rw [readInteger_ascii (digits_nonempty n) (digits_ascii n) short,digitsValue_digits]

theorem hasNumeral_exact {n : Int} : hasNumeral n = true ↔ n.natAbs < 10 ^ digitLimit := by
  unfold hasNumeral numeral?
  rw [Nat.pow_eq]
  split <;> simp [*]

theorem hasNumeral_read {text : List Char} {value : Int} (reading : readInteger text = some value) :
    hasNumeral value = true := by
  obtain ⟨magnitude,rest,found,same,_⟩ := readInteger_magnitude reading
  rw [hasNumeral_exact,same]
  exact (readMagnitude_facts found).1

theorem hasNumeral_word {n : Int} (nonneg : 0 ≤ n) (small : n < 2 ^ 32) : hasNumeral n = true := by
  rw [hasNumeral_exact]
  have below : n.natAbs < 10 ^ 10 := by omega
  exact Nat.lt_of_lt_of_le below (Nat.pow_le_pow_right (by decide) (by decide))

end GameText.Text
