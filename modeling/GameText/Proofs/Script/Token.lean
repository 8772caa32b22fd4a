import GameText.Proofs.Script.Grammar
import GameText.Proofs.Tables.Loaded
import GameText.Proofs.Text.Numeral
import GameText.Script.Render

namespace GameText.Script
open Outcome Text

def Identifier : List Char → Prop
  | [] => False
  | head :: rest => isNameStart head = true ∧ ∀ c ∈ rest, isNameChar c = true

instance : DecidablePred Identifier
  | [] => .isFalse id
  | _ :: rest => @instDecidableAnd _ _ inferInstance (List.decidableBAll _ rest)

theorem nameChar_plain {c : Char} (name : isNameChar c = true) : isBrace c = false := by
  rw [Bool.eq_false_iff]
  intro brace
  rcases (Bool.or_eq_true _ _).mp brace with opens | closes
  · rw [of_decide_eq_true opens] at name; revert name; decide
  · rw [of_decide_eq_true closes] at name; revert name; decide

theorem Identifier.chars {name : List Char} (identifier : Identifier name) : ∀ c ∈ name, isNameChar c = true := by
  cases name with
  | nil => exact absurd identifier id
  | cons head rest =>
    intro c member
    rcases List.mem_cons.mp member with rfl | later
    · rw [isNameChar,identifier.1]; rfl
    · exact identifier.2 c later

theorem commandToken_identifier {content : List Char} {command : CommandToken}
    (reading : commandToken? content = some command) : Identifier command.name := by
  cases content with
  | nil => cases reading
  | cons c rest =>
    rw [commandToken?] at reading
    split at reading
    · rename_i start
      obtain ⟨_,_,rfl⟩ := Option.map_eq_some_iff.mp reading
      exact ⟨start,fun d member => List.mem_takeWhile_imp member⟩
    · cases reading

theorem cut_before {keep : Char → Bool} {front rest : List Char} (inside : ∀ c ∈ front, keep c = true)
    (stop : ∀ c ∈ rest.head?, keep c = false) :
    (front ++ rest).takeWhile keep = front ∧ (front ++ rest).dropWhile keep = rest := by
  rw [List.takeWhile_append_of_pos inside,List.dropWhile_append_of_pos inside]
  cases rest with
  | nil => simp
  | cons c more => simp [stop c rfl]

theorem commandToken_split {name after : List Char} (identifier : Identifier name)
    (stop : ∀ c ∈ after.head?, isNameChar c = false) :
    commandToken? (name ++ after) = (argument? after).map fun argument => ⟨name,argument⟩ := by
  cases name with
  | nil => exact absurd identifier id
  | cons head rest =>
    obtain ⟨front,back⟩ := cut_before identifier.2 stop
    rw [List.cons_append,commandToken?,if_pos identifier.1,front,back]

def Blank (text : List Char) : Prop := ∀ c ∈ text, isBlank c = true

theorem Blank.front {text : List Char} (blank : Blank text) : ∀ c ∈ text.head?, isBlank c = true :=
  fun c first => blank c (List.mem_of_mem_head? first)

theorem nameChar_range {c : Char} (name : isNameChar c = true) : 48 ≤ c.toNat ∧ c.toNat ≤ 122 := by
  have ranges : ((65 ≤ c.toNat ∧ c.toNat ≤ 90 ∨ 97 ≤ c.toNat ∧ c.toNat ≤ 122) ∨ c = '_') ∨
      48 ≤ c.toNat ∧ c.toNat ≤ 57 := by
    simpa [isNameChar,isNameStart,isAsciiDigit,Char.le_def,UInt32.le_iff_toNat_le] using name
  rcases ranges with (upper | rfl) | digit
  · omega
  · decide
  · omega

theorem blank_unnamed {c : Char} (blank : isBlank c = true) : isNameChar c = false := by
  rw [Bool.eq_false_iff]
  intro name
  have range := nameChar_range name
  unfold isBlank at blank
  simp only [blankRanges,List.any_cons,List.any_nil,Bool.or_eq_true,Bool.and_eq_true,decide_eq_true_eq,
    Bool.false_eq_true,or_false] at blank
  omega

theorem argument_blank {blanks : List Char} : argument? blanks = some none ↔ Blank blanks := by
  have nothing : (blanks.dropWhile isBlank).isEmpty = true ↔ Blank blanks := by
    rw [List.isEmpty_iff,List.dropWhile_eq_nil_iff,Blank]
  rw [← nothing]
  simp only [argument?]
  split
  · simp [*]
  · split
    · simp [*]
    · split <;> simp [*]

theorem argument_word {rest word : List Char} : argument? rest = some (some word) ↔
    ∃ gap trail, rest = gap ++ (word ++ trail) ∧ gap ≠ [] ∧ Blank gap ∧ word ≠ [] ∧
      (∀ c ∈ word, isBlank c = false) ∧ Blank trail := by
  constructor
  · intro found
    simp only [argument?] at found
    split at found
    · cases found
    · rename_i filled
      split at found
      · cases found
      · rename_i apart
        split at found
        · rename_i behind
          cases found
          refine ⟨rest.takeWhile isBlank,(rest.dropWhile isBlank).dropWhile fun c => !isBlank c,?_,by simpa using apart,
            fun c member => List.mem_takeWhile_imp member,?_,fun c member => by simpa using List.mem_takeWhile_imp member,
            List.all_eq_true.mp behind⟩
          · rw [List.takeWhile_append_dropWhile,List.takeWhile_append_dropWhile]
          · have filled : rest.dropWhile isBlank ≠ [] := by simpa using filled
            have solid := List.head_dropWhile_not isBlank filled
            cases word : rest.dropWhile isBlank with
            | nil => exact absurd word filled
            | cons c more =>
              simp only [word,List.head_cons] at solid
              simp [solid]
        · cases found
  · rintro ⟨gap,trail,rfl,apart,blank,nonempty,solid,behind⟩
    have keep : ∀ c ∈ word, (!isBlank c) = true := fun c member => by simp [solid c member]
    have stop : ∀ c ∈ (word ++ trail).head?, isBlank c = false := by
      rw [List.head?_append_of_ne_nil _ nonempty]
      exact fun c first => solid c (List.mem_of_mem_head? first)
    obtain ⟨front,back⟩ := cut_before blank stop
    obtain ⟨middle,last⟩ := @cut_before (fun c => !isBlank c) word trail keep fun c first => by
      simp [behind.front c first]
    have filled : (word ++ trail).isEmpty = false := by simp [nonempty]
    have after : gap.isEmpty = false := by simpa using apart
    simp [argument?,front,back,middle,last,filled,after,List.all_eq_true.mpr behind]

theorem argument_stop {after : List Char} {argument : Option (List Char)} (given : argument? after = some argument) :
    ∀ c ∈ after.head?, isNameChar c = false := by
  cases argument with
  | none => exact fun c first => blank_unnamed ((argument_blank.mp given).front c first)
  | some word =>
    obtain ⟨gap,trail,rfl,apart,blank,_⟩ := argument_word.mp given
    rw [List.head?_append_of_ne_nil _ apart]
    exact fun c first => blank_unnamed (blank.front c first)

theorem commandToken_name {name : List Char} (identifier : Identifier name) :
    commandToken? name = some ⟨name,none⟩ := by
  have reading := @commandToken_split name [] identifier nofun
  rwa [List.append_nil] at reading

theorem commandToken_exact {content name : List Char} {argument : Option (List Char)} :
    commandToken? content = some ⟨name,argument⟩ ↔
      ∃ after, content = name ++ after ∧ Identifier name ∧ argument? after = some argument := by
  constructor
  · intro reading
    have identifier := commandToken_identifier reading
    cases content with
    | nil => cases reading
    | cons c rest =>
      rw [commandToken?] at reading
      split at reading
      · obtain ⟨_,given,same⟩ := Option.map_eq_some_iff.mp reading
        cases same
        refine ⟨rest.dropWhile isNameChar,?_,identifier,given⟩
        rw [List.cons_append,List.takeWhile_append_dropWhile]
      · cases reading
  · rintro ⟨after,rfl,identifier,given⟩
    rw [commandToken_split identifier (argument_stop given),given]
    rfl

theorem commandToken_nonempty {content name argument : List Char}
    (reading : commandToken? content = some ⟨name,some argument⟩) : argument ≠ [] := by
  obtain ⟨_,_,_,given⟩ := commandToken_exact.mp reading
  obtain ⟨_,_,_,_,_,filled,_⟩ := argument_word.mp given
  exact filled

theorem commandToken_argument {name word : List Char} (identifier : Identifier name) (nonempty : word ≠ [])
    (solid : ∀ c ∈ word, isBlank c = false) :
    commandToken? (name ++ ' ' :: word) = some ⟨name,some word⟩ := by
  have blank : Blank [' '] := List.forall_mem_singleton.mpr (by decide)
  have given := argument_word.mpr
    ⟨[' '],[],by rw [List.append_nil],List.cons_ne_nil _ _,blank,nonempty,solid,List.forall_mem_nil _⟩
  exact commandToken_exact.mpr ⟨_,rfl,identifier,given⟩

-- An entry that is read back from the text it is shown as. A line break is
-- shown as a line feed, which comes back as text.
inductive Legible (tables : TableSet) : Entry → Prop where
  | text {content : String} (plain : Plain content.toList) : Legible tables (.text content)
  | lineBreak {strayText : Option String} {strayData : Option Bytes} :
      Legible tables (.lineBreak strayText strayData)
  | token {entry : Entry} {content : List Char} (inside : Plain content)
      (shown : entryText tables entry = .ok (String.ofList (tokenOf content)))
      (meaning : Denotes tables content entry) : Legible tables entry

section
variable {tables : TableSet}

theorem symbol_plain {key : String} (form : SymbolForm key) : Plain key.toList := by
  intro c member
  obtain ⟨opens,closes,_⟩ := form.2 c member
  simp [isBrace,isOpen,isClose,opens,closes]

theorem symbol_start {key : String} (form : SymbolForm key) : key.toList.head? ≠ some ':' := by
  intro starts
  exact (form.2 ':' (List.mem_of_mem_head? starts)).2.2 rfl

theorem symbolText_token (key : String) : symbolText key = String.ofList (tokenOf key.toList) := by
  rw [← String.toList_inj,symbolText,tokenOf]
  simp

theorem complex_denoted (formed : tables.commands.Formed) {key : String}
    (known : tables.commands.isComplex key = true) : Denotes tables key.toList (.complex key) := by
  obtain ⟨code,member⟩ := CommandTable.isComplex_mem known
  have meaning : Denotes tables key.toList (.complex (String.ofList key.toList)) :=
    .complex (symbol_start (formed.keys _ member)) (by rwa [String.ofList_toList])
  rwa [String.ofList_toList] at meaning

theorem icon_denoted (consistent : tables.Consistent) (formed : tables.commands.Formed) {byte : UInt8} {name : String}
    (place : tables.commands.icons[byte.toNat]? = some name) :
    Denotes tables name.toList (.argument .printIcon [byte] rfl) := by
  have member := List.mem_of_getElem? place
  refine .icon (symbol_start (formed.icons _ member)) ?_ ?_ <;> rw [String.ofList_toList]
  · exact consistent.commands.icon_apart member
  · exact consistent.commands.iconId place

theorem legible_complex (formed : tables.commands.Formed) {key : String}
    (known : tables.commands.isComplex key = true) : Legible tables (.complex key) := by
  obtain ⟨code,member⟩ := CommandTable.isComplex_mem known
  exact .token (symbol_plain (formed.keys _ member)) (by rw [entryText,symbolText_token])
    (complex_denoted formed known)

theorem legible_icon (consistent : tables.Consistent) (formed : tables.commands.Formed) {byte : UInt8} {name : String}
    (icon : iconName? tables [byte] = some name) (fits : Command.printIcon.payload = .data) :
    Legible tables (.argument .printIcon [byte] fits) := by
  have place : tables.commands.icons[byte.toNat]? = some name := by
    simpa [iconName?,CommandTable.iconName?] using icon
  have form := formed.icons _ (List.mem_of_getElem? place)
  refine .token (symbol_plain form) ?_ (icon_denoted consistent formed place)
  simp only [entryText,if_true,icon,symbolText_token]

theorem command_named (consistent : tables.Consistent) {row : CommandRow} (member : row ∈ tables.commands.rows)
    {name : String} (named : row.name = some name) :
    tables.commands.byName? (String.ofList name.toList) = some row := by
  rw [String.ofList_toList]
  exact consistent.commands.byName member named

theorem name_plain {name : List Char} (identifier : Identifier name) : Plain (':' :: name) := by
  intro c member
  rcases List.mem_cons.mp member with rfl | letter
  · decide
  · exact nameChar_plain (identifier.chars c letter)

theorem bare_shown (consistent : tables.Consistent) {row : CommandRow} (member : row ∈ tables.commands.rows)
    {name : String} (named : row.name = some name) (fits : row.command.isBare = true) :
    entryText tables (.bare row.command fits) = .ok (String.ofList (tokenOf (':' :: name.toList))) := by
  simp only [entryText,consistent.commands.rowFor member,Option.bind_some,named]
  rw [Except.ok.injEq,← String.toList_inj,tokenOf]
  simp

theorem legible_bare (consistent : tables.Consistent) {row : CommandRow} (member : row ∈ tables.commands.rows)
    {name : String} (named : row.name = some name) (identifier : Identifier name.toList)
    (fits : row.command.isBare = true) : Legible tables (.bare row.command fits) :=
  .token (name_plain identifier) (bare_shown consistent member named fits)
    (.bare (commandToken_name identifier) (command_named consistent member named) fits)

def argumentContent (name : List Char) (value : Nat) : List Char := ':' :: (name ++ ' ' :: digits value)

theorem command_plain {name word : List Char} (identifier : Identifier name)
    (ascii : ∀ c ∈ word, isAsciiDigit c = true) : Plain (':' :: (name ++ ' ' :: word)) := by
  intro c member
  simp only [List.mem_cons,List.mem_append] at member
  rcases member with rfl | letter | rfl | digit
  · decide
  · exact nameChar_plain (identifier.chars c letter)
  · decide
  · exact nameChar_plain (by rw [isNameChar,ascii c digit,Bool.or_true])

theorem argumentContent_plain {name : List Char} (identifier : Identifier name) (value : Nat) :
    Plain (argumentContent name value) :=
  command_plain identifier (digits_ascii value)

theorem argument_small {data : Bytes} (short : data.length ≤ 8) : CommandRow.argumentValue data < 10 ^ digitLimit := by
  have wide : 256 ^ data.length ≤ 256 ^ 8 := Nat.pow_le_pow_right (by decide) short
  have limit : 10 ^ 20 ≤ 10 ^ digitLimit := Nat.pow_le_pow_right (by decide) (by decide)
  exact Nat.lt_of_lt_of_le (Bytes.ofLittleEndian_lt data) (wide.trans (Nat.le_trans (by decide) limit))

theorem argument_digits {data : Bytes} (short : data.length ≤ 8) :
    (digits (CommandRow.argumentValue data)).length ≤ digitLimit := by
  have wide : 256 ^ data.length ≤ 256 ^ 8 := Nat.pow_le_pow_right (by decide) short
  have small : CommandRow.argumentValue data < 10 ^ (19 + 1) :=
    Nat.lt_of_lt_of_le (Bytes.ofLittleEndian_lt data) (wide.trans (by decide))
  exact (digits_length small).trans (by decide)

theorem argument_numeral {data : Bytes} (short : data.length ≤ 8) :
    numeral? (CommandRow.argumentValue data) = some (natText (CommandRow.argumentValue data)) ∧
      readInteger (digits (CommandRow.argumentValue data)) = some (CommandRow.argumentValue data : Int) :=
  ⟨numeral_some (argument_small short),readInteger_digits (argument_small short)⟩

theorem argumentText_short {data : Bytes} (short : data.length ≤ 8) :
    CommandRow.argumentText data = .ok (natText (CommandRow.argumentValue data)) := by
  unfold CommandRow.argumentText
  rw [(argument_numeral short).1]

section
variable {row : CommandRow} {name : String} {data : Bytes}

theorem argument_denoted (consistent : tables.Consistent) (member : row ∈ tables.commands.rows)
    (named : row.name = some name) (identifier : Identifier name.toList) (fits : row.command.payload = .data)
    (whole : row.isWhole = true) (width : data.length = row.argumentSize) (short : data.length ≤ 8) :
    Denotes tables (argumentContent name.toList (CommandRow.argumentValue data))
      (.argument row.command data fits) := by
  have ascii := digits_ascii (CommandRow.argumentValue data)
  have reading := commandToken_argument identifier (digits_nonempty (CommandRow.argumentValue data))
    (fun c inside => ascii_solid (ascii c inside))
  have bound : CommandRow.argumentValue data ≤ row.maxArgument := by
    have less := Bytes.ofLittleEndian_lt data
    rw [CommandRow.maxArgument,← width]
    exact Nat.le_sub_one_of_lt less
  have back : Bytes.littleEndian row.argumentSize (CommandRow.argumentValue data) = data := by
    rw [← width]
    exact Bytes.littleEndian_ofLittleEndian data
  have meaning := Denotes.argument reading (command_named consistent member named) fits
    (List.all_eq_true.mpr ascii) (argument_numeral short).2 whole bound
  rwa [back] at meaning

theorem argument_shown (consistent : tables.Consistent) (member : row ∈ tables.commands.rows)
    (named : row.name = some name) (short : data.length ≤ 8) :
    argumentText tables row.command data =
      .ok (String.ofList (tokenOf (argumentContent name.toList (CommandRow.argumentValue data)))) := by
  simp only [argumentText,consistent.commands.rowFor member,Option.bind_some,named,argumentText_short short,Except.map]
  rw [Except.ok.injEq,← String.toList_inj,tokenOf,argumentContent]
  simp [natText]

theorem entryText_argument (unnamed : row.command = .printIcon → iconName? tables data = none)
    (fits : row.command.payload = .data) :
    entryText tables (.argument row.command data fits) = argumentText tables row.command data := by
  rw [entryText]
  split
  · rename_i printed
    rw [unnamed printed]
  · rfl

theorem legible_argument (consistent : tables.Consistent) (formed : tables.commands.Formed)
    (member : row ∈ tables.commands.rows) (named : row.name = some name) (identifier : Identifier name.toList)
    (fits : row.command.payload = .data) (whole : row.isWhole = true) (width : data.length = row.argumentSize) :
    Legible tables (.argument row.command data fits) := by
  have short := formed.short member width
  by_cases icon : row.command = .printIcon ∧ ∃ symbol, iconName? tables data = some symbol
  · obtain ⟨printed,symbol,known⟩ := icon
    match data,known with
    | [byte],known =>
      simp only [printed]
      exact legible_icon consistent formed known _
  · have unnamed : row.command = .printIcon → iconName? tables data = none := fun printed =>
      Option.eq_none_iff_forall_ne_some.mpr fun symbol known => icon ⟨printed,symbol,known⟩
    have shown := entryText_argument unnamed fits
    rw [argument_shown consistent member named short] at shown
    exact .token (argumentContent_plain identifier _) shown
      (argument_denoted consistent member named identifier fits whole width short)

end

theorem legible_denoted (consistent : tables.Consistent) (formed : tables.commands.Formed) {content : List Char}
    {entry : Entry} (meaning : Denotes tables content entry) : Legible tables entry := by
  have spelled : ∀ {text name : List Char} {argument : Option (List Char)},
      commandToken? text = some ⟨name,argument⟩ → Identifier (String.ofList name).toList := by
    intro text name argument reading
    rw [String.toList_ofList]
    exact commandToken_identifier reading
  cases meaning with
  | complex _ known => exact legible_complex formed known
  | icon _ _ known =>
    have icon := CommandTable.iconId_place known
    exact legible_icon consistent formed (by simpa [iconName?,CommandTable.iconName?] using icon) rfl
  | lineBreak => exact .lineBreak
  | bare reading named fits =>
    obtain ⟨member,name⟩ := CommandTable.byName_mem named
    exact legible_bare consistent member name (spelled reading) fits
  | argument reading named fits _ _ whole =>
    obtain ⟨member,name⟩ := CommandTable.byName_mem named
    exact legible_argument consistent formed member name (spelled reading) fits whole (Bytes.littleEndian_length _ _)

end
end GameText.Script
