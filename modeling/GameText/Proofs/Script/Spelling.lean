import GameText.Proofs.Script.Token

namespace GameText
open Outcome Text

-- An entry with these fields.
structure Entry.Has (entry : Entry) (command : Command) (text : Option String) (data : Option Bytes) : Prop where
  command : entry.command = command
  text : entry.text? = text
  data : entry.data? = data

theorem Entry.Has.unique {one other : Entry} {command : Command} {text : Option String} {data : Option Bytes}
    (first : one.Has command text data) (second : other.Has command text data) : one = other := by
  have built : ∀ {entry : Entry}, entry.Has command text data → Entry.build command text data = .ok entry := by
    rintro entry ⟨rfl,rfl,rfl⟩
    exact Entry.build_same entry
  exact Except.ok.inj ((built first).symm.trans (built second))

namespace Script

-- How the inside of a command token is spelled: a name and, behind white space, a decimal
-- numeral. White space may follow.
inductive Spells : List Char → List Char → Option (List Char) → Prop where
  | bare {name trail : List Char} (identifier : Identifier name) (behind : Blank trail) :
      Spells (':' :: (name ++ trail)) name none
  | argument {name gap word trail : List Char} (identifier : Identifier name) (apart : gap ≠ []) (blank : Blank gap)
      (filled : word ≠ []) (decimal : ∀ c ∈ word, isAsciiDigit c = true) (behind : Blank trail) :
      Spells (':' :: (name ++ gap ++ word ++ trail)) name (some word)

-- What a token stands for: the command of the row that it names, with an argument where the row
-- is wide and the numeral fits, or else a complex glyph or an icon of that name.
inductive Resolves (tables : TableSet) (content : List Char) (entry : Entry) : Prop where
  | bare {name : List Char} {row : CommandRow} (spelled : Spells content name none)
      (known : row ∈ tables.commands.rows) (named : row.name = some (String.ofList name)) (narrow : ¬ 0 < row.width)
      (made : entry.Has row.command none none)
  | argument {name word : List Char} {row : CommandRow} (spelled : Spells content name (some word))
      (known : row ∈ tables.commands.rows) (named : row.name = some (String.ofList name)) (wide : 0 < row.width)
      (small : digitsValue word ≤ row.maxArgument)
      (made : entry.Has row.command none (some (Bytes.littleEndian row.argumentSize (digitsValue word))))
  | complex {code : Bytes} (known : (String.ofList content,code) ∈ tables.commands.complex)
      (made : entry.Has .printComplex (some (String.ofList content)) none)
  | icon {id : Nat} (place : tables.commands.icons[id]? = some (String.ofList content))
      (made : entry.Has .printIcon none (some [UInt8.ofNat id]))

section
variable {tables : TableSet} {content name word : List Char}

theorem spells_bare : commandToken? content = some ⟨name,none⟩ ↔ Spells (':' :: content) name none := by
  rw [commandToken_exact]
  constructor
  · rintro ⟨after,rfl,identifier,given⟩
    exact .bare identifier (argument_blank.mp given)
  · rintro ⟨identifier,behind⟩
    exact ⟨_,rfl,identifier,argument_blank.mpr behind⟩

theorem spells_argument (decimal : ∀ c ∈ word, isAsciiDigit c = true) :
    commandToken? content = some ⟨name,some word⟩ ↔ Spells (':' :: content) name (some word) := by
  rw [commandToken_exact]
  constructor
  · rintro ⟨after,rfl,identifier,given⟩
    obtain ⟨gap,trail,rfl,apart,blank,filled,_,behind⟩ := argument_word.mp given
    have spelled := Spells.argument identifier apart blank filled decimal behind
    rwa [List.append_assoc,List.append_assoc] at spelled
  · intro spelled
    cases spelled with
    | argument identifier apart blank filled decimal behind =>
      refine ⟨_,?_,identifier,argument_word.mpr ⟨_,_,rfl,apart,blank,filled,fun c digit => ascii_solid (decimal c digit),behind⟩⟩
      rw [List.append_assoc,List.append_assoc]

-- Arguments that are not too long for a numeral.
def Brief (content : List Char) : Prop := ∀ name word, Spells content name (some word) → word.length ≤ digitLimit

-- Arguments whose rows have an integer for a width. Sheets may hold a real number there,
-- which no argument is measured by.
def Measured (tables : TableSet) (content : List Char) : Prop := ∀ name word row,
  Spells content name (some word) → row ∈ tables.commands.rows → row.name = some (String.ofList name) →
    row.isWhole = true

theorem Spells.argument_only {name other : List Char} {argument : Option (List Char)} (spelled : Spells content name argument)
    (again : Spells content other (some word)) : other = name ∧ argument = some word := by
  have decimal : ∀ c ∈ word, isAsciiDigit c = true := by cases again; assumption
  obtain ⟨rest,rfl⟩ : ∃ rest, content = ':' :: rest := by cases spelled <;> exact ⟨_,rfl⟩
  have second := (spells_argument decimal).mpr again
  cases argument with
  | none => cases (spells_bare.mpr spelled).symm.trans second
  | some first =>
    have digits : ∀ c ∈ first, isAsciiDigit c = true := by cases spelled; assumption
    cases ((spells_argument digits).mpr spelled).symm.trans second
    exact ⟨rfl,rfl⟩

theorem Measured.bare (spelled : Spells content name none) : Measured tables content :=
  fun _ _ _ again => by cases (spelled.argument_only again).2

theorem Measured.argument (consistent : tables.Consistent) {row : CommandRow} (known : row ∈ tables.commands.rows)
    (named : row.name = some (String.ofList name)) (whole : row.isWhole = true) (spelled : Spells content name (some word)) :
    Measured tables content := by
  intro other _ found again member same
  obtain ⟨rfl,-⟩ := spelled.argument_only again
  cases (consistent.commands.byName known named).symm.trans (consistent.commands.byName member same)
  exact whole

theorem Measured.symbol {key : String} (form : SymbolForm key) : Measured tables key.toList := by
  intro _ _ _ again
  generalize same : key.toList = content at again
  cases again with
  | argument => exact absurd rfl (form.2 ':' (same ▸ List.mem_cons_self)).2.2

theorem denotes_resolves (consistent : tables.Consistent) (formed : tables.commands.Formed) (brief : Brief content)
    {entry : Entry} (meaning : Denotes tables content entry) :
    Resolves tables content entry ∧ Measured tables content := by
  cases meaning with
  | complex _ known =>
    obtain ⟨code,member⟩ := CommandTable.isComplex_mem known
    have measured := @Measured.symbol tables _ (formed.keys _ member)
    rw [String.toList_ofList] at measured
    exact ⟨.complex member ⟨rfl,rfl,rfl⟩,measured⟩
  | icon _ _ known =>
    have place := CommandTable.iconId_place known
    have measured := @Measured.symbol tables _ (formed.icons _ (List.mem_of_getElem? place))
    rw [String.toList_ofList] at measured
    exact ⟨.icon place ⟨rfl,rfl,by rw [UInt8.ofNat_toNat]; rfl⟩,measured⟩
  | lineBreak reading named line =>
    obtain ⟨member,same⟩ := CommandTable.byName_mem named
    have narrow := (consistent.commands.bare member).mp (by rw [line]; rfl)
    have spelled := spells_bare.mp reading
    exact ⟨.bare spelled member same (of_decide_eq_false narrow) ⟨line.symm,rfl,rfl⟩,.bare spelled⟩
  | bare reading named fits =>
    obtain ⟨member,same⟩ := CommandTable.byName_mem named
    have narrow := (consistent.commands.bare member).mp (Entry.payload_of_bare fits)
    have spelled := spells_bare.mp reading
    exact ⟨.bare spelled member same (of_decide_eq_false narrow) ⟨rfl,rfl,rfl⟩,.bare spelled⟩
  | argument reading named fits decimal number whole small =>
    obtain ⟨member,same⟩ := CommandTable.byName_mem named
    have digits := List.all_eq_true.mp decimal
    have spelled := (spells_argument digits).mp reading
    have wide := (consistent.commands.payloads _ member).2.mp fits
    rw [readInteger_ascii (commandToken_nonempty reading) digits (brief _ _ spelled)] at number
    cases number
    exact ⟨.argument spelled member same (of_decide_eq_true wide) small ⟨rfl,rfl,rfl⟩,
      .argument consistent member same whole spelled⟩

theorem resolves_denotes (consistent : tables.Consistent) (formed : tables.commands.Formed) (brief : Brief content)
    {entry : Entry} (meaning : Resolves tables content entry) (measured : Measured tables content) :
    Denotes tables content entry := by
  cases meaning with
  | complex known made =>
    have same : entry = .complex (String.ofList content) := made.unique ⟨rfl,rfl,rfl⟩
    have denoted := complex_denoted formed (consistent.commands.isComplex known)
    rw [String.toList_ofList] at denoted
    rwa [same]
  | @icon id place made =>
    -- Every number of an icon is a byte, since sheets give few of them.
    have number : (UInt8.ofNat id).toNat = id := by
      have inside := (List.getElem?_eq_some_iff.mp place).1
      have few := formed.few
      rw [UInt8.toNat_ofNat',Nat.mod_eq_of_lt (by omega)]
    have same : entry = .argument .printIcon [UInt8.ofNat id] rfl := made.unique ⟨rfl,rfl,rfl⟩
    have denoted := icon_denoted consistent formed (number.symm ▸ place)
    rw [String.toList_ofList] at denoted
    rwa [same]
  | @bare name row spelled known named narrow made =>
    have form := (consistent.commands.bare known).mpr (decide_eq_false narrow)
    have found := consistent.commands.byName known named
    cases spelled with
    | bare identifier behind =>
      have reading := spells_bare.mpr (.bare identifier behind)
      rcases Entry.bare_or_newLine form with fits | line
      · have same : entry = .bare row.command fits := made.unique ⟨rfl,rfl,rfl⟩
        rw [same]
        exact .bare reading found fits
      · have same : entry = Entry.newLine := made.unique ⟨line.symm,rfl,rfl⟩
        rw [same]
        exact .lineBreak reading found line
  | @argument name word row spelled known named wide small made =>
    have fits := (consistent.commands.payloads row known).2.mpr (decide_eq_true wide)
    have found := consistent.commands.byName known named
    have short := brief _ _ spelled
    have whole := measured _ _ _ spelled known named
    cases spelled with
    | argument identifier apart blank filled decimal behind =>
      have reading := (spells_argument decimal).mpr (.argument identifier apart blank filled decimal behind)
      have same : entry = .argument row.command _ fits := made.unique ⟨rfl,rfl,rfl⟩
      rw [same]
      exact .argument reading found fits (List.all_eq_true.mpr decimal) (readInteger_ascii filled decimal short) whole small

theorem denotes_exact (loaded : tables.Loaded) (brief : Brief content) {entry : Entry} :
    Denotes tables content entry ↔ Resolves tables content entry ∧ Measured tables content :=
  ⟨denotes_resolves loaded.accepted.consistent loaded.formed brief,
    fun both => resolves_denotes loaded.accepted.consistent loaded.formed brief both.1 both.2⟩

end
end Script
end GameText
