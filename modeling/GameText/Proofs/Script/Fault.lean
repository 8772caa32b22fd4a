import GameText.Proofs.Script.Token
import GameText.Proofs.Tables.Packaged

namespace GameText

def Fault.IsParse (fault : Fault) : Prop := ∃ error, fault = .parse error

theorem Fault.IsParse.codec {fault : Fault} (parse : fault.IsParse) : fault.isCodec = true := by
  obtain ⟨error,rfl⟩ := parse
  rfl

-- What goes wrong with a number itself. No message can be skipped for it.
inductive Fault.IsNumber : Fault → Prop where
  | value (error : ValueError) : IsNumber (.value error)
  | real : IsNumber .notAnInteger

theorem Fault.IsNumber.other {fault : Fault} (number : fault.IsNumber) : fault.isCodec = false := by
  cases number <;> rfl

-- Entries whose arguments are as short as those of the rows that files give.
def Entry.Short : Entry → Prop
  | .argument _ data _ => data.length ≤ 8
  | _ => True

-- Why no entry of a row is made of a decimal numeral, whatever its value: it has more digits
-- than a numeral may have, or the row's width is no integer.
inductive CommandRow.Balks (row : CommandRow) (digits : List Char) (long : Fault) : Fault → Prop where
  | long (many : Text.digitLimit < digits.length) : Balks row digits long long
  | real (few : digits.length ≤ Text.digitLimit) (real : row.isWhole = false) : Balks row digits long .notAnInteger

theorem CommandRow.Balks.number {row : CommandRow} {digits : List Char} {long fault : Fault}
    (balks : row.Balks digits long fault) (value : long.IsNumber) : fault.IsNumber := by
  cases balks with
  | long => exact value
  | real => exact .real

namespace Script
open Outcome Text

section
variable {tables : TableSet}

-- Where a script fails: at a closing brace outside of a token, or at the first token that
-- fails.
inductive Halts (tables : TableSet) : Nat → List Char → Fault → Prop where
  | stray {position : Nat} {run after : List Char} {fault : Fault} (plain : Plain run)
      (failed : fail .strayClose (position + run.length) ['\x7d'] = (.error fault : Except Fault Message)) :
      Halts tables position (run ++ '\x7d' :: after) fault
  | token {position : Nat} {run body : List Char} {fault : Fault} (plain : Plain run)
      (failed : token tables (position + run.length) body = .error fault) :
      Halts tables position (run ++ '\x7b' :: body) fault
  | later {position : Nat} {run content after : List Char} {entry : Entry} {fault : Fault} (plain : Plain run)
      (inside : Plain content) (meaning : Denotes tables content entry)
      (more : Halts tables (position + (run ++ tokenOf content).length) after fault) :
      Halts tables position (run ++ tokenOf content ++ after) fault

theorem entriesFrom_error (consistent : tables.Consistent) {position : Nat} {text : List Char} {fault : Fault} :
    entriesFrom tables position text = .error fault ↔ Halts tables position text fault := by
  constructor
  · intro failed
    induction size : text.length using Nat.strongRecOn generalizing position text with
    | ind count ih =>
      rcases text_cases text with plain | ⟨run,after,plain,rfl⟩ | ⟨run,body,plain,rfl⟩
      · rw [entriesFrom_plain plain] at failed
        cases failed
      · rw [entriesFrom_close plain] at failed
        exact .stray plain failed
      · have opened := failed
        rw [entriesFrom_open plain] at opened
        rcases bind_error.mp opened with first | ⟨⟨entry,after⟩,reading,_⟩
        · exact .token plain first
        · obtain ⟨content,rfl,inside,meaning⟩ := (token_exact consistent).mp reading
          rw [← tokenOf_body] at failed size ⊢
          rw [entriesFrom_piece plain inside,(tokenEntry_exact consistent).mpr meaning] at failed
          rcases bind_error.mp (show entriesFrom tables _ _ >>= _ = _ from failed) with further | ⟨_,_,made⟩
          · have shorter : after.length < count := size ▸ piece_shorter run content after
            exact .later plain inside meaning (ih _ shorter further rfl)
          · cases made
  · intro halts
    induction halts with
    | stray plain failed => rw [entriesFrom_close plain,← failed]
    | token plain failed =>
      rw [entriesFrom_open plain,failed]
      rfl
    | later plain inside meaning _ ih =>
      rw [entriesFrom_piece plain inside,(tokenEntry_exact consistent).mpr meaning]
      exact bind_error.mpr (.inr ⟨_,rfl,bind_error.mpr (.inl ih)⟩)

def tooLong : Fault := .value .numeralTooLong

-- The inside of a token for a command that balks at its argument.
inductive Balks (tables : TableSet) (fault : Fault) : List Char → Prop where
  | argument {content name argument : List Char} {row : CommandRow}
      (reading : commandToken? content = some ⟨name,some argument⟩)
      (named : tables.commands.byName? (String.ofList name) = some row) (has : row.hasArgument = true)
      (decimal : argument.all isAsciiDigit = true) (balks : row.Balks argument tooLong fault) :
      Balks tables fault (':' :: content)

-- A script that founders on such a token: all before it is a script.
inductive Founders (tables : TableSet) (fault : Fault) : List Char → Prop where
  | here {run content after : List Char} (plain : Plain run) (inside : Plain content)
      (balks : Balks tables fault content) : Founders tables fault (run ++ tokenOf content ++ after)
  | later {run content after : List Char} {entry : Entry} (plain : Plain run) (inside : Plain content)
      (meaning : Denotes tables content entry) (more : Founders tables fault after) :
      Founders tables fault (run ++ tokenOf content ++ after)

theorem fail_parse {α : Type} {kind : Fault → Prop} (cause : ParseCause) (position : Nat) (token : List Char) :
    Fails (fun fault => fault.IsParse ∨ kind fault) (fail cause position token : Except Fault α) :=
  .error (.inl ⟨_,rfl⟩)

theorem argumentEntry_fails {row : CommandRow} (fits : row.command.payload = .data) (has : row.hasArgument = true)
    {argument : List Char} (nonempty : argument ≠ []) (position : Nat) (token : List Char) :
    Fails (fun fault => fault.IsParse ∨ argument.all isAsciiDigit = true ∧ row.Balks argument tooLong fault)
      (argumentEntry row argument position token) := by
  by_cases decimal : argument.all isAsciiDigit = true
  · have digits : ∀ c ∈ argument, isAsciiDigit c = true := List.all_eq_true.mp decimal
    rw [argumentEntry,if_pos decimal]
    by_cases short : argument.length ≤ digitLimit
    · rw [readInteger_ascii nonempty digits short]
      dsimp only
      rw [argument_built fits has]
      split
      · split
        · exact fail_parse _ _ _
        · rw [if_pos (Int.natCast_nonneg _)]
          exact .ok _
      · rename_i real
        exact .error (.inr ⟨decimal,.real short (by simpa using real)⟩)
    · have number := readInteger_plain nonempty fun c member => ascii_isDigit (digits c member)
      rw [number,if_neg short]
      exact .error (.inr ⟨decimal,.long (by omega)⟩)
  · rw [argumentEntry,if_neg decimal]
    exact fail_parse _ _ _

theorem argumentEntry_balks {row : CommandRow} (fits : row.command.payload = .data) (has : row.hasArgument = true)
    {argument : List Char} (nonempty : argument ≠ []) (decimal : argument.all isAsciiDigit = true) {fault : Fault}
    (balks : row.Balks argument tooLong fault) (position : Nat) (token : List Char) :
    argumentEntry row argument position token = .error fault := by
  have digits : ∀ c ∈ argument, isAsciiDigit c = true := List.all_eq_true.mp decimal
  rw [argumentEntry,if_pos decimal]
  cases balks with
  | long many =>
    have number := readInteger_plain nonempty fun c member => ascii_isDigit (digits c member)
    rw [number,if_neg (by omega)]
    rfl
  | real few real =>
    rw [readInteger_ascii nonempty digits few]
    dsimp only
    rw [argument_built fits has,if_neg (by simp [real])]

theorem commandEntry_fails (consistent : tables.Consistent) (content : List Char) (position : Nat)
    (token : List Char) :
    Fails (fun fault => fault.IsParse ∨ Balks tables fault (':' :: content))
      (commandEntry tables content position token) := by
  unfold commandEntry
  split
  · exact fail_parse _ _ _
  · rename_i command reading
    obtain ⟨name,argument⟩ := command
    dsimp only
    split
    · exact fail_parse _ _ _
    · rename_i row named
      obtain ⟨member,_⟩ := CommandTable.byName_mem named
      split
      · rename_i has
        have fits := (consistent.commands.payloads row member).2.mpr has
        cases argument with
        | none => exact fail_parse _ _ _
        | some argument =>
          intro fault failed
          rcases argumentEntry_fails fits has (commandToken_nonempty reading) position token fault failed with
            parse | ⟨decimal,balks⟩
          · exact .inl parse
          · exact .inr (.argument reading named has decimal balks)
      · rename_i none
        have form := (consistent.commands.bare member).mpr (by simpa using none)
        cases argument with
        | some argument => exact fail_parse _ _ _
        | none =>
          rcases Entry.bare_or_newLine form with fits | line
          · dsimp only
            rw [Entry.build_bare fits]
            exact .ok _
          · dsimp only
            rw [line,Entry.build_newLine]
            exact .ok _

theorem icon_built (few : tables.commands.icons.length ≤ 256) {name : String} {id : Nat}
    (known : tables.commands.iconId? name = some id) : ∃ entry, Entry.icon (id : Int) = .ok entry := by
  have place := CommandTable.iconId_place known
  have small := (List.getElem?_eq_some_iff.mp place).1
  have exact : Bytes.byteOf? (id : Int) = some (UInt8.ofNat id) := by
    rw [Bytes.byteOf_exact,UInt8.toNat_ofNat_of_lt' (by change id < 256; omega)]
  simp only [Entry.icon,exact]
  exact ⟨_,rfl⟩

theorem symbolEntry_fails {kind : Fault → Prop} (few : tables.commands.icons.length ≤ 256) (content : List Char)
    (position : Nat) (token : List Char) :
    Fails (fun fault => fault.IsParse ∨ kind fault) (symbolEntry tables content position token) := by
  simp only [symbolEntry]
  split
  · rw [Entry.build_complex]
    exact .ok _
  · split
    · rename_i id known
      obtain ⟨entry,built⟩ := icon_built few known
      rw [built]
      exact .ok _
    · exact fail_parse _ _ _

theorem tokenEntry_fails (consistent : tables.Consistent) (few : tables.commands.icons.length ≤ 256)
    (content : List Char) (position : Nat) :
    Fails (fun fault => fault.IsParse ∨ Balks tables fault content)
      (tokenEntry tables content position) := by
  unfold tokenEntry
  split
  · exact commandEntry_fails consistent _ _ _
  · exact symbolEntry_fails few _ _ _

theorem tokenEntry_balks (consistent : tables.Consistent) {content : List Char} {fault : Fault}
    (balks : Balks tables fault content) (position : Nat) : tokenEntry tables content position = .error fault := by
  cases balks with
  | @argument content name argument row reading named has decimal balks =>
    have fits := (consistent.commands.payloads row (CommandTable.byName_mem named).1).2.mpr has
    simp only [tokenEntry,commandEntry,reading,named,has,if_true]
    exact argumentEntry_balks fits has (commandToken_nonempty reading) decimal balks _ _

theorem token_fails (consistent : tables.Consistent) (few : tables.commands.icons.length ≤ 256) (position : Nat)
    (body : List Char) :
    Fails (fun fault => fault.IsParse ∨ ∃ content after,
      body = content ++ '\x7d' :: after ∧ Plain content ∧ Balks tables fault content) (token tables position body) := by
  simp only [token]
  split
  · exact fail_parse _ _ _
  · rename_i close after found
    obtain ⟨split,closed,ends⟩ := cut_exact.mp ⟨rfl,found⟩
    split
    · exact fail_parse _ _ _
    · rename_i unopened
      have close : close = '\x7d' := by simpa [isClose] using ends
      have plain : Plain (body.takeWhile fun c => !isClose c) :=
        plain_iff.mpr ⟨by simpa using List.findIdx?_eq_none_iff.mp unopened,by simpa using closed⟩
      refine Fails.bind (fun fault failed => ?_) fun _ _ => .ok _
      rcases tokenEntry_fails consistent few _ position fault failed with parse | balks
      · exact .inl parse
      · exact .inr ⟨_,after,close ▸ split,plain,balks⟩

theorem halts_fault (consistent : tables.Consistent) (few : tables.commands.icons.length ≤ 256) {position : Nat}
    {text : List Char} {fault : Fault} (halts : Halts tables position text fault) :
    fault.IsParse ∨ Founders tables fault text := by
  induction halts with
  | stray plain failed =>
    cases failed
    exact .inl ⟨_,rfl⟩
  | token plain failed =>
    rcases token_fails consistent few _ _ _ failed with parse | ⟨content,after,rfl,inside,balks⟩
    · exact .inl parse
    · rw [← tokenOf_body]
      exact .inr (.here plain inside balks)
  | later plain inside meaning more ih =>
    exact ih.imp id (.later plain inside meaning)

theorem founders_halts (consistent : tables.Consistent) {text : List Char} {fault : Fault}
    (founders : Founders tables fault text) (position : Nat) : Halts tables position text fault := by
  induction founders generalizing position with
  | here plain inside balks =>
    rw [tokenOf_body]
    refine .token plain ?_
    rw [token_plain inside,tokenEntry_balks consistent balks]
    rfl
  | later plain inside meaning _ ih => exact .later plain inside meaning (ih _)

theorem argument_founders {name : String} {row : CommandRow} (identifier : Identifier name.toList)
    (named : tables.commands.byName? name = some row) (has : row.hasArgument = true) {word : List Char} (filled : word ≠ [])
    (decimal : ∀ c ∈ word, isAsciiDigit c = true) {fault : Fault} (balks : row.Balks word tooLong fault) :
    Founders tables fault (tokenOf (':' :: (name.toList ++ ' ' :: word))) := by
  have reading := commandToken_argument identifier filled fun c member => ascii_solid (decimal c member)
  have inside : Balks tables fault (':' :: (name.toList ++ ' ' :: word)) :=
    .argument reading (by rw [String.ofList_toList]; exact named) has (List.all_eq_true.mpr decimal) balks
  have founders := @Founders.here tables fault [] _ [] (List.forall_mem_nil _) (command_plain identifier decimal) inside
  rwa [List.append_nil,List.nil_append] at founders

-- The number five behind so many zeros.
def padding : List Char := List.replicate digitLimit '0' ++ ['5']

def padded (name : String) : String := String.ofList (tokenOf (':' :: (name.toList ++ ' ' :: padding)))

theorem padding_ascii : ∀ c ∈ padding, isAsciiDigit c = true := by
  intro c member
  rcases List.mem_append.mp member with zero | five
  · rw [List.eq_of_mem_replicate zero]
    decide
  · rw [List.mem_singleton.mp five]
    decide

theorem padding_long : digitLimit < padding.length := by
  rw [padding,List.length_append,List.length_replicate,List.length_singleton]
  exact Nat.lt_succ_self _

theorem padded_founders {name : String} {row : CommandRow} (identifier : Identifier name.toList)
    (named : tables.commands.byName? name = some row) (has : row.hasArgument = true) :
    Founders tables tooLong (padded name).toList := by
  rw [padded,String.toList_ofList]
  exact argument_founders identifier named has (List.append_ne_nil_of_right_ne_nil _ (List.cons_ne_nil _ _)) padding_ascii
    (.long padding_long)

theorem Founders.number {text : List Char} {fault : Fault} (founders : Founders tables fault text) : fault.IsNumber := by
  induction founders with
  | here _ _ balks =>
    cases balks with
    | argument _ _ _ _ balks => exact balks.number (.value _)
  | later _ _ _ _ ih => exact ih

theorem parse_founders (consistent : tables.Consistent) {script : String} {fault : Fault}
    (founders : Founders tables fault script.toList) : parse tables script = .error fault :=
  (entriesFrom_error consistent).mpr (founders_halts consistent founders 0)

theorem argumentText_fails {data : Bytes} (short : data.length ≤ 8) (command : Command) :
    Fails (·.isCodec = true) (argumentText tables command data) := by
  unfold argumentText
  split
  · exact .error rfl
  · rw [argumentText_short short]
    exact .ok _

theorem entryText_fails {entry : Entry} (short : entry.Short) : Fails (·.isCodec = true) (entryText tables entry) := by
  cases entry with
  | text content => exact .ok _
  | complex key => exact .ok _
  | lineBreak text data => exact .ok _
  | bare command fits =>
    rw [entryText]
    split
    · exact .error rfl
    · exact .ok _
  | argument command data fits =>
    rw [entryText]
    split
    · split
      · exact .ok _
      · exact argumentText_fails short command
    · exact argumentText_fails short command

theorem serialize_fails {entries : Message} (short : ∀ entry ∈ entries, entry.Short) :
    Fails (·.isCodec = true) (serialize tables entries) := by
  induction entries with
  | nil => exact .ok _
  | cons entry rest ih =>
    rw [List.forall_mem_cons] at short
    apply (entryText_fails short.1).bind
    intro head _
    exact (ih short.2).bind fun tail _ => .ok _

end

-- A script of loaded tables is parsed, or refused with a parse failure that can be skipped,
-- unless it comes to an argument of too many digits, or of a row whose width is no integer.
theorem parse_answers {tables : TableSet} (loaded : tables.Loaded) (script : String) :
    (∀ fault, parse tables script = .error fault ∧ ¬ fault.IsParse ↔ Founders tables fault script.toList) ∧
    ((∃ entries, parse tables script = .ok entries) ∨ (∃ error, parse tables script = .error (.parse error)) ↔
      ∀ fault, ¬ Founders tables fault script.toList) := by
  have consistent := loaded.accepted.consistent
  have failures : ∀ fault, parse tables script = .error fault ∧ ¬ fault.IsParse ↔ Founders tables fault script.toList := by
    intro fault
    constructor
    · rintro ⟨failed,other⟩
      exact (halts_fault consistent loaded.formed.few ((entriesFrom_error consistent).mp failed)).resolve_left other
    · intro founders
      exact ⟨parse_founders consistent founders,fun parse => nomatch founders.number.other.symm.trans parse.codec⟩
  refine ⟨failures,?_⟩
  simp only [← failures]
  cases parse tables script <;> simp [Fault.IsParse]

theorem parse_answers_sample :
    parse TableSet.sample "\x7b:delay 65536\x7d" =
        .error (.parse ⟨.argumentTooLarge 65536 2,some 0,some "\x7b:delay 65536\x7d"⟩) ∧
      parse TableSet.sample (padded "delay") = .error (.value .numeralTooLong) := by
  have long : Founders TableSet.sample tooLong (padded "delay").toList := padded_founders (by decide) rfl rfl
  exact ⟨by decide +kernel,(((parse_answers TableSet.sample_loaded _).1 _).mpr long).1⟩

-- With the packaged tables a small argument is refused in another way, for its zeros.
theorem parse_answers_packaged :
    ¬ ∀ tables : TableSet, tables.Loaded → ∀ script, (∃ entries, parse tables script = .ok entries) ∨
      ∃ error, parse tables script = .error (.parse error) := by
  intro law
  have loaded : Packaged.set.Loaded := .packaged Packaged.tables_built
  obtain ⟨row,named,has⟩ : ∃ row, Packaged.set.commands.byName? "scale" = some row ∧ row.hasArgument = true :=
    ⟨_,rfl,rfl⟩
  have failed := parse_founders loaded.accepted.consistent (padded_founders (by decide) named has)
  rcases law Packaged.set loaded (padded "scale") with ⟨entries,parsed⟩ | ⟨error,refused⟩
  · cases failed.symm.trans parsed
  · cases failed.symm.trans refused

end Script
end GameText
