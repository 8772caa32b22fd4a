import GameText.Proofs.Bytes
import GameText.Proofs.Message.Build
import GameText.Proofs.Message.Normal
import GameText.Proofs.Tables.Set
import GameText.Script.Parse
import Mathlib.Data.List.TakeWhile

namespace GameText.Script
open Outcome Text

-- Text without braces: the runs between tokens, and the insides of tokens.
def Plain (text : List Char) : Prop := ∀ c ∈ text, isBrace c = false

instance : DecidablePred Plain := fun text => List.decidableBAll _ text

-- What the inside of a token says, by the rows of the tables alone.
inductive Denotes (tables : TableSet) : List Char → Entry → Prop where
  | complex {content : List Char} (symbol : content.head? ≠ some ':')
      (known : tables.commands.isComplex (String.ofList content) = true) :
      Denotes tables content (.complex (String.ofList content))
  | icon {content : List Char} {byte : UInt8} (symbol : content.head? ≠ some ':')
      (other : tables.commands.isComplex (String.ofList content) = false)
      (known : tables.commands.iconId? (String.ofList content) = some byte.toNat) :
      Denotes tables content (.argument .printIcon [byte] rfl)
  | lineBreak {content name : List Char} {row : CommandRow} (reading : commandToken? content = some ⟨name,none⟩)
      (named : tables.commands.byName? (String.ofList name) = some row) (command : row.command = .newLine) :
      Denotes tables (':' :: content) Entry.newLine
  | bare {content name : List Char} {row : CommandRow} (reading : commandToken? content = some ⟨name,none⟩)
      (named : tables.commands.byName? (String.ofList name) = some row) (fits : row.command.isBare = true) :
      Denotes tables (':' :: content) (.bare row.command fits)
  | argument {content name argument : List Char} {row : CommandRow} {value : Nat}
      (reading : commandToken? content = some ⟨name,some argument⟩)
      (named : tables.commands.byName? (String.ofList name) = some row) (fits : row.command.payload = .data)
      (decimal : argument.all isAsciiDigit = true) (number : readInteger argument = some (value : Int))
      (whole : row.isWhole = true) (small : value ≤ row.maxArgument) :
      Denotes tables (':' :: content)
        (.argument row.command (Bytes.littleEndian row.argumentSize value) fits)

-- A script: runs of literal text with tokens between them.
inductive Scripted (tables : TableSet) : List Char → Message → Prop where
  | ended {run : List Char} (plain : Plain run) : Scripted tables run (literal run)
  | token {run content after : List Char} {entry : Entry} {entries : Message} (plain : Plain run)
      (inside : Plain content) (meaning : Denotes tables content entry) (more : Scripted tables after entries) :
      Scripted tables (run ++ tokenOf content ++ after) (literal run ++ entry :: entries)

section
variable {tables : TableSet}

theorem scripted_each {holds : Entry → Prop}
    (texts : ∀ content : String, content ≠ "" → Plain content.toList → holds (.text content))
    (tokens : ∀ content entry, Denotes tables content entry → holds entry) {text : List Char} {entries : Message}
    (scripted : Scripted tables text entries) : ∀ entry ∈ entries, holds entry := by
  have runs : ∀ {run : List Char}, Plain run → ∀ entry ∈ literal run, holds entry := by
    intro run plain entry member
    unfold literal at member
    split at member
    · cases member
    · rename_i filled
      rw [List.mem_singleton.mp member]
      exact texts _ (by simpa using filled) (by rwa [String.toList_ofList])
  induction scripted with
  | ended plain => exact runs plain
  | token plain inside meaning _ ih =>
    exact List.forall_mem_append.mpr ⟨runs plain,List.forall_mem_cons.mpr ⟨tokens _ _ meaning,ih⟩⟩

theorem argument_built {row : CommandRow} (fits : row.command.payload = .data) (has : row.hasArgument = true)
    (value : Int) (large : Except Fault Entry) :
    (row.argumentBound >>= fun bound => if bound < value then large
      else row.argumentBytes value >>= fun data => Entry.build row.command none (some data)) =
    if row.isWhole then
      if row.maxArgument < value then large
      else if 0 ≤ value then .ok (.argument row.command (Bytes.littleEndian row.argumentSize value.toNat) fits)
      else .error .overflow
    else .error .notAnInteger := by
  have wide : ¬ row.width < 0 := by
    have positive : 0 < row.width := by simpa [CommandRow.hasArgument] using has
    omega
  cases whole : row.isWhole with
  | false =>
    rw [CommandRow.argumentBound_real whole]
    rfl
  | true =>
    rw [CommandRow.argumentBound_ok.mpr ⟨whole,by omega,rfl⟩,if_pos rfl]
    change (if _ then _ else _) = _
    split
    · rfl
    · rename_i small
      rw [CommandRow.argumentBytes,if_neg (by simp [whole]),if_neg wide]
      by_cases natural : 0 ≤ value
      · rw [if_pos ⟨natural,by omega⟩,if_pos natural]
        exact Entry.build_argument fits
      · rw [if_neg fun range => natural range.1,if_neg natural]
        rfl

theorem argumentEntry_exact {row : CommandRow} (fits : row.command.payload = .data) (has : row.hasArgument = true)
    {argument token : List Char} {position : Nat} {entry : Entry} :
    argumentEntry row argument position token = .ok entry ↔
      argument.all isAsciiDigit = true ∧ row.isWhole = true ∧
        ∃ value : Nat, readInteger argument = some (value : Int) ∧ value ≤ row.maxArgument ∧
          entry = .argument row.command (Bytes.littleEndian row.argumentSize value) fits := by
  unfold argumentEntry
  constructor
  · intro made
    split at made
    · rename_i decimal
      refine ⟨decimal,?_⟩
      split at made
      · cases made
      · rename_i value number
        rw [argument_built fits has] at made
        split at made
        · rename_i whole
          split at made
          · cases made
          split at made
          · rename_i natural
            cases made
            refine ⟨whole,value.toNat,?_,by omega,rfl⟩
            rw [number,Int.toNat_of_nonneg natural]
          · cases made
        · cases made
    · cases made
  · rintro ⟨decimal,whole,value,number,small,rfl⟩
    rw [if_pos decimal]
    simp only [number]
    rw [argument_built fits has,if_pos whole,if_neg (by omega),if_pos (by omega),Int.toNat_natCast]

theorem commandEntry_exact (consistent : tables.Consistent) {content token : List Char} {position : Nat}
    {entry : Entry} :
    commandEntry tables content position token = .ok entry ↔ Denotes tables (':' :: content) entry := by
  constructor
  · intro made
    unfold commandEntry at made
    split at made
    · cases made
    · rename_i command reading
      obtain ⟨name,argument⟩ := command
      simp only at made
      split at made
      · cases made
      · rename_i row named
        obtain ⟨member,_⟩ := CommandTable.byName_mem named
        split at made
        · rename_i has
          have fits := (consistent.commands.payloads row member).2.mpr has
          split at made
          · cases made
          · obtain ⟨decimal,whole,value,number,small,rfl⟩ := (argumentEntry_exact fits has).mp made
            exact .argument reading named fits decimal number whole small
        · rename_i none
          have form := (consistent.commands.bare member).mpr (by simpa using none)
          split at made
          · cases made
          · rcases Entry.bare_or_newLine form with fits | line
            · rw [Entry.build_bare fits] at made
              cases made
              exact .bare reading named fits
            · rw [line,Entry.build_newLine] at made
              cases made
              exact .lineBreak reading named line
  · intro meaning
    cases meaning with
    | complex symbol => exact absurd rfl symbol
    | icon symbol => exact absurd rfl symbol
    | @lineBreak _ name row reading named command =>
      obtain ⟨member,_⟩ := CommandTable.byName_mem named
      have has := (consistent.commands.bare member).mp (by rw [command]; rfl)
      simp only [commandEntry,reading,named,has,command]
      rfl
    | @bare _ name row reading named fits =>
      obtain ⟨member,_⟩ := CommandTable.byName_mem named
      have has := (consistent.commands.bare member).mp (Entry.payload_of_bare fits)
      simp only [commandEntry,reading,named,has]
      exact Entry.build_bare fits
    | @argument _ name argument row value reading named fits decimal number whole small =>
      obtain ⟨member,_⟩ := CommandTable.byName_mem named
      have has := (consistent.commands.payloads row member).2.mp fits
      simp only [commandEntry,reading,named,has,if_true]
      exact (argumentEntry_exact fits has).mpr ⟨decimal,whole,value,number,small,rfl⟩

theorem symbolEntry_exact {content token : List Char} (symbol : content.head? ≠ some ':') {position : Nat}
    {entry : Entry} :
    symbolEntry tables content position token = .ok entry ↔ Denotes tables content entry := by
  simp only [symbolEntry]
  constructor
  · intro made
    split at made
    · rename_i known
      rw [Entry.build_complex] at made
      cases made
      exact .complex symbol known
    · rename_i other
      split at made
      · rename_i id known
        unfold Entry.icon at made
        split at made
        · cases made
        · rename_i byte exact
          have value : id = byte.toNat := by
            have same := Bytes.byteOf_exact.mp exact
            omega
          cases made
          exact .icon symbol (by simpa using other) (value ▸ known)
      · cases made
  · intro meaning
    cases meaning with
    | complex _ known =>
      rw [if_pos known]
      exact Entry.build_complex
    | @icon _ byte _ other known =>
      have exact : Bytes.byteOf? (byte.toNat : Int) = some byte := Bytes.byteOf_exact.mpr rfl
      rw [if_neg (by simp [other]),known]
      simp only [Entry.icon,exact]
    | lineBreak => exact absurd rfl symbol
    | bare => exact absurd rfl symbol
    | argument => exact absurd rfl symbol

theorem tokenEntry_exact (consistent : tables.Consistent) {content : List Char} {position : Nat} {entry : Entry} :
    tokenEntry tables content position = .ok entry ↔ Denotes tables content entry := by
  unfold tokenEntry
  split
  · exact commandEntry_exact consistent
  · rename_i others
    refine symbolEntry_exact ?_
    cases content with
    | nil => simp
    | cons c rest =>
      intro same
      cases same
      exact others rest rfl

theorem cut_exact {keep : Char → Bool} {text front rest : List Char} {stop : Char} :
    (text.takeWhile keep = front ∧ text.dropWhile keep = stop :: rest) ↔
      (text = front ++ stop :: rest ∧ (∀ c ∈ front, keep c = true) ∧ keep stop = false) := by
  constructor
  · rintro ⟨rfl,found⟩
    have ends := List.head_dropWhile_not keep (l := text) (by simp [found])
    refine ⟨?_,fun c member => List.mem_takeWhile_imp member,by simpa [found] using ends⟩
    rw [← found,List.takeWhile_append_dropWhile]
  · rintro ⟨rfl,inside,ends⟩
    constructor
    · rw [List.takeWhile_append_of_pos inside,List.takeWhile_cons_of_neg (by simp [ends]),List.append_nil]
    · rw [List.dropWhile_append_of_pos inside,List.dropWhile_cons_of_neg (by simp [ends])]

theorem plain_iff {text : List Char} :
    Plain text ↔ (∀ c ∈ text, isOpen c = false) ∧ ∀ c ∈ text, isClose c = false := by
  simp only [Plain,isBrace,Bool.or_eq_false_iff,forall_and]

theorem token_plain {position : Nat} {content after : List Char} (inside : Plain content) :
    token tables position (content ++ '\x7d' :: after) =
      tokenEntry tables content position >>= fun entry => .ok (entry,after) := by
  obtain ⟨unopened,unclosed⟩ := plain_iff.mp inside
  obtain ⟨front,back⟩ := cut_exact.mpr ⟨rfl,(fun c member => by simp [unclosed c member] :
    ∀ c ∈ content, (!isClose c) = true),(by decide : (!isClose '\x7d') = false)⟩
  have none : content.findIdx? isOpen = none := List.findIdx?_eq_none_iff.mpr unopened
  simp only [token]
  rw [back,front,none]

theorem token_split {position : Nat} {body after : List Char} {entry : Entry} :
    token tables position body = .ok (entry,after) ↔
      ∃ content, body = content ++ '\x7d' :: after ∧ Plain content ∧
        tokenEntry tables content position = .ok entry := by
  constructor
  · intro made
    simp only [token] at made
    split at made
    · cases made
    · rename_i close rest found
      obtain ⟨split,closed,ends⟩ := cut_exact.mp ⟨rfl,found⟩
      split at made
      · cases made
      · rename_i unopened
        obtain ⟨value,inside,same⟩ := bind_ok.mp made
        cases same
        have close : close = '\x7d' := by simpa [isClose] using ends
        refine ⟨_,close ▸ split,plain_iff.mpr ⟨?_,by simpa using closed⟩,inside⟩
        simpa using List.findIdx?_eq_none_iff.mp unopened
  · rintro ⟨content,rfl,plain,meaning⟩
    rw [token_plain plain]
    exact bind_ok.mpr ⟨entry,meaning,rfl⟩

theorem token_exact (consistent : tables.Consistent) {position : Nat} {body after : List Char} {entry : Entry} :
    token tables position body = .ok (entry,after) ↔
      ∃ content, body = content ++ '\x7d' :: after ∧ Plain content ∧ Denotes tables content entry := by
  simp only [token_split,tokenEntry_exact consistent]

theorem text_cases (text : List Char) : Plain text ∨
    (∃ run after, Plain run ∧ text = run ++ '\x7d' :: after) ∨
      ∃ run body, Plain run ∧ text = run ++ '\x7b' :: body := by
  induction text with
  | nil => exact .inl (List.forall_mem_nil _)
  | cons c rest ih =>
    by_cases closes : isClose c = true
    · have same : c = '\x7d' := of_decide_eq_true closes
      exact .inr (.inl ⟨[],rest,List.forall_mem_nil _,by simp [same]⟩)
    by_cases opens : isOpen c = true
    · have same : c = '\x7b' := of_decide_eq_true opens
      exact .inr (.inr ⟨[],rest,List.forall_mem_nil _,by simp [same]⟩)
    have extend : ∀ {run}, Plain run → Plain (c :: run) := by
      intro run plain
      simpa [Plain,isBrace,opens,closes] using plain
    rcases ih with plain | ⟨run,after,plain,rfl⟩ | ⟨run,body,plain,rfl⟩
    · exact .inl (extend plain)
    · exact .inr (.inl ⟨c :: run,after,extend plain,rfl⟩)
    · exact .inr (.inr ⟨c :: run,body,extend plain,rfl⟩)

theorem cut_brace {run rest : List Char} {brace : Char} (plain : Plain run) (found : isBrace brace = true) :
    (run ++ brace :: rest).takeWhile (fun c => !isBrace c) = run ∧
      (run ++ brace :: rest).dropWhile (fun c => !isBrace c) = brace :: rest :=
  cut_exact.mpr ⟨rfl,fun c member => by simp [plain c member],by simp [found]⟩

theorem entriesFrom_plain {position : Nat} {run : List Char} (plain : Plain run) :
    entriesFrom tables position run = .ok (literal run) := by
  have keep : ∀ c ∈ run, (!isBrace c) = true := fun c member => by simp [plain c member]
  have front := List.takeWhile_eq_self_iff.mpr keep
  have back := List.dropWhile_eq_nil_iff.mpr keep
  rw [entriesFrom]
  split
  · rw [front]
  · rename_i found
    rw [back] at found; cases found

theorem entriesFrom_close {position : Nat} {run after : List Char} (plain : Plain run) :
    entriesFrom tables position (run ++ '\x7d' :: after) = fail .strayClose (position + run.length) ['\x7d'] := by
  obtain ⟨front,back⟩ := @cut_brace run after '\x7d' plain (by decide)
  rw [entriesFrom]
  split
  · rename_i found
    rw [back] at found
    cases found
  · rename_i brace body found
    rw [back] at found
    cases found
    rw [front]
    rfl

theorem entriesFrom_open {position : Nat} {run body : List Char} (plain : Plain run) :
    entriesFrom tables position (run ++ '\x7b' :: body) =
      token tables (position + run.length) body >>= fun read =>
        entriesFrom tables (position + (run.length + 1 + body.length - read.2.length)) read.2 >>= fun rest =>
          .ok (literal run ++ read.1 :: rest) := by
  obtain ⟨front,back⟩ := @cut_brace run body '\x7b' plain (by decide)
  have size : (run ++ '\x7b' :: body).length = run.length + 1 + body.length := by
    simp
    omega
  rw [entriesFrom]
  split
  · rename_i found
    rw [back] at found
    cases found
  · rename_i brace rest found
    rw [back] at found
    cases found
    rw [if_neg (by decide)]
    split
    · rename_i fault failed
      rw [front] at failed
      rw [failed]
      rfl
    · rename_i entry after reading
      rw [front] at reading
      rw [reading,front,size]
      rfl

theorem tokenOf_body (run content after : List Char) :
    run ++ tokenOf content ++ after = run ++ '\x7b' :: (content ++ '\x7d' :: after) := by
  simp [tokenOf]

theorem piece_shorter (run content after : List Char) : after.length < (run ++ tokenOf content ++ after).length := by
  simp [tokenOf]
  omega

theorem entriesFrom_piece {run content : List Char} (plain : Plain run) (inside : Plain content) (position : Nat)
    (after : List Char) :
    entriesFrom tables position (run ++ tokenOf content ++ after) =
      tokenEntry tables content (position + run.length) >>= fun entry =>
        entriesFrom tables (position + (run ++ tokenOf content).length) after >>= fun rest =>
          .ok (literal run ++ entry :: rest) := by
  have place : run.length + 1 + (content ++ '\x7d' :: after).length - after.length =
      (run ++ tokenOf content).length := by
    simp [tokenOf]
    omega
  rw [tokenOf_body,entriesFrom_open plain,token_plain inside]
  cases tokenEntry tables content (position + run.length) with
  | error fault => rfl
  | ok entry =>
    change entriesFrom tables _ _ >>= _ = entriesFrom tables _ _ >>= _
    rw [place]

theorem entriesFrom_read {position : Nat} {text : List Char} {entries : Message}
    (made : entriesFrom tables position text = .ok entries) :
    (Plain text ∧ entries = literal text) ∨
      ∃ run content after entry rest, text = run ++ tokenOf content ++ after ∧ Plain run ∧ Plain content ∧
        tokenEntry tables content (position + run.length) = .ok entry ∧
        entriesFrom tables (position + (run ++ tokenOf content).length) after = .ok rest ∧
        entries = literal run ++ entry :: rest := by
  rcases text_cases text with plain | ⟨run,after,plain,rfl⟩ | ⟨run,body,plain,rfl⟩
  · rw [entriesFrom_plain plain] at made
    exact .inl ⟨plain,(Except.ok.inj made).symm⟩
  · rw [entriesFrom_close plain] at made
    cases made
  · have opened := made
    rw [entriesFrom_open plain] at opened
    obtain ⟨⟨entry,after⟩,reading,_⟩ := bind_ok.mp opened
    obtain ⟨content,rfl,inside,meaning⟩ := token_split.mp reading
    rw [← tokenOf_body,entriesFrom_piece plain inside] at made
    obtain ⟨_,same,made⟩ := bind_ok.mp made
    obtain ⟨rest,later,made⟩ := bind_ok.mp made
    cases same.symm.trans meaning
    exact .inr ⟨run,content,after,entry,rest,(tokenOf_body _ _ _).symm,plain,inside,meaning,later,
      (Except.ok.inj made).symm⟩

theorem entriesFrom_scripted (consistent : tables.Consistent) {position : Nat} {text : List Char} {entries : Message}
    (made : entriesFrom tables position text = .ok entries) : Scripted tables text entries := by
  induction size : text.length using Nat.strongRecOn generalizing position text entries with
  | ind count ih =>
    rcases entriesFrom_read made with ⟨plain,rfl⟩ | ⟨run,content,after,entry,rest,rfl,plain,inside,meaning,further,rfl⟩
    · exact .ended plain
    · have shorter : after.length < count := size ▸ piece_shorter run content after
      exact .token plain inside ((tokenEntry_exact consistent).mp meaning) (ih _ shorter further rfl)

theorem scripted_entriesFrom (consistent : tables.Consistent) {text : List Char} {entries : Message}
    (scripted : Scripted tables text entries) (position : Nat) : entriesFrom tables position text = .ok entries := by
  induction scripted generalizing position with
  | ended plain => exact entriesFrom_plain plain
  | token plain inside meaning _ ih =>
    rw [entriesFrom_piece plain inside,(tokenEntry_exact consistent).mpr meaning]
    exact bind_ok.mpr ⟨_,rfl,bind_ok.mpr ⟨_,ih _,rfl⟩⟩

theorem parse_exact (consistent : tables.Consistent) {script : String} {entries : Message} :
    parse tables script = .ok entries ↔ Scripted tables script.toList entries :=
  ⟨entriesFrom_scripted consistent,fun scripted => scripted_entriesFrom consistent scripted 0⟩

end
end GameText.Script
