import GameText.Entry
import GameText.Tables.Set

namespace GameText.Script
open Text

-- Scripts: literal text, commands such as `{:scale 34}` and symbols such as
-- `{VII}`. A failure anywhere is a failure of the whole script.
def isOpen (c : Char) : Bool := c = '\x7b'
def isClose (c : Char) : Bool := c = '\x7d'
def isBrace (c : Char) : Bool := isOpen c || isClose c

def isNameStart (c : Char) : Bool := ('A' ≤ c && c ≤ 'Z') || ('a' ≤ c && c ≤ 'z') || c = '_'
def isNameChar (c : Char) : Bool := isNameStart c || isAsciiDigit c

structure CommandToken where
  name : List Char
  argument : Option (List Char)
  deriving DecidableEq, Repr

def argument? (rest : List Char) : Option (Option (List Char)) :=
  let word := rest.dropWhile isBlank
  if word.isEmpty then some none
  else if (rest.takeWhile isBlank).isEmpty then none
  else if (word.dropWhile fun c => !isBlank c).all isBlank then
    some (some (word.takeWhile fun c => !isBlank c))
  else none

def commandToken? : List Char → Option CommandToken
  | [] => none
  | c :: rest =>
    if isNameStart c then
      (argument? (rest.dropWhile isNameChar)).map fun argument =>
        ⟨c :: rest.takeWhile isNameChar,argument⟩
    else none

def fail {α : Type} (cause : ParseCause) (position : Nat) (token : List Char) : Except Fault α :=
  .error (.parse ⟨cause,some position,some (String.ofList token)⟩)

def argumentEntry (row : CommandRow) (argument : List Char) (position : Nat) (token : List Char) :
    Except Fault Entry :=
  if argument.all isAsciiDigit then
    match readInteger argument with
    | none => .error (.value .numeralTooLong)
    | some value => do
      let bound ← row.argumentBound
      if bound < value then fail (.argumentTooLarge value row.width) position token
      else do
        let data ← row.argumentBytes value
        Entry.build row.command none (some data)
  else fail (.notDecimal (String.ofList argument)) position token

def commandEntry (tables : TableSet) (content : List Char) (position : Nat) (token : List Char) :
    Except Fault Entry :=
  match commandToken? content with
  | none => fail (.malformedCommand (String.ofList token)) position token
  | some command =>
    let name := String.ofList command.name
    match tables.commands.byName? name with
    | none => fail (.unknownCommand name) position token
    | some row =>
      if row.hasArgument then
        match command.argument with
        | none => fail (.needsArgument name) position token
        | some argument => argumentEntry row argument position token
      else match command.argument with
        | some _ => fail (.takesNoArgument name) position token
        | none => Entry.build row.command none none

-- Complex glyphs come before icons.
def symbolEntry (tables : TableSet) (content : List Char) (position : Nat) (token : List Char) :
    Except Fault Entry :=
  let key := String.ofList content
  if tables.commands.isComplex key then Entry.build .printComplex (some key) none
  else match tables.commands.iconId? key with
    | some id => Entry.icon id
    | none => fail (.unknownSymbol (String.ofList token)) position token

def tokenOf (content : List Char) : List Char := '\x7b' :: content ++ ['\x7d']

def tokenEntry (tables : TableSet) (content : List Char) (position : Nat) : Except Fault Entry :=
  match content with
  | ':' :: rest => commandEntry tables rest position (tokenOf content)
  | _ => symbolEntry tables content position (tokenOf content)

def literal (text : List Char) : List Entry :=
  if text.isEmpty then [] else [.text (String.ofList text)]

-- The whole text up to the first closing brace is looked at before a second opening brace in it.
def token (tables : TableSet) (position : Nat) (body : List Char) :
    Except Fault (Entry × List Char) :=
  let content := body.takeWhile fun c => !isClose c
  match body.dropWhile fun c => !isClose c with
  | [] => fail .unterminated position ('\x7b' :: body)
  | _ :: after => match content.findIdx? isOpen with
    | some nested => fail .nestedOpen (position + 1 + nested) (tokenOf content)
    | none => do
      let entry ← tokenEntry tables content position
      .ok (entry,after)

theorem token_shorter {tables : TableSet} {position : Nat} {body : List Char} {entry : Entry}
    {after : List Char} (read : token tables position body = .ok (entry,after)) :
    after.length < body.length := by
  have split := List.takeWhile_append_dropWhile (p := fun c => !isClose c) (l := body)
  unfold token at read
  cases found : body.dropWhile fun c => !isClose c with
  | nil => simp [found,fail] at read
  | cons close rest =>
    simp only [found] at read
    split at read
    · simp [fail] at read
    · cases made : tokenEntry tables (body.takeWhile fun c => !isClose c) position with
      | error fault => rw [made] at read; simp [bind,Except.bind] at read
      | ok value =>
        rw [made] at read
        simp only [bind,Except.bind,Except.ok.injEq,Prod.mk.injEq] at read
        rw [found] at split
        rw [← split,List.length_append,List.length_cons,read.2]
        omega

def entriesFrom (tables : TableSet) (position : Nat) (text : List Char) :
    Except Fault (List Entry) :=
  let run := text.takeWhile fun c => !isBrace c
  match _found : text.dropWhile fun c => !isBrace c with
  | [] => .ok (literal run)
  | brace :: body =>
    if isClose brace then fail .strayClose (position + run.length) ['\x7d']
    else match _read : token tables (position + run.length) body with
      | .error fault => .error fault
      | .ok (entry,after) => do
        let rest ← entriesFrom tables (position + (text.length - after.length)) after
        .ok (literal run ++ entry :: rest)
termination_by text.length
decreasing_by
  have split := List.takeWhile_append_dropWhile (p := fun c => !isBrace c) (l := text)
  have shorter := token_shorter _read
  rw [_found] at split
  rw [← split,List.length_append,List.length_cons]
  omega

def parse (tables : TableSet) (script : String) : Except Fault (List Entry) :=
  entriesFrom tables 0 script.toList

end GameText.Script
