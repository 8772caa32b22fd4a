import GameText.Text.Decimal

namespace GameText.Tool
open Text

-- The value of an option. A separator joined to an option is dropped: the option
-- is there, but its value is lost, and this is noticed only where it is needed.
inductive Value (α : Type) where
  | given (value : α)
  | lost
  deriving DecidableEq, Repr

def Value.get? {α : Type} : Value α → Option α
  | given value => some value
  | lost => none

inductive Task where
  | encode (script : String)
  | decode (hex : String)
  | list (catalog : String) (width : Value Int)
  | toDocument (catalog : String) (output : Value String)
  | toCatalog (document : String) (output : Value String)
  deriving DecidableEq, Repr

structure Invocation where
  task : Task
  tables : Option (Value String)
  skip : Bool
  deriving DecidableEq, Repr

inductive Stop where
  | help
  | misuse
  deriving DecidableEq, Repr

inductive TaskName where
  | encode | decode | list | toDocument | toCatalog
  deriving DecidableEq, Repr

def TaskName.all : List TaskName := [encode,decode,list,toDocument,toCatalog]

def TaskName.text : TaskName → String
  | encode => "encode"
  | decode => "decode"
  | list => "list"
  | toDocument => "export"
  | toCatalog => "import"

def TaskName.ofText? (text : String) : Option TaskName := all.find? fun name => name.text = text

inductive OptionName where
  | help | tables | skip | verbose | width | output
  deriving DecidableEq, Repr

def OptionName.takesValue : OptionName → Bool
  | tables | width | output => true
  | help | skip | verbose => false

abbrev Spellings := List (List Char × OptionName)

def helpSpellings : Spellings := [(['-','h'],.help),("--help".toList,.help)]

def sharedSpellings : Spellings :=
  helpSpellings ++ [("--tables".toList,.tables),("--skip-errors".toList,.skip),
    (['-','v'],.verbose),("--verbose".toList,.verbose)]

def TaskName.spellings : TaskName → Spellings
  | encode | decode => sharedSpellings
  | list => sharedSpellings ++ [("--width".toList,.width)]
  | toDocument | toCatalog => sharedSpellings ++ [(['-','o'],.output),("--output".toList,.output)]

inductive Shape where
  | plain
  | separator
  | named (option : OptionName) (long : Bool) (joined : Option (List Char))
  | unknown
  deriving DecidableEq, Repr

def isLong (text : List Char) : Bool := ['-','-'].isPrefixOf text

-- A numeral with a minus sign is no option, whatever its script; a final line
-- feed does not count.
def isNegativeNumber : List Char → Bool
  | '-' :: text =>
    let body := if text.getLast? = some '\n' then text.dropLast else text
    isDecimal body || (match body.dropWhile isDigit with
      | '.' :: rest => isDecimal rest
      | _ => false)
  | _ => false

def splitEquals (text : List Char) : List Char × Option (List Char) :=
  match text.dropWhile (· ≠ '=') with
  | [] => (text,none)
  | _ :: value => (text.takeWhile (· ≠ '='),some value)

def candidates (spellings : Spellings) (text : List Char) : List Shape :=
  if isLong text then
    let (word,joined) := splitEquals text
    (spellings.filter fun spelling => word.isPrefixOf spelling.1).map fun spelling =>
      .named spelling.2 true joined
  else
    (spellings.filter fun spelling => spelling.1 = text.take 2).map fun spelling =>
      .named spelling.2 false (some (text.drop 2))

def shape (spellings : Spellings) (text : List Char) : Except Stop Shape :=
  if text.head? ≠ some '-' then .ok .plain
  else match spellings.lookup text with
    | some option => .ok (.named option (isLong text) none)
    | none =>
      if text.length = 1 then .ok .plain
      else
        let (word,joined) := splitEquals text
        match joined, spellings.lookup word with
        | some joined, some option => .ok (.named option (isLong text) (some joined))
        | _, _ => match candidates spellings text with
          | [candidate] => .ok candidate
          | _ :: _ :: _ => .error .misuse
          | [] =>
            if isNegativeNumber text || text.contains ' ' then .ok .plain else .ok .unknown

structure Argument where
  shape : Shape
  text : String
  deriving DecidableEq, Repr

def shapes (spellings : Spellings) : List String → Except Stop (List Argument)
  | [] => .ok []
  | text :: rest =>
    if text = "--" then .ok (⟨.separator,text⟩ :: rest.map fun text => ⟨.plain,text⟩)
    else do
      let head ← shape spellings text.toList
      let tail ← shapes spellings rest
      .ok (⟨head,text⟩ :: tail)

structure Cluster where
  flags : List OptionName
  valued : Option (OptionName × Option String)
  deriving DecidableEq, Repr

-- A flag takes no value: the characters joined to the letter of a flag are the
-- letters of more options, and the first that has a value takes all that is
-- left, an equals sign included.
def cluster (spellings : Spellings) (option : OptionName) (long : Bool) :
    Option (List Char) → Except Stop Cluster
  | none =>
    if option.takesValue then .ok ⟨[],some (option,none)⟩ else .ok ⟨[option],none⟩
  | some text =>
    if option.takesValue then .ok ⟨[],some (option,some (String.ofList text))⟩
    else if long then .error .misuse
    else match text with
      | [] => .error .misuse
      | letter :: rest => match spellings.lookup ['-',letter] with
        | none => .error .misuse
        | some next => do
          let more ← cluster spellings next false (if rest.isEmpty then none else some rest)
          .ok { more with flags := option :: more.flags }
termination_by joined => (joined.map fun text => text.length + 1).getD 0
decreasing_by
  cases rest <;> simp

structure Choices where
  subject : Option String := none
  tables : Option (Value String) := none
  skip : Bool := false
  width : Value Int := .given 40
  output : Option (Value String) := none
  leftover : Bool := false

def Choices.flag (choices : Choices) : OptionName → Except Stop Choices
  | .help => .error .help
  | .skip => .ok { choices with skip := true }
  | _ => .ok choices

def Choices.value (choices : Choices) (option : OptionName) (text : String) : Except Stop Choices :=
  let value := if text = "--" then .lost else .given text
  match option with
  | .tables => .ok { choices with tables := some value }
  | .output => .ok { choices with output := some value }
  | .width => match value with
    | .lost => .ok { choices with width := .lost }
    | .given text => match readInteger text.toList with
      | none => .error .misuse
      | some width => .ok { choices with width := .given width }
  | _ => .ok choices

def Choices.take (choices : Choices) (found : Cluster) (rest : List Argument) :
    Except Stop (Choices × List Argument) := do
  match found.valued, rest with
  | none, _ => do
    let flagged ← found.flags.foldlM Choices.flag choices
    .ok (flagged,rest)
  | some (option,some text), _ => do
    let flagged ← found.flags.foldlM Choices.flag choices
    .ok (← flagged.value option text,rest)
  | some (option,none), ⟨.plain,text⟩ :: after => do
    let flagged ← found.flags.foldlM Choices.flag choices
    .ok (← flagged.value option text,after)
  | some (_,none), _ => .error .misuse

theorem take_rest {choices : Choices} {found : Cluster} {rest : List Argument}
    {result : Choices × List Argument} (taken : choices.take found rest = .ok result) :
    result.2.length ≤ rest.length := by
  obtain ⟨flags,valued⟩ := found
  unfold Choices.take at taken
  cases valued with
  | none =>
    simp only [bind,Except.bind] at taken
    split at taken
    · cases taken
    · cases taken; exact Nat.le_refl _
  | some pair =>
    obtain ⟨option,value⟩ := pair
    cases value with
    | some text =>
      simp only [bind,Except.bind] at taken
      split at taken
      · cases taken
      · split at taken
        · cases taken
        · cases taken; exact Nat.le_refl _
    | none =>
      cases rest with
      | nil => cases taken
      | cons head after =>
        obtain ⟨shape,text⟩ := head
        cases shape with
        | plain =>
          simp only [bind,Except.bind] at taken
          split at taken
          · cases taken
          · split at taken
            · cases taken
            · cases taken; simp
        | separator | named | unknown => cases taken

-- A separator directly after the subject belongs to it.
def skipSeparator : List Argument → List Argument
  | ⟨.separator,_⟩ :: rest => rest
  | rest => rest

theorem skipSeparator_length (rest : List Argument) :
    (skipSeparator rest).length ≤ rest.length := by
  unfold skipSeparator
  split <;> simp

def walk (spellings : Spellings) (choices : Choices) (arguments : List Argument) :
    Except Stop Choices :=
  match arguments with
  | [] => .ok choices
  | ⟨.unknown,_⟩ :: rest => walk spellings { choices with leftover := true } rest
  | ⟨.named option long joined,_⟩ :: rest =>
    match cluster spellings option long joined with
    | .error stop => .error stop
    | .ok found => match _taken : choices.take found rest with
      | .error stop => .error stop
      | .ok result => walk spellings result.1 result.2
  | ⟨.plain,text⟩ :: rest =>
    if choices.subject.isSome then walk spellings { choices with leftover := true } rest
    else walk spellings { choices with subject := some text } (skipSeparator rest)
  | ⟨.separator,_⟩ :: rest =>
    walk spellings { choices with leftover := choices.leftover || choices.subject.isSome } rest
termination_by arguments.length
decreasing_by
  · simp
  · have := take_rest _taken
    simp only [List.length_cons]
    omega
  · simp
  · have := skipSeparator_length rest
    simp only [List.length_cons]
    omega
  · simp

def TaskName.task (name : TaskName) (choices : Choices) (subject : String) : Except Stop Task :=
  match name, choices.output with
  | .encode, _ => .ok (.encode subject)
  | .decode, _ => .ok (.decode subject)
  | .list, _ => .ok (.list subject choices.width)
  | .toDocument, some output => .ok (.toDocument subject output)
  | .toCatalog, some output => .ok (.toCatalog subject output)
  | .toDocument, none | .toCatalog, none => .error .misuse

def readTask (name : TaskName) (texts : List String) (leftover : Bool) :
    Except Stop Invocation := do
  let arguments ← shapes name.spellings texts
  let choices ← walk name.spellings { leftover := leftover } arguments
  match choices.subject with
  | none => .error .misuse
  | some subject => do
    let task ← name.task choices subject
    if choices.leftover then .error .misuse else .ok ⟨task,choices.tables,choices.skip⟩

def findTask (leftover : Bool) : List Argument → Except Stop Invocation
  | [] => .error .misuse
  | ⟨.unknown,_⟩ :: rest => findTask true rest
  | ⟨.named option long joined,_⟩ :: _ =>
    match cluster helpSpellings option long joined with
    | .error stop => .error stop
    | .ok _ => .error .help
  | ⟨.separator,_⟩ :: _ => .error .misuse
  | ⟨.plain,text⟩ :: rest => match TaskName.ofText? text with
    | none => .error .misuse
    | some name => readTask name (rest.map Argument.text) leftover

def Invocation.read (texts : List String) : Except Stop Invocation := do
  let arguments ← shapes helpSpellings texts
  findTask false arguments

end GameText.Tool
