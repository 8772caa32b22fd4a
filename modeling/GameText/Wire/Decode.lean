import GameText.Script.Render
import GameText.Wire.Encode

namespace GameText.Wire

inductive Token where
  | glyph (c : Char)
  | entry (entry : Entry)
  deriving DecidableEq, Repr

def flush (run : List Char) : List Entry :=
  if run.isEmpty then [] else [.text (String.ofList run)]

def splitRun : List Token → List Char × List Entry
  | [] => ([],[])
  | .glyph c :: rest =>
    let (run,entries) := splitRun rest
    (c :: run,entries)
  | .entry entry :: rest =>
    let (run,entries) := splitRun rest
    ([],entry :: (flush run ++ entries))

def entriesOf (tokens : List Token) : List Entry :=
  let (run,entries) := splitRun tokens
  flush run ++ entries

def rowEntry (row : CommandRow) (argument : Bytes) : Except Fault Entry :=
  Entry.build row.command none (if row.hasArgument then some argument else none)

def codeToken (tables : TableSet) (position : Int) (code : Bytes) : Except Fault Token :=
  match tables.characters.decodeCode? code with
  | some c => .ok (.glyph c)
  | none => match tables.commands.complexKey? code with
    | none => fail (.unassignedGlyph code) position
    | some key => do
      let entry ← Entry.build .printComplex (some key) none
      .ok (.entry entry)

-- The terminator comes before the opcodes, and these before the glyph codes.
def tokensFrom (tables : TableSet) (position : Nat) : Bytes → Except Fault (List Token × Nat)
  | [] => fail (.missingTerminator .whole) position
  | head :: rest =>
    if (head.toNat : Int) = tables.terminator then .ok ([],position + 1)
    else match tables.commands.byOpcode? head.toNat with
      | some row =>
        if rest.length < row.argumentSize then fail (.truncatedArgument row.command head) position
        else do
          let entry ← rowEntry row (rest.take row.argumentSize)
          let (tokens,after) ← tokensFrom tables (position + 1 + row.argumentSize)
            (rest.drop row.argumentSize)
          .ok (.entry entry :: tokens,after)
      | none =>
        let more := tables.characters.codeLength head.toNat - 1
        let code := head :: rest.take more
        if rest.length < more then fail (.truncatedGlyph code) position
        else do
          let token ← codeToken tables position code
          let (tokens,after) ← tokensFrom tables (position + 1 + more) (rest.drop more)
          .ok (token :: tokens,after)
termination_by bytes => bytes.length
decreasing_by all_goals (simp only [List.length_drop,List.length_cons]; omega)

-- Behind a row of real width the reader stands at a real position, and no byte is
-- to be had there.
def strand {α : Type} (data : Bytes) (position : Int) : Except Fault α :=
  if data.length ≤ position then fail (.missingTerminator .real) position else .error .notAnInteger

-- A row of negative width sends the reader back, in the middle of tokens too, and perhaps to
-- positions before the data. It looks at whatever stands there.
inductive Turn where
  | ended (after : Int)
  | token (token : Token) (next : Int)
  deriving DecidableEq, Repr

def turn (tables : TableSet) (data : Bytes) (position : Int) : Except Fault Turn :=
  if data.length ≤ position then fail (.missingTerminator .whole) position
  else match Bytes.at? data position with
    | none => .error .outsideData
    | some head =>
      if (head.toNat : Int) = tables.terminator then .ok (.ended (position + 1))
      else match tables.commands.byOpcode? head.toNat with
        | some row =>
          let next := position + 1 + row.width
          if data.length < next then fail (.truncatedArgument row.command head) position
          else if row.isWhole then do
            let entry ← rowEntry row (Bytes.slice data (position + 1) next)
            .ok (.token (.entry entry) next)
          else if row.hasArgument then .error .notAnInteger
          else strand data next
        | none =>
          let next := position + tables.characters.codeLength head.toNat
          let code := Bytes.slice data position next
          if code.length < tables.characters.codeLength head.toNat then fail (.truncatedGlyph code) position
          else do
            let token ← codeToken tables position code
            .ok (.token token next)

def wander (tables : TableSet) (data : Bytes) : Nat → Int → Except Fault (List Token × Int)
  | 0, _ => .error .endless
  | turns + 1, position => do
    match ← turn tables data position with
    | .ended after => .ok ([],after)
    | .token token next => do
      let (tokens,after) ← wander tables data turns next
      .ok (token :: tokens,after)

-- There are two positions for each byte, and what follows depends on the
-- position alone: after one turn more a place has come back, and the reading
-- has no end.
def turns (data : Bytes) : Nat := 2 * data.length + 1

-- Forward tables are read once from left to right. A message starts at a byte of
-- the data or behind them: offsets that count from the end of the data are left out.
def tokensAt (tables : TableSet) (data : Bytes) (offset : Nat) : Except Fault (List Token × Int) :=
  if tables.commands.isForward then do
    let (tokens,after) ← tokensFrom tables offset (data.drop offset)
    .ok (tokens,after)
  else wander tables data (turns data) offset

def read (tables : TableSet) (data : Bytes) (offset : Nat) : Except Fault (List Entry × Int) := do
  let (tokens,after) ← tokensAt tables data offset
  .ok (entriesOf tokens,after)

def decode (tables : TableSet) (data : Bytes) : Except Fault (List Entry) :=
  (read tables data 0).map Prod.fst

def tokenLength (tables : TableSet) (head : UInt8) : Nat :=
  match tables.commands.byOpcode? head.toNat with
  | some row => 1 + row.argumentSize
  | none => tables.characters.codeLength head.toNat

theorem tokenLength_pos (tables : TableSet) (head : UInt8) : 0 < tokenLength tables head := by
  unfold tokenLength CharacterTable.codeLength
  split
  · omega
  · split <;> decide

-- A token may run over the end of the data; the position of the failure is then beyond it.
def scanFrom (tables : TableSet) (position : Nat) : Bytes → Except Fault Nat
  | [] => fail (.missingTerminator .whole) position
  | head :: rest =>
    if (head.toNat : Int) = tables.terminator then .ok (position + 1)
    else scanFrom tables (position + tokenLength tables head)
      (rest.drop (tokenLength tables head - 1))
termination_by bytes => bytes.length
decreasing_by
  have := tokenLength_pos tables head
  simp only [List.length_drop,List.length_cons]
  omega

def scanWander (tables : TableSet) (data : Bytes) : Nat → Int → Except Fault Int
  | 0, _ => .error .endless
  | turns + 1, position =>
    if data.length ≤ position then fail (.missingTerminator .whole) position
    else match Bytes.at? data position with
      | none => .error .outsideData
      | some head =>
        if (head.toNat : Int) = tables.terminator then .ok (position + 1)
        else match tables.commands.byOpcode? head.toNat with
          | some row =>
            if row.isWhole then scanWander tables data turns (position + 1 + row.width)
            else strand data (position + 1 + row.width)
          | none => scanWander tables data turns (position + tables.characters.codeLength head.toNat)

-- An offset counts from the start of the data here too.
def scan (tables : TableSet) (data : Bytes) (offset : Nat) : Except Fault Int :=
  if tables.commands.isForward then (scanFrom tables offset (data.drop offset)).map Int.ofNat
  else scanWander tables data (turns data) offset

def decodeText (tables : TableSet) (data : Bytes) : Except Fault String := do
  let entries ← decode tables data
  Script.serialize tables entries

end GameText.Wire
