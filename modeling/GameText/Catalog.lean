import GameText.OrderedMap
import GameText.Wire.Decode

namespace GameText
open Wire

structure Catalog where
  messages : OrderedMap Int Bytes

namespace Catalog

def empty : Catalog := ⟨∅⟩

def maxId : Int := 0xFFFFFFFF

def refuse {α : Type} (cause : EncodingCause) : Except Fault α := .error (.encoding ⟨cause,none⟩)

def endsInTerminator (tables : TableSet) (data : Bytes) : Bool :=
  match data.getLast? with
  | none => false
  | some byte => (byte.toNat : Int) = tables.terminator

def refuseId {α : Type} (id : Int) : Except Fault α :=
  if Text.hasNumeral id then refuse (.idOutOfRange id) else .error (.value .numeralTooLong)

-- Only the number's range and the last byte are looked at.
def set (tables : TableSet) (catalog : Catalog) (id : Int) (data : Bytes) : Except Fault Catalog :=
  if id < 0 ∨ maxId < id then refuseId id
  else if endsInTerminator tables data then .ok ⟨catalog.messages.insert id data⟩
  else refuse (.notTerminated id data)

def ofMessages (tables : TableSet) (messages : OrderedMap Int Bytes) : Except Fault Catalog :=
  messages.toList.foldlM (fun catalog message => set tables catalog message.1 message.2) empty

def get (catalog : Catalog) (id : Int) : Except Fault Bytes :=
  match catalog.messages.get? id with
  | none => .error (.missingId id)
  | some data => .ok data

def contains (catalog : Catalog) (id : Int) : Bool := catalog.messages.contains id

def delete (catalog : Catalog) (id : Int) : Except Fault Catalog :=
  if catalog.contains id then .ok ⟨catalog.messages.erase id⟩ else .error (.missingId id)

def ids (catalog : Catalog) : List Int := catalog.messages.keys

def size (catalog : Catalog) : Nat := catalog.messages.size

def magic : Nat := 1
def headerSize : Nat := 8
def rowSize : Nat := 8

def word (data : Bytes) (offset : Nat) : Nat := Bytes.ofLittleEndian ((data.drop offset).take 4)

def wordBytes (value : Nat) : Bytes := Bytes.littleEndian 4 value

def tableEnd (count : Nat) : Nat := headerSize + count * rowSize

-- Messages may overlap, and rows may repeat a number: the last one wins.
def readRow (tables : TableSet) (file : Bytes) (count : Nat) (messages : OrderedMap Int Bytes)
    (index : Nat) : Except Fault (OrderedMap Int Bytes) :=
  let row := headerSize + index * rowSize
  let id := word file row
  let offset := word file (row + 4)
  if offset < tableEnd count ∨ file.length ≤ offset then fail (.offsetOutside id offset) row
  else do
    let after ← scan tables file offset
    .ok (messages.insert id (Bytes.slice file offset after))

def ofBytes (tables : TableSet) (file : Bytes) : Except Fault Catalog :=
  if file.length < headerSize then fail .noHeader 0
  else if word file 0 ≠ magic then fail (.badMagic (word file 0)) 0
  else
    let count := word file 4
    if file.length < tableEnd count then fail (.tableTooLong count) headerSize
    else do
      let messages ← (List.range count).foldlM (readRow tables file count) ∅
      .ok ⟨messages⟩

structure Layout where
  rows : Bytes
  blobs : Bytes
  offsets : List (Bytes × Nat)

def Layout.add (start : Nat) (layout : Layout) (message : Int × Bytes) : Layout :=
  match layout.offsets.lookup message.2 with
  | some offset =>
    { layout with rows := layout.rows ++ wordBytes message.1.toNat ++ wordBytes offset }
  | none =>
    let offset := start + layout.blobs.length
    ⟨layout.rows ++ wordBytes message.1.toNat ++ wordBytes offset,layout.blobs ++ message.2,
      layout.offsets ++ [(message.2,offset)]⟩

def layout (catalog : Catalog) : Layout :=
  catalog.messages.toList.foldl (Layout.add (tableEnd catalog.size)) ⟨[],[],[]⟩

def toBytes (catalog : Catalog) : Bytes :=
  wordBytes magic ++ wordBytes catalog.size ++ catalog.layout.rows ++ catalog.layout.blobs

-- Every place in the file can be said in four bytes.
def Fits (catalog : Catalog) : Prop := ∀ place ∈ catalog.layout.offsets, place.2 < 0x100000000

instance (catalog : Catalog) : Decidable catalog.Fits := List.decidableBAll _ _

def save (catalog : Catalog) : Except Fault Bytes :=
  if catalog.Fits then .ok catalog.toBytes else .error .offsetTooWide

def decode (tables : TableSet) (catalog : Catalog) (id : Int) : Except Fault (List Entry) := do
  let data ← catalog.get id
  Wire.decode tables data

def decodeAll (tables : TableSet) (catalog : Catalog) : Except Fault (List (Int × List Entry)) :=
  catalog.messages.toList.mapM fun message => do
    let entries ← Wire.decode tables message.2
    .ok (message.1,entries)

def encodeAll (tables : TableSet) (messages : OrderedMap Int (List Entry)) : Except Fault Catalog :=
  messages.toList.foldlM (fun catalog message => do
    let data ← Wire.encode tables message.2
    set tables catalog message.1 data) empty

inductive Change where
  | replaceByFile (file : Bytes)
  | replaceByMessages (messages : List (Int × Bytes))
  | replaceByEntries (messages : List (Int × List Entry))
  | set (id : Int) (data : Bytes)
  | setScript (id : Int) (script : String)
  | delete (id : Int)
  | reload

-- A failing operation has no catalog as its result: the old one stays.
def apply (tables : TableSet) (catalog : Catalog) : Change → Except Fault Catalog
  | .replaceByFile file => ofBytes tables file
  | .replaceByMessages messages => ofMessages tables (.ofList messages)
  | .replaceByEntries messages => encodeAll tables (.ofList messages)
  | .set id data => catalog.set tables id data
  | .setScript id script => do
    let entries ← Script.parse tables script
    let data ← Wire.encode tables entries
    catalog.set tables id data
  | .delete id => catalog.delete id
  | .reload => do
    let file ← catalog.save
    ofBytes tables file

end Catalog
end GameText
