import GameText.Document
import GameText.Proofs.Script.Token
import GameText.Proofs.Wire.RoundTrip
import Mathlib.Algebra.Group.Int.Defs

namespace GameText.Document
open Outcome Text Xml

-- What the tree keeps of an entry. It has no place for a text that is empty, or
-- for the payload of a line break.
def kept? : Entry → Option Entry
  | .text content => if content = "" then none else some (.text content)
  | .lineBreak _ _ => some .newLine
  | entry => some entry

def kept (entries : List Entry) : List Entry := entries.filterMap kept?

-- What the tree asks of tables: arguments below the limit on numerals, whose widths are
-- integers, and no row under a fixed tag. Icons and line breaks are never written by their names.
structure Readable (tables : TableSet) : Prop where
  short : ∀ row ∈ tables.commands.rows, row.width ≤ 8
  whole : ∀ row ∈ tables.commands.rows, row.hasArgument = true → row.isWhole = true
  unshadowed : ∀ row ∈ tables.commands.rows, row.command ≠ .printIcon → row.command ≠ .newLine →
    ∀ tag ∈ [textTag,complexTag,iconTag,newLineTag], row.name ≠ some tag

-- An entry of the tables: its key is known, and its data fill the row's width. The
-- data of an icon are never written as a number.
def Fitting (tables : TableSet) : Entry → Prop
  | .complex key => tables.commands.isComplex key = true
  | .argument command data _ => command ≠ .printIcon →
      ∀ row, tables.commands.rowFor? command = some row → (data.length : Int) = row.width
  | _ => True

section
variable {tables : TableSet}

theorem nameOf_exact {index : Nat} {command : Command} {name : String} :
    nameOf tables index command = .ok name ↔
      ∃ row, tables.commands.rowFor? command = some row ∧ row.name = some name := by
  rw [← Option.bind_eq_some_iff,nameOf]
  constructor
  · intro found
    split at found
    · cases found
    · rename_i named
      cases found
      exact named
  · intro named
    simp only [named]

-- What an entry is written as, wherever it stands.
inductive Written (tables : TableSet) : Entry → Element → Prop where
  | text {content : String} (writable : content.toList.find? isUnwritable = none) :
      Written tables (.text content) ⟨textTag,[],some content,none,[]⟩
  | complex {key : String} : Written tables (.complex key) (.leaf complexTag [(valueName,key)])
  | lineBreak {strayText : Option String} {strayData : Option Bytes} :
      Written tables (.lineBreak strayText strayData) (.leaf newLineTag [])
  | bare {row : CommandRow} {name : String} {fits : row.command.isBare = true}
      (found : tables.commands.rowFor? row.command = some row) (named : row.name = some name) :
      Written tables (.bare row.command fits) (.leaf name [])
  | icon {data : Bytes} {name : String} {fits : Command.printIcon.payload = .data}
      (named : Script.iconName? tables data = some name) :
      Written tables (.argument .printIcon data fits) (.leaf iconTag [(valueName,name)])
  | argument {row : CommandRow} {data : Bytes} {name argument : String} {fits : row.command.payload = .data}
      (other : row.command ≠ .printIcon) (found : tables.commands.rowFor? row.command = some row)
      (named : row.name = some name) (shown : CommandRow.argumentText data = .ok argument) :
      Written tables (.argument row.command data fits) (.leaf name [(valueName,argument)])

theorem entryElement_exact {index : Nat} {entry : Entry} {element : Element} :
    entryElement tables index entry = .ok element ↔ Written tables entry element := by
  constructor
  · intro made
    cases entry with
    | text content =>
      rw [entryElement] at made
      split at made
      · cases made
      · rename_i writable
        cases made
        exact .text writable
    | complex key =>
      cases made
      exact .complex
    | lineBreak strayText strayData =>
      cases made
      exact .lineBreak
    | bare command fits =>
      obtain ⟨name,search,made⟩ := bind_ok.mp made
      cases made
      obtain ⟨row,found,named⟩ := nameOf_exact.mp search
      obtain ⟨_,rfl⟩ := CommandTable.rowFor_mem found
      exact .bare found named
    | argument command data fits =>
      rw [entryElement] at made
      split at made
      · rename_i icon
        subst icon
        split at made
        · cases made
        · rename_i name named
          cases made
          exact .icon named
      · rename_i other
        obtain ⟨name,search,made⟩ := bind_ok.mp made
        obtain ⟨argument,shown,made⟩ := bind_ok.mp made
        cases made
        obtain ⟨row,found,named⟩ := nameOf_exact.mp search
        obtain ⟨_,rfl⟩ := CommandTable.rowFor_mem found
        exact .argument other found named shown
  · intro written
    cases written with
    | text writable => rw [entryElement,writable]
    | complex => rfl
    | lineBreak => rfl
    | bare found named => exact bind_ok.mpr ⟨_,nameOf_exact.mpr ⟨_,found,named⟩,rfl⟩
    | icon named => simp only [entryElement,if_true,named]
    | argument other found named shown =>
      rw [entryElement,if_neg other]
      exact bind_ok.mpr ⟨_,nameOf_exact.mpr ⟨_,found,named⟩,bind_ok.mpr ⟨_,shown,rfl⟩⟩

theorem entryElementsFrom_cons {index : Nat} {entry : Entry} {rest : List Entry} {elements : List Element} :
    entryElementsFrom tables index (entry :: rest) = .ok elements ↔
      ∃ head tail, entryElement tables index entry = .ok head ∧
        entryElementsFrom tables (index + 1) rest = .ok tail ∧ elements = head :: tail := by
  simp [entryElementsFrom,@eq_comm _ elements]

theorem serialize_exact {id : Int} {entries : List Entry} {element : Element} :
    serialize tables id entries = .ok element ↔
      ∃ children, entryElementsFrom tables 0 entries = .ok children ∧
        element = ⟨messageTag,[(idName,intText id)],none,none,children⟩ := by
  simp [serialize,@eq_comm _ element]

theorem readEntries_cons {id : Int} {element : Element} {rest : List Element} {entries : List Entry} :
    readEntries tables id (element :: rest) = .ok entries ↔
      ∃ head tail, readEntry tables id element = .ok head ∧ readEntries tables id rest = .ok tail ∧
        entries = head.toList ++ tail := by
  simp [readEntries,@eq_comm _ entries]

theorem readEntry_newLine (id : Int) : readEntry tables id (.leaf newLineTag []) = .ok (some .newLine) := rfl

theorem readEntry_complex (id : Int) (attributes : List (String × String)) :
    readEntry tables id (.leaf complexTag attributes) = (readComplex tables id (.leaf complexTag attributes)).map some :=
  rfl

theorem readEntry_icon (id : Int) (attributes : List (String × String)) :
    readEntry tables id (.leaf iconTag attributes) = (readIcon tables id (.leaf iconTag attributes)).map some := rfl

theorem readEntry_command {id : Int} {element : Element} {entry : Entry}
    (other : ∀ tag ∈ [textTag,complexTag,iconTag,newLineTag], element.tag ≠ tag)
    (reading : readCommand tables id element = .ok entry) : readEntry tables id element = .ok (some entry) := by
  simp only [List.forall_mem_cons] at other
  rw [readEntry,if_neg other.1,if_neg other.2.2.2.1,if_neg other.2.1,if_neg other.2.2.1,reading]
  rfl

theorem readCommand_bare (consistent : tables.Consistent) {row : CommandRow} (member : row ∈ tables.commands.rows)
    {name : String} (named : row.name = some name) (fits : row.command.isBare = true) (id : Int) :
    readCommand tables id (.leaf name []) = .ok (.bare row.command fits) := by
  have bare := (consistent.commands.bare member).mp (Entry.payload_of_bare fits)
  simp only [readCommand,Element.leaf,consistent.commands.byName member named,bare]
  exact Entry.build_bare fits

theorem numeral_digits {data : Bytes} (short : data.length ≤ 8) :
    isDecimal (digits (CommandRow.argumentValue data)) = true ∧
      numeral (natText (CommandRow.argumentValue data)) = .ok (CommandRow.argumentValue data : Int) := by
  constructor
  · have filled : (digits (CommandRow.argumentValue data)).isEmpty = false :=
      List.isEmpty_eq_false_iff.mpr (digits_nonempty _)
    rw [isDecimal,filled,Bool.not_false,Bool.true_and,List.all_eq_true]
    exact fun c member => ascii_isDigit (digits_ascii _ c member)
  · rw [numeral,natText,String.toList_ofList,(Script.argument_numeral short).2]

theorem readCommand_argument (consistent : tables.Consistent) {row : CommandRow}
    (member : row ∈ tables.commands.rows) {name : String} (named : row.name = some name)
    (fits : row.command.payload = .data) (whole : row.isWhole = true) {data : Bytes}
    (width : (data.length : Int) = row.width) (short : data.length ≤ 8) (id : Int) :
    readCommand tables id (.leaf name [(valueName,natText (CommandRow.argumentValue data))]) =
      .ok (.argument row.command data fits) := by
  have has := (consistent.commands.payloads row member).2.mp fits
  have size : row.argumentSize = data.length := by
    unfold CommandRow.argumentSize
    omega
  have less := Bytes.ofLittleEndian_lt data
  have bound : CommandRow.argumentValue data ≤ row.maxArgument := by
    rw [CommandRow.maxArgument,size]
    exact Nat.le_sub_one_of_lt less
  obtain ⟨decimal,number⟩ := numeral_digits short
  have value : requiredValue id (.leaf name [(valueName,natText (CommandRow.argumentValue data))]) =
      .ok (natText (CommandRow.argumentValue data)) := rfl
  simp only [readCommand,Element.leaf,consistent.commands.byName member named,has,if_true]
  refine bind_ok.mpr ⟨_,value,?_⟩
  rw [natText,String.toList_ofList,if_pos decimal]
  refine bind_ok.mpr ⟨_,number,?_⟩
  rw [Script.argument_built fits has,if_pos whole,if_neg (by omega),if_pos (by omega),size,Int.toNat_natCast]
  simp only [CommandRow.argumentValue,Bytes.littleEndian_ofLittleEndian]

theorem readIcon_name (consistent : tables.Consistent) {data : Bytes} {name : String}
    (icon : Script.iconName? tables data = some name) (fits : Command.printIcon.payload = .data) (id : Int) :
    readIcon tables id (.leaf iconTag [(valueName,name)]) = .ok (.argument .printIcon data fits) := by
  match data,icon with
  | [byte],icon =>
    have place : tables.commands.icons[byte.toNat]? = some name := by
      simpa [Script.iconName?,CommandTable.iconName?] using icon
    have exact : Bytes.byteOf? (byte.toNat : Int) = some byte := Bytes.byteOf_exact.mpr rfl
    refine bind_ok.mpr ⟨name,rfl,?_⟩
    simp only [consistent.commands.iconId place,Entry.icon,exact]

theorem readEntry_written (consistent : tables.Consistent) (readable : Readable tables) {index : Nat} {entry : Entry}
    (fitting : Fitting tables entry) {element : Element} (written : entryElement tables index entry = .ok element)
    (id : Int) : readEntry tables id element = .ok (kept? entry) := by
  have unshadowed : ∀ {row : CommandRow} {name : String} {attributes : List (String × String)},
      row ∈ tables.commands.rows → row.name = some name → row.command ≠ .printIcon → row.command ≠ .newLine →
      ∀ tag ∈ [textTag,complexTag,iconTag,newLineTag], (Element.leaf name attributes).tag ≠ tag := by
    intro row name attributes member named icon line tag fixed same
    exact readable.unshadowed row member icon line tag fixed (named.trans (congrArg some same))
  cases entryElement_exact.mp written with
  | @text content _ =>
    rw [readEntry,if_pos rfl,kept?]
    by_cases empty : content = "" <;> simp [empty]
  | @complex key =>
    have known : tables.commands.isComplex key = true := fitting
    have reading : readComplex tables id (.leaf complexTag [(valueName,key)]) = .ok (.complex key) :=
      bind_ok.mpr ⟨key,rfl,by rw [if_pos known]; exact Entry.build_complex⟩
    rw [readEntry_complex,reading]
    rfl
  | lineBreak => exact readEntry_newLine id
  | @bare row name fits found named =>
    obtain ⟨member,_⟩ := CommandTable.rowFor_mem found
    have icon : row.command ≠ .printIcon := fun printed => by rw [printed] at fits; cases fits
    exact readEntry_command (unshadowed member named icon (of_decide_eq_true fits).2)
      (readCommand_bare consistent member named fits id)
  | icon named =>
    rw [readEntry_icon,readIcon_name consistent named _ id]
    rfl
  | @argument row data name argument fits other found named shown =>
    obtain ⟨member,_⟩ := CommandTable.rowFor_mem found
    have width := fitting other row found
    have short : data.length ≤ 8 := by
      have bound := readable.short row member
      omega
    have line : row.command ≠ .newLine := fun line => by rw [line] at fits; cases fits
    have whole := readable.whole row member ((consistent.commands.payloads row member).2.mp fits)
    cases Except.ok.inj ((Script.argumentText_short short).symm.trans shown)
    exact readEntry_command (unshadowed member named other line)
      (readCommand_argument consistent member named fits whole width short id)

theorem readEntries_written (consistent : tables.Consistent) (readable : Readable tables) {index : Nat}
    {entries : List Entry} (fitting : ∀ entry ∈ entries, Fitting tables entry) {elements : List Element}
    (written : entryElementsFrom tables index entries = .ok elements) (id : Int) :
    readEntries tables id elements = .ok (kept entries) := by
  induction entries generalizing index elements with
  | nil =>
    cases written
    rfl
  | cons entry rest ih =>
    obtain ⟨head,tail,first,others,rfl⟩ := entryElementsFrom_cons.mp written
    rw [List.forall_mem_cons] at fitting
    refine readEntries_cons.mpr
      ⟨_,_,readEntry_written consistent readable fitting.1 first id,ih fitting.2 others,?_⟩
    rw [kept,List.filterMap_cons]
    cases kept? entry <;> rfl

theorem readId_written {id : Int} (nonneg : 0 ≤ id) (small : id < 2 ^ 32) {element : Element}
    (given : element.get? idName = some (intText id)) : readId element = .ok id := by
  obtain ⟨n,rfl⟩ := Int.eq_ofNat_of_zero_le nonneg
  have text : intText n = natText n := by
    rw [intText,if_neg (by omega),Int.natAbs_natCast]
  have below : n < 10 ^ digitLimit := hasNumeral_exact.mp (hasNumeral_word nonneg small)
  have number := readInteger_digits below
  have ascii := digits_ascii n
  have bare : strip (digits n) = digits n := trim_solid fun c member => ascii_solid (ascii c member)
  have filled : (digits n).isEmpty = false := List.isEmpty_eq_false_iff.mpr (digits_nonempty n)
  have decimal : isDecimal (digits n) = true := by
    rw [isDecimal,filled,Bool.not_false,Bool.true_and,List.all_eq_true]
    exact fun c member => ascii_isDigit (ascii c member)
  simp only [readId,given,text,natText,String.toList_ofList,bare,if_pos decimal,numeral,number]

theorem deserialize_written (consistent : tables.Consistent) (readable : Readable tables) {id : Int}
    (nonneg : 0 ≤ id) (small : id < 2 ^ 32) {entries : List Entry}
    (fitting : ∀ entry ∈ entries, Fitting tables entry) {element : Element}
    (written : serialize tables id entries = .ok element) : deserialize tables element = .ok (id,kept entries) := by
  obtain ⟨children,made,rfl⟩ := serialize_exact.mp written
  exact bind_ok.mpr ⟨(),if_pos rfl,bind_ok.mpr ⟨id,readId_written nonneg small rfl,
    bind_ok.mpr ⟨_,readEntries_written consistent readable fitting made id,rfl⟩⟩⟩

end
end GameText.Document
