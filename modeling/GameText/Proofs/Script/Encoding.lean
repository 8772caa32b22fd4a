import GameText.Proofs.Script.Vocabulary
import GameText.Proofs.Wire.Flaw

namespace GameText.Script
open Outcome

section
variable (tables : TableSet)

-- What parsing makes: texts, known glyphs, commands with as much data as their row asks for,
-- and named icons, which are one byte whatever the row of icons asks for.
inductive Filled : Entry → Prop where
  | text {content : String} (plain : Plain content.toList) : Filled (.text content)
  | complex {key : String} (known : tables.commands.isComplex key = true) : Filled (.complex key)
  | command {row : CommandRow} {entry : Entry} (member : row ∈ tables.commands.rows) (carries : row.Carries entry) :
      Filled entry
  | icon {name : String} {byte : UInt8} (known : tables.commands.iconId? name = some byte.toNat) :
      Filled (.argument .printIcon [byte] rfl)

-- What can keep such an entry off the wire: a character without a code, or a named icon where
-- icons do not take one byte.
inductive Unfit : Entry → EncodingCause → Prop where
  | glyph {content : String} {c : Char} (first : content.toList.find? (Wire.isUnseen tables) = some c) :
      Unfit (.text content) (.noGlyph c)
  | icon {name : String} {byte : UInt8} {row : CommandRow} (known : tables.commands.iconId? name = some byte.toNat)
      (found : tables.commands.rowFor? .printIcon = some row) (other : row.width ≠ 1) :
      Unfit (.argument .printIcon [byte] rfl) (.wrongArgument .printIcon row.width [byte] row.form)

end

section
variable {tables : TableSet} (loaded : tables.Loaded)
include loaded

theorem bare_width {row : CommandRow} (member : row ∈ tables.commands.rows) (form : row.command.payload = .nothing) :
    row.width = 0 := by
  have none := (loaded.accepted.consistent.commands.bare member).mp form
  have range := (loaded.formed.rows row member).width
  simp only [CommandRow.hasArgument,decide_eq_false_iff_not] at none
  omega

theorem denoted_filled {content : List Char} {entry : Entry} (meaning : Denotes tables content entry) :
    Filled tables entry := by
  have consistent := loaded.accepted.consistent
  cases meaning with
  | complex _ known => exact .complex known
  | icon _ _ known => exact .icon known
  | lineBreak _ named command =>
    obtain ⟨member,_⟩ := CommandTable.byName_mem named
    exact .command member ⟨command.symm,(bare_width loaded member (by rw [command]; rfl)).symm⟩
  | bare _ named fits =>
    obtain ⟨member,_⟩ := CommandTable.byName_mem named
    exact .command member ⟨rfl,(bare_width loaded member (Entry.payload_of_bare fits)).symm⟩
  | @argument _ _ _ row value _ named fits =>
    obtain ⟨member,_⟩ := CommandTable.byName_mem named
    refine .command member ⟨rfl,?_⟩
    have range := (loaded.formed.rows row member).width
    change ((Bytes.littleEndian row.argumentSize value).length : Int) = row.width
    rw [Bytes.littleEndian_length,CommandRow.argumentSize]
    omega

theorem scripted_filled {text : List Char} {entries : Message} (scripted : Scripted tables text entries) :
    ∀ entry ∈ entries, Filled tables entry :=
  scripted_each (fun _ _ plain => .text plain) (fun _ _ meaning => denoted_filled loaded meaning) scripted

theorem filled_flawed {entry : Entry} (filled : Filled tables entry) {cause : EncodingCause} :
    Wire.Flawed tables entry cause ↔ Unfit tables entry cause := by
  have consistent := loaded.accepted.consistent
  constructor
  · intro flawed
    cases flawed with
    | glyph first => exact .glyph first
    | complex unknown =>
      cases filled with
      | complex known => simp [CommandTable.isComplex,unknown] at known
      | command member carries =>
        exact absurd (congrArg Command.payload carries.command).symm (consistent.commands.payloads _ member).1
    | bare absent =>
      cases filled with
      | command member carries => cases absent.symm.trans (carries.command ▸ consistent.commands.rowFor member)
    | argument absent =>
      cases filled with
      | command member carries => cases absent.symm.trans (carries.command ▸ consistent.commands.rowFor member)
      | icon =>
        obtain ⟨row,found⟩ := loaded.accepted.icon
        cases absent.symm.trans found
    | width found unfilled =>
      cases filled with
      | command member carries =>
        cases found.symm.trans (carries.command ▸ consistent.commands.rowFor member)
        exact absurd carries.width unfilled
      | icon known => exact .icon known found fun one => unfilled one.symm
  · intro unfit
    cases unfit with
    | glyph first => exact .glyph first
    | icon _ found other => exact .width found fun one => other one.symm

-- The entries of a script are encoded up to the first that is unfit. Where icons take one
-- byte, that is a text with a character that has no code.
theorem encode_parse {script : String} {entries : Message} (parsed : parse tables script = .ok entries) :
    (∀ entry ∈ entries, Filled tables entry) ∧
    (∀ fault, Wire.encode tables entries = .error fault ↔ ∃ front entry back cause,
      entries = front ++ entry :: back ∧ (∀ other ∈ front, ∀ cause, ¬ Unfit tables other cause) ∧
        Unfit tables entry cause ∧ fault = Wire.flaw cause front.length) ∧
    ((tables.commands.rowFor? .printIcon).map CommandRow.width = some 1 →
      ∀ fault, Wire.encode tables entries = .error fault → ∃ front content back c,
        entries = front ++ .text content :: back ∧ content.toList.find? (Wire.isUnseen tables) = some c ∧
          fault = Wire.flaw (.noGlyph c) front.length) := by
  have consistent := loaded.accepted.consistent
  have filled := scripted_filled loaded ((parse_exact consistent).mp parsed)
  have failures : ∀ fault, Wire.encode tables entries = .error fault ↔ ∃ front entry back cause,
      entries = front ++ entry :: back ∧ (∀ other ∈ front, ∀ cause, ¬ Unfit tables other cause) ∧
        Unfit tables entry cause ∧ fault = Wire.flaw cause front.length := by
    intro fault
    rw [Wire.encode,Wire.encodeFrom_error consistent]
    simp only [Nat.zero_add]
    refine exists_congr fun front => exists_congr fun entry => exists_congr fun back => exists_congr fun cause =>
      and_congr_right fun split => ?_
    rw [split,List.forall_mem_append,List.forall_mem_cons] at filled
    refine and_congr (forall₂_congr fun other member => forall_congr' fun cause => ?_)
      (and_congr_left' (filled_flawed loaded filled.2.1))
    exact not_congr (filled_flawed loaded (filled.1 other member))
  refine ⟨filled,failures,fun single fault failed => ?_⟩
  obtain ⟨front,entry,back,cause,split,_,unfit,same⟩ := (failures fault).mp failed
  cases unfit with
  | glyph first => exact ⟨front,_,back,_,split,first,same⟩
  | icon _ found other =>
    rw [found] at single
    exact absurd (Option.some.inj single) other

end

theorem encode_parse_sample :
    parse TableSet.sample "a\x7bitem-key\x7dü\x7b:delay 512\x7d" =
      .ok [.text "a",.argument .printIcon [0] rfl,.text "ü",.argument .delay [0x00,0x02] rfl] ∧
    Wire.encode TableSet.sample
        [.text "a",.argument .printIcon [0] rfl,.text "ü",.argument .delay [0x00,0x02] rfl] =
      .error (Wire.flaw (.noGlyph 'ü') 2) := by
  have parsed : parse TableSet.sample "a\x7bitem-key\x7dü\x7b:delay 512\x7d" =
      .ok [.text "a",.argument .printIcon [0] rfl,.text "ü",.argument .delay [0x00,0x02] rfl] := by decide +kernel
  obtain ⟨_,failures,_⟩ := encode_parse TableSet.sample_loaded parsed
  refine ⟨parsed,(failures _).mpr ⟨[.text "a",.argument .printIcon [0] rfl],.text "ü",
    [.argument .delay [0x00,0x02] rfl],.noGlyph 'ü',rfl,?_,.glyph (by decide),rfl⟩⟩
  refine List.forall_mem_cons.mpr ⟨fun cause unfit => ?_,List.forall_mem_singleton.mpr fun cause unfit => ?_⟩
  · cases unfit with
    | glyph first =>
      have seen : "a".toList.find? (Wire.isUnseen TableSet.sample) = none := by decide
      cases seen.symm.trans first
  · cases unfit with
    | icon _ found other =>
      cases found
      exact other rfl

-- Tables in which icons take two bytes.
def doubled : TableSet where
  characters := ⟨"doubled",[('a',[0x61])],[]⟩
  commands := ⟨"doubled",0x00,[⟨.newLine,0x02,0,none,.whole⟩,⟨.printIcon,0x09,2,some "icon",.whole⟩],[],["item-key"],by decide⟩

def doubledCharacters : CharacterSheet := ⟨"doubled",[],[⟨0x61,"a"⟩],[]⟩

def doubledCommands : CommandSheet :=
  ⟨"doubled",0x00,[⟨"NEW_LINE",0x02,0,none,.whole⟩,⟨"PRINT_ICON",0x09,2,some "icon",.whole⟩]⟩

def doubledSymbols : SymbolSheet := ⟨"doubled",[],["item-key"]⟩

theorem doubled_loaded : doubled.Loaded :=
  TableDirectory.written_loaded doubledCharacters doubledCommands doubledSymbols
    (by decide +kernel) (by decide +kernel) (by decide +kernel) rfl

theorem encode_parse_doubled :
    (¬ ∀ tables : TableSet, tables.Loaded → ∀ script entries, parse tables script = .ok entries →
      ∀ fault, Wire.encode tables entries = .error fault → ∃ c index, fault = Wire.flaw (.noGlyph c) index) ∧
    ¬ ∀ tables : TableSet, tables.Loaded → ∀ script entries, parse tables script = .ok entries →
      ∀ command data fits, .argument command data fits ∈ entries →
        ∃ row, tables.commands.rowFor? command = some row ∧ (data.length : Int) = row.width := by
  have parsed : parse doubled "{item-key}" = .ok [.argument .printIcon [0] rfl] := by decide +kernel
  constructor
  · intro law
    have failed : Wire.encode doubled [.argument .printIcon [0] rfl] =
        .error (Wire.flaw (.wrongArgument .printIcon 2 [0] .whole) 0) := rfl
    obtain ⟨c,index,same⟩ := law doubled doubled_loaded _ _ parsed _ failed
    cases same
  · intro law
    obtain ⟨row,found,width⟩ := law doubled doubled_loaded _ _ parsed .printIcon [0] rfl (List.mem_singleton.mpr rfl)
    cases found
    exact absurd width (by decide)

end GameText.Script
