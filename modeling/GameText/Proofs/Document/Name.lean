import GameText.Proofs.Document.Fault
import GameText.Proofs.Script.Vocabulary

namespace GameText.Document
open Outcome Text Xml

-- The tags that are looked for before the names of the table.
def fixedTags : List String := [textTag,complexTag,iconTag,newLineTag]

-- The element of a command under its name; its argument is there if it has one.
def commandElement (name : String) (entry : Entry) : Element :=
  .leaf name (entry.data?.map fun data => (valueName,natText (CommandRow.argumentValue data))).toList

section
variable {tables : TableSet}

theorem readEntry_symbol (few : tables.commands.icons.length ≤ 256) {element : Element}
    (tag : element.tag = complexTag ∨ element.tag = iconTag) (id : Int) :
    (∃ error, readEntry tables id element = .error (.parse error)) ∨
      ∃ entry, readEntry tables id element = .ok (some entry) ∧
        (entry.command = .printComplex ∨ entry.command = .printIcon) := by
  have ended : ∀ {read : Except Fault Entry}, Fails (Breaks fun _ => False) read →
      (∀ {entry}, read = .ok entry → entry.command = .printComplex ∨ entry.command = .printIcon) →
      (∃ error, read.map some = .error (.parse error)) ∨
        ∃ entry, read.map some = .ok (some entry) ∧ (entry.command = .printComplex ∨ entry.command = .printIcon) := by
    intro read fails symbol
    cases read with
    | error fault =>
      rcases fails fault rfl with ⟨error,rfl⟩ | never
      · exact .inl ⟨error,rfl⟩
      · exact never.elim
    | ok entry => exact .inr ⟨entry,rfl,symbol rfl⟩
  rcases tag with complex | icon
  · have reading : readEntry tables id element = (readComplex tables id element).map some := by
      rw [readEntry,complex]
      rfl
    rw [reading]
    apply ended (readComplex_fails id element)
    intro entry read
    obtain ⟨key,_,read⟩ := bind_ok.mp read
    split at read
    · rw [Entry.build_complex] at read
      cases read
      exact .inl rfl
    · cases read
  · have reading : readEntry tables id element = (readIcon tables id element).map some := by
      rw [readEntry,icon]
      rfl
    rw [reading]
    apply ended (readIcon_fails few id element)
    intro entry read
    obtain ⟨name,_,read⟩ := bind_ok.mp read
    split at read
    · cases read
    · unfold Entry.icon at read
      split at read
      · cases read
      · cases read
        exact .inr rfl

theorem deserialize_single {id : Int} (nonneg : 0 ≤ id) (small : id < 2 ^ 32) (child : Element) :
    deserialize tables ⟨messageTag,[(idName,intText id)],none,none,[child]⟩ =
      (readEntry tables id child).map fun head => (id,head.toList) := by
  have number : readId ⟨messageTag,[(idName,intText id)],none,none,[child]⟩ = .ok id := readId_written nonneg small rfl
  have expected : expectTag messageTag ⟨messageTag,[(idName,intText id)],none,none,[child]⟩ = .ok () := if_pos rfl
  simp only [deserialize,expected,number,bind,Except.bind,readEntries]
  cases readEntry tables id child <;> simp

section
variable (loaded : tables.Loaded) {row : CommandRow} (member : row ∈ tables.commands.rows) {name : String}
  (named : row.name = some name) (line : row.command ≠ .newLine) {entry : Entry} (carries : row.Carries entry)
include loaded member named line carries

theorem entryElement_named (icon : row.command ≠ .printIcon) (index : Nat) :
    entryElement tables index entry = .ok (commandElement name entry) := by
  have consistent := loaded.accepted.consistent
  have found := consistent.commands.rowFor member
  apply entryElement_exact.mpr
  rcases carries.cases consistent member line with ⟨fits,rfl⟩ | ⟨data,fits,width,rfl⟩
  · exact .bare found named
  · exact .argument icon found named (Script.argumentText_short (loaded.formed.short member width))

theorem readCommand_named (whole : row.hasArgument = true → row.isWhole = true) (id : Int) :
    readCommand tables id (commandElement name entry) = .ok entry := by
  have consistent := loaded.accepted.consistent
  have full := carries.width
  rcases carries.cases consistent member line with ⟨fits,rfl⟩ | ⟨data,fits,width,rfl⟩
  · exact readCommand_bare consistent member named fits id
  · have has := (consistent.commands.payloads row member).2.mp fits
    exact readCommand_argument consistent member named fits (whole has) full (loaded.formed.short member width) id

theorem readEntry_unmeasured (free : name ∉ fixedTags) (has : row.hasArgument = true) (real : row.isWhole = false)
    (id : Int) : readEntry tables id (commandElement name entry) = .error .notAnInteger := by
  have consistent := loaded.accepted.consistent
  rcases carries.cases consistent member line with ⟨fits,rfl⟩ | ⟨data,fits,width,rfl⟩
  · cases ((consistent.commands.bare member).mp (Entry.payload_of_bare fits)).symm.trans has
  · have short := loaded.formed.short member width
    have few := Script.argument_digits short
    refine readEntry_unread consistent ⟨fun tag fixed same => ?_,consistent.commands.byName member named,has,rfl,?_,.real ?_ real⟩ id
    · change name = tag at same
      exact free (same ▸ fixed)
    · rw [natText,String.toList_ofList]
      exact (numeral_digits short).1
    · rwa [natText,String.toList_ofList]

theorem readEntry_named (icon : row.command ≠ .printIcon) (id : Int) :
    (name ∉ fixedTags → (row.hasArgument = true → row.isWhole = true) →
      readEntry tables id (commandElement name entry) = .ok (some entry)) ∧
    (name = textTag → readEntry tables id (commandElement name entry) = .ok none) ∧
    (name = newLineTag → readEntry tables id (commandElement name entry) = .ok (some .newLine)) ∧
    (name = complexTag ∨ name = iconTag →
      (∃ error, readEntry tables id (commandElement name entry) = .error (.parse error)) ∨
        ∃ other, readEntry tables id (commandElement name entry) = .ok (some other) ∧ other.command ≠ row.command) := by
  have textless := (loaded.accepted.consistent.commands.payloads row member).1
  refine ⟨fun free whole => ?_,?_,?_,fun tag => ?_⟩
  · apply readEntry_command
    · intro tag fixed same
      change name = tag at same
      exact free (same ▸ fixed)
    · exact readCommand_named loaded member named line carries whole id
  · rintro rfl
    rfl
  · rintro rfl
    rfl
  · refine (readEntry_symbol loaded.formed.few tag id).imp_right fun ⟨other,read,symbol⟩ => ⟨other,read,?_⟩
    intro same
    rcases symbol with complex | printed
    · exact textless (congrArg Command.payload (same.symm.trans complex))
    · exact icon (same.symm.trans printed)

-- A named command that is written comes back as itself where its name is no fixed tag and the
-- width of its argument is an integer. Under a fixed tag it is lost, or becomes a line break or
-- a symbol, or is refused; of a real width no argument is read.
theorem deserialize_named (icon : row.command ≠ .printIcon) {id : Int} (nonneg : 0 ≤ id) (small : id < 2 ^ 32) :
    ∃ element, serialize tables id [entry] = .ok element ∧
      (deserialize tables element = .ok (id,[entry]) ↔ name ∉ fixedTags ∧ (row.hasArgument = true → row.isWhole = true)) ∧
      (name ∉ fixedTags → row.hasArgument = true → row.isWhole = false → deserialize tables element = .error .notAnInteger) ∧
      (name = textTag → deserialize tables element = .ok (id,[])) ∧
      (name = newLineTag → deserialize tables element = .ok (id,[.newLine])) ∧
      (name = complexTag ∨ name = iconTag →
        (∃ error, deserialize tables element = .error (.parse error)) ∨
          ∃ other, deserialize tables element = .ok (id,[other]) ∧ other.command ≠ row.command) := by
  obtain ⟨free,text,broken,symbol⟩ := readEntry_named loaded member named line carries icon id
  have written : serialize tables id [entry] =
      .ok ⟨messageTag,[(idName,intText id)],none,none,[commandElement name entry]⟩ :=
    serialize_exact.mpr ⟨_,entryElementsFrom_cons.mpr
      ⟨_,[],entryElement_named loaded member named line carries icon 0,rfl,rfl⟩,rfl⟩
  refine ⟨_,written,?_⟩
  have unmeasured := fun free has real => readEntry_unmeasured loaded member named line carries free has real id
  rw [deserialize_single nonneg small]
  generalize readEntry tables id (commandElement name entry) = read at free text broken symbol unmeasured
  have halts : name ∉ fixedTags → row.hasArgument = true → row.isWhole = false →
      (read.map fun head => (id,head.toList)) = .error .notAnInteger := by
    intro other has real
    rw [unmeasured other has real]
    rfl
  refine ⟨⟨fun back => ?_,fun ⟨other,whole⟩ => by rw [free other whole]; rfl⟩,halts,fun tag => by rw [text tag]; rfl,
    fun tag => by rw [broken tag]; rfl,fun tag => ?_⟩
  · have spared : name ∉ fixedTags := by
      intro fixed
      have either : name = textTag ∨ (name = complexTag ∨ name = iconTag) ∨ name = newLineTag := by
        simpa [fixedTags,or_assoc] using fixed
      rcases either with tag | tag | tag
      · rw [text tag] at back
        cases back
      · rcases symbol tag with ⟨error,rfl⟩ | ⟨other,rfl,different⟩
        · cases back
        · cases back
          exact different carries.command
      · rw [broken tag] at back
        cases back
        exact line carries.command.symm
    refine ⟨spared,fun has => ?_⟩
    by_contra real
    cases (halts spared has (by simpa using real)).symm.trans back
  · rcases symbol tag with ⟨error,rfl⟩ | ⟨other,rfl,different⟩
    · exact .inl ⟨error,rfl⟩
    · exact .inr ⟨other,rfl,different⟩

end

theorem deserialize_named_sample : ∃ element,
    serialize TableSet.sample 7 [.argument .delay [0x00,0x02] rfl] = .ok element ∧
      deserialize TableSet.sample element = .ok (7,[.argument .delay [0x00,0x02] rfl]) := by
  have carries : CommandRow.Carries ⟨.delay,0x14,2,some "delay",.whole⟩ (.argument .delay [0x00,0x02] rfl) := ⟨rfl,rfl⟩
  obtain ⟨element,written,back,_⟩ := deserialize_named TableSet.sample_loaded (by decide) rfl (by decide) carries
    (by decide) (show 0 ≤ (7 : Int) by decide) (by decide)
  exact ⟨element,written,back.mpr ⟨by decide,fun _ => rfl⟩⟩

-- Tables in which a command has the tag of line breaks for its name.
def shadowed : TableSet where
  characters := ⟨"shadowed",[('a',[0x61])],[]⟩
  commands := ⟨"shadowed",0x00,
    [⟨.newLine,0x02,0,none,.whole⟩,⟨.reset,0x03,0,some "newline",.whole⟩,⟨.printIcon,0x09,1,none,.whole⟩],[],[],by decide⟩

def shadowedCharacters : CharacterSheet := ⟨"shadowed",[],[⟨0x61,"a"⟩],[]⟩

def shadowedCommands : CommandSheet :=
  ⟨"shadowed",0x00,[⟨"NEW_LINE",0x02,0,none,.whole⟩,⟨"RESET",0x03,0,some "newline",.whole⟩,⟨"PRINT_ICON",0x09,1,none,.whole⟩]⟩

def shadowedSymbols : SymbolSheet := ⟨"shadowed",[],[]⟩

theorem shadowed_loaded : shadowed.Loaded :=
  TableDirectory.written_loaded shadowedCharacters shadowedCommands shadowedSymbols
    (by decide +kernel) (by decide +kernel) (by decide +kernel) rfl

theorem deserialize_named_shadowed :
    ¬ ∀ tables : TableSet, tables.Loaded → ∀ row ∈ tables.commands.rows, ∀ name, row.name = some name →
      row.command ≠ .newLine → row.command ≠ .printIcon → ∀ entry, row.Carries entry → ∀ id : Int, 0 ≤ id →
        id < 2 ^ 32 → ∃ element, serialize tables id [entry] = .ok element ∧
          deserialize tables element = .ok (id,[entry]) := by
  intro law
  obtain ⟨element,written,back⟩ := law shadowed shadowed_loaded ⟨.reset,0x03,0,some "newline",.whole⟩ (by decide) "newline"
    rfl (by decide) (by decide) (.bare .reset rfl) ⟨rfl,rfl⟩ 7 (by decide) (by decide)
  have made : serialize shadowed 7 [.bare .reset rfl] =
      .ok ⟨messageTag,[(idName,intText 7)],none,none,[.leaf newLineTag []]⟩ := rfl
  cases made.symm.trans written
  rw [deserialize_single (by decide) (by decide),readEntry_newLine] at back
  cases back

end
end GameText.Document
