import GameText.Proofs.Catalog.Change
import GameText.Proofs.Wire.Trip

namespace GameText.Catalog
open Outcome Wire

-- Bytes of messages that come from the codec: entries it encoded, or a message of
-- a file that it read.
inductive Produced (tables : TableSet) : Bytes → Prop where
  | encoded {entries : List Entry} {bytes : Bytes} (made : encode tables entries = .ok bytes) : Produced tables bytes
  | read {file : Bytes} {catalog : Catalog} {id : Int} {bytes : Bytes} (reading : ofBytes tables file = .ok catalog)
      (member : (id,bytes) ∈ catalog.messages.toList) : Produced tables bytes

-- Changes whose bytes all come from the codec.
def Genuine (tables : TableSet) : Change → Prop
  | .replaceByMessages messages => ∀ message ∈ messages, Produced tables message.2
  | .set _ data => Produced tables data
  | _ => True

-- The catalogs of every history of such changes. One that fails is no step.
inductive Reached (tables : TableSet) : Catalog → Prop where
  | empty : Reached tables .empty
  | step {catalog next : Catalog} {change : Change} (path : Reached tables catalog)
      (genuine : Genuine tables change) (applied : apply tables catalog change = .ok next) : Reached tables next

section
variable {tables : TableSet}

theorem empty_sound : Sound tables .empty := List.forall_mem_nil _

theorem found_clear (advancing : Advancing tables) {file data : Bytes} (found : Found tables file data) :
    Clear tables data := by
  obtain ⟨offset,after,scanned,rfl⟩ := found
  obtain ⟨bytes,rest,split,clear,rfl⟩ := (scan_found advancing).mp scanned
  rw [slice_front split]
  exact clear

theorem ofBytes_clear (advancing : Advancing tables) {file : Bytes} {catalog : Catalog}
    (reading : ofBytes tables file = .ok catalog) : ∀ message ∈ catalog.messages.toList, Clear tables message.2 :=
  fun message member => found_clear advancing (ofBytes_found reading message member).2

theorem ofBytes_sound (advancing : Advancing tables) {file : Bytes} {catalog : Catalog}
    (reading : ofBytes tables file = .ok catalog) : Sound tables catalog := by
  intro message member
  obtain ⟨range,found⟩ := ofBytes_found reading message member
  exact ⟨range,(found_clear advancing found).extent⟩

theorem encode_extent (consistent : tables.Consistent) (delimited : Delimited tables) {entries : List Entry}
    {bytes : Bytes} (encoded : encode tables entries = .ok bytes) : Extent tables bytes :=
  stream_extent consistent delimited (stream_of_encode delimited.short encoded)

theorem produced_extent (consistent : tables.Consistent) (delimited : Delimited tables)
    (advancing : Advancing tables) {bytes : Bytes} (produced : Produced tables bytes) :
    Extent tables bytes := by
  cases produced with
  | encoded made => exact encode_extent consistent delimited made
  | read reading member => exact (ofBytes_sound advancing reading _ member).2

theorem genuine_given {change : Change} (genuine : Genuine tables change) :
    ∀ data ∈ change.given, Produced tables data := by
  cases change with
  | replaceByMessages messages =>
    intro data member
    obtain ⟨message,inside,rfl⟩ := List.mem_map.mp member
    exact genuine message inside
  | set id data => exact fun other member => List.mem_singleton.mp member ▸ genuine
  | _ => exact List.forall_mem_nil _

theorem apply_sound (consistent : tables.Consistent) (delimited : Delimited tables)
    (advancing : Advancing tables) {catalog next : Catalog} (sound : Sound tables catalog)
    {change : Change} (genuine : Genuine tables change) (applied : apply tables catalog change = .ok next) :
    Sound tables next := by
  intro message member
  rcases apply_left applied message member with old | ⟨range,source⟩
  · exact sound message old
  · refine ⟨range,?_⟩
    cases source with
    | given inside ends =>
      exact produced_extent consistent delimited advancing (genuine_given genuine _ inside)
    | encoded made ends => exact encode_extent consistent delimited made
    | found found => exact (found_clear advancing found).extent

theorem reached_sound (consistent : tables.Consistent) (delimited : Delimited tables)
    (advancing : Advancing tables) {catalog : Catalog} (reached : Reached tables catalog) :
    Sound tables catalog := by
  induction reached with
  | empty => exact empty_sound
  | step _ genuine applied ih => exact apply_sound consistent delimited advancing ih genuine applied

-- A catalog comes back from its file: the same numbers in the same order, with the
-- same bytes.
theorem ofBytes_toBytes (accepted : tables.Accepted) (forward : tables.commands.isForward = true)
    (delimited : Delimited tables) {catalog : Catalog} (reached : Reached tables catalog) (fits : catalog.Fits) :
    ofBytes tables catalog.toBytes = .ok catalog :=
  ofBytes_layout forward fits (reached_sound accepted.consistent delimited (forward_exact.mp forward).1 reached)

end

-- Two messages of the same bytes, and one whose argument holds the terminator.
def sample : Catalog := ⟨⟨[(9,[0x61,0x00]),(7,[0x14,0x00,0x02,0x00]),(3,[0x61,0x00])],by decide⟩⟩

theorem ofBytes_toBytes_sample :
    Reached TableSet.sample sample ∧ sample.Fits ∧ ofBytes TableSet.sample sample.toBytes = .ok sample := by
  have reached : Reached TableSet.sample sample := by
    have entries : Reached TableSet.sample
        ⟨⟨[(9,[0x61,0x00]),(5,[0x03,0x00]),(7,[0x14,0x00,0x02,0x00])],by decide⟩⟩ :=
      @Reached.step _ _ _ (.replaceByEntries
        [(9,[.text "a"]),(5,[.bare .reset rfl]),(7,[.argument .delay [0x00,0x02] rfl])]) .empty trivial rfl
    have deleted : Reached TableSet.sample ⟨⟨[(9,[0x61,0x00]),(7,[0x14,0x00,0x02,0x00])],by decide⟩⟩ :=
      @Reached.step _ _ _ (.delete 5) entries trivial rfl
    exact @Reached.step _ _ _ (.set 3 [0x61,0x00]) deleted (@Produced.encoded _ [.text "a"] _ rfl) rfl
  have fits : sample.Fits := by
    unfold Fits
    decide
  exact ⟨reached,fits,ofBytes_toBytes TableSet.sample_loaded.accepted rfl sample_delimited reached fits⟩

-- Tables with a row that sends a walk three bytes back.
def straying : TableSet where
  characters := ⟨"straying",[('a',[0x61])],[]⟩
  commands := ⟨"straying",0x00,
    [⟨.newLine,0x02,0,none,.whole⟩,⟨.reset,0x03,-3,some "reset",.whole⟩,⟨.theme,0x01,25,some "theme",.whole⟩,
     ⟨.printIcon,0x09,1,some "icon",.whole⟩],[],[],by decide⟩

-- Without forward rows a message in a file is not found as it was written: the reset sends the
-- walk back into the message before it, and it ends in front of the message that it began with.
-- And at the width 1.0 no walk goes over an argument.
theorem ofBytes_toBytes_straying :
    (¬ ∀ tables : TableSet, tables.Accepted → (∀ row ∈ tables.commands.rows, row.isWhole = true) → Delimited tables →
      ∀ catalog, Reached tables catalog → catalog.Fits → ofBytes tables catalog.toBytes = .ok catalog) ∧
    ¬ ∀ tables : TableSet, tables.Accepted → Advancing tables → Delimited tables →
      ∀ catalog, Reached tables catalog → catalog.Fits → ofBytes tables catalog.toBytes = .ok catalog := by
  constructor
  · intro law
    have accepted : straying.Accepted :=
      ⟨⟨.ofList [("a",[0x61])],[],rfl⟩,⟨straying.commands.rows,[],[],rfl⟩,rfl⟩
    have claimed := law straying accepted (by decide) ⟨by decide,by decide,by decide⟩
      ⟨⟨[(1,[0x61,0x00]),(2,[0x03,0x00])],by decide⟩⟩
      (@Reached.step _ _ _ (.replaceByEntries [(1,[.text "a"]),(2,[.bare .reset rfl])]) .empty trivial rfl)
      (by unfold Fits; decide)
    have found : (ofBytes straying (toBytes ⟨⟨[(1,[0x61,0x00]),(2,[0x03,0x00])],by decide⟩⟩)).map
        (fun catalog => catalog.messages.toList) = .ok [(1,[0x61,0x00]),(2,[])] := rfl
    rw [claimed] at found
    exact absurd (Except.ok.inj found) (by decide)
  · intro law
    have claimed := law TableSet.scaled TableSet.scaled_loaded.accepted (by decide) scaled_delimited
      ⟨⟨[(1,[0x0A,0x22,0x00])],by decide⟩⟩
      (@Reached.step _ _ _ (.replaceByEntries [(1,[.argument .textScale [0x22] rfl])]) .empty trivial rfl)
      (by unfold Fits; decide)
    have failed : ofBytes TableSet.scaled (toBytes ⟨⟨[(1,[0x0A,0x22,0x00])],by decide⟩⟩) = .error .notAnInteger := rfl
    cases failed.symm.trans claimed

end GameText.Catalog
