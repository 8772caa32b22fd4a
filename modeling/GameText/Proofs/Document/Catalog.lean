import GameText.Proofs.Document.Fault
import GameText.Proofs.OrderedMap

namespace GameText.Document
open Outcome Text Xml

section
variable {tables : TableSet}

theorem addMessage_exact {messages next : OrderedMap Int (List Entry)} {element : Element} :
    addMessage tables messages element = .ok next ↔
      ∃ message, deserialize tables element = .ok message ∧ next.toList = messages.toList ++ [message] := by
  unfold addMessage
  rw [bind_ok]
  refine exists_congr fun message => and_congr_right fun _ => ?_
  obtain ⟨id,entries⟩ := message
  rw [OrderedMap.insert_exact]
  dsimp only
  split
  · rename_i present
    refine ⟨fun stored => ?_,fun facts => absurd present (by simp [facts.1])⟩
    cases stored
  · rename_i absent
    rw [Except.ok.injEq]
    exact ⟨fun same => ⟨by simpa using absent,same.symm⟩,fun facts => facts.2.symm⟩

theorem addMessages_exact {elements : List Element} {messages : OrderedMap Int (List Entry)} :
    elements.foldlM (addMessage tables) ∅ = .ok messages ↔
      List.Forall₂ (fun element message => deserialize tables element = .ok message) elements messages.toList := by
  have steps : ∀ before element after, addMessage tables before element = .ok after ↔ ∃ message,
      deserialize tables element = .ok message ∧ after.toList = before.toList ++ [message] :=
    fun _ _ _ => addMessage_exact
  refine (fold_each OrderedMap.toList_inj OrderedMap.front steps).trans ?_
  simp [EmptyCollection.emptyCollection,OrderedMap.empty]

theorem deserializeCatalog_exact {root : Element} {messages : OrderedMap Int (List Entry)} :
    deserializeCatalog tables root = .ok messages ↔ root.tag = catalogTag ∧
      List.Forall₂ (fun element message => deserialize tables element = .ok message) root.children messages.toList := by
  unfold deserializeCatalog
  rw [bind_ok,← addMessages_exact,← expectTag_ok]
  exact ⟨fun ⟨_,expected,added⟩ => ⟨expected,added⟩,fun ⟨expected,added⟩ => ⟨(),expected,added⟩⟩

end

-- A catalog that reading breaks off at: at one of its messages, behind messages that are
-- read and have different numbers.
inductive UnreadCatalog (tables : TableSet) (root : Element) (fault : Fault) : Prop where
  | message {front back : List Element} {element : Element} (read : OrderedMap Int (List Entry))
      (tag : root.tag = catalogTag) (split : root.children = front ++ element :: back)
      (each : List.Forall₂ (fun element message => deserialize tables element = .ok message) front read.toList)
      (unread : Unread tables element fault)

theorem UnreadCatalog.number {tables : TableSet} {root : Element} {fault : Fault} (unread : UnreadCatalog tables root fault) :
    fault.IsNumber := by
  cases unread with
  | message _ _ _ _ unread => exact unread.number

section
variable {tables : TableSet}

theorem addMessage_fails (consistent : tables.Consistent) (few : tables.commands.icons.length ≤ 256)
    (messages : OrderedMap Int (List Entry)) (element : Element) :
    Fails (Breaks (Unread tables element)) (addMessage tables messages element) := by
  apply (deserialize_fails consistent few element).bind
  intro message _
  obtain ⟨id,entries⟩ := message
  dsimp only
  split
  · exact fail_breaks _ _
  · exact .ok _

theorem deserializeCatalog_fails (consistent : tables.Consistent) (few : tables.commands.icons.length ≤ 256)
    (root : Element) : Fails (Breaks (UnreadCatalog tables root)) (deserializeCatalog tables root) := by
  intro fault failed
  rcases bind_error.mp failed with wrong | ⟨_,expected,failed⟩
  · exact expectTag_fails _ _ fault wrong
  · obtain ⟨front,element,back,messages,split,read,failed⟩ := fold_error.mp failed
    exact (addMessage_fails consistent few messages element fault failed).imp_right
      (.message messages (expectTag_ok.mp expected) split (addMessages_exact.mp read))

theorem deserializeCatalog_unread (consistent : tables.Consistent) {root : Element} {fault : Fault}
    (unread : UnreadCatalog tables root fault) : deserializeCatalog tables root = .error fault := by
  obtain ⟨messages,tag,split,each,unread⟩ := unread
  have stopped := fold_error.mpr ⟨_,_,_,messages,split,addMessages_exact.mpr each,
    bind_error.mpr (.inl (deserialize_unread consistent unread))⟩
  exact bind_error.mpr (.inr ⟨(),expectTag_ok.mpr tag,stopped⟩)

end

-- Reading gives a value or a parse failure, unless it breaks off.
structure Replies {α : Type} (unread : Fault → Prop) (result : Except Fault α) : Prop where
  broken : ∀ fault, result = .error fault ∧ ¬ fault.IsParse ↔ unread fault
  answered : (∃ value, result = .ok value) ∨ (∃ error, result = .error (.parse error)) ↔ ∀ fault, ¬ unread fault

theorem breaks_replies {α : Type} {unread : Fault → Prop} {result : Except Fault α} (fails : Fails (Breaks unread) result)
    (breaks : ∀ fault, unread fault → result = .error fault) (number : ∀ fault, unread fault → fault.IsNumber) :
    Replies unread result := by
  have broken : ∀ fault, result = .error fault ∧ ¬ fault.IsParse ↔ unread fault := by
    refine fun fault => ⟨fun ⟨failed,foreign⟩ => (fails fault failed).resolve_left foreign,fun unread => ⟨breaks fault unread,?_⟩⟩
    intro parse
    cases parse.codec.symm.trans (number fault unread).other
  refine ⟨broken,?_⟩
  simp only [← broken]
  cases result <;> simp [Fault.IsParse]

-- With loaded tables every tree is read, or refused with a parse failure, but for those that
-- come to a number beside an information separator, to one of too many digits, or to an argument
-- of a row whose width is a real number.
theorem reading_answers {tables : TableSet} (loaded : tables.Loaded) :
    (∀ element, Replies (Unread tables element) (deserialize tables element)) ∧
      ∀ root, Replies (UnreadCatalog tables root) (deserializeCatalog tables root) := by
  have consistent := loaded.accepted.consistent
  have few := loaded.formed.few
  exact ⟨fun element => breaks_replies (deserialize_fails consistent few element)
      (fun _ => deserialize_unread consistent) fun _ => Unread.number,
    fun root => breaks_replies (deserializeCatalog_fails consistent few root)
      (fun _ => deserializeCatalog_unread consistent) fun _ => UnreadCatalog.number⟩

-- A message with one command, whose argument has too many zeros.
def padded (name : String) : Element :=
  ⟨messageTag,[(idName,"1")],none,none,[.leaf name [(valueName,String.ofList Script.padding)]]⟩

theorem padded_unread {tables : TableSet} {name : String} {row : CommandRow}
    (named : tables.commands.byName? name = some row) (has : row.hasArgument = true)
    (command : ∀ tag ∈ [textTag,complexTag,iconTag,newLineTag], name ≠ tag) :
    Unread tables (padded name) (.value (.notANumeral (String.ofList Script.padding))) := by
  refine .entries rfl (show readId (padded name) = .ok 1 from rfl) (.here ⟨command,named,has,rfl,?_,.long ?_⟩)
  · rw [String.toList_ofList,isDecimal,Bool.and_eq_true,List.all_eq_true]
    exact ⟨rfl,fun c member => ascii_isDigit (Script.padding_ascii c member)⟩
  · rw [String.toList_ofList]
    exact Script.padding_long

-- A message with one command, whose row has the width 1.0.
def scaled : Element := ⟨messageTag,[(idName,"1")],none,none,[.leaf "scale" [(valueName,"34")]]⟩

theorem scaled_unread : Unread TableSet.scaled scaled .notAnInteger := by
  have argument : UnreadValue TableSet.scaled (.leaf "scale" [(valueName,"34")]) ⟨.textScale,0x0A,1,some "scale",.real⟩ "34"
      .notAnInteger := ⟨by decide,rfl,rfl,rfl,by decide +kernel,.real (by decide) rfl⟩
  exact .entries rfl (show readId scaled = .ok 1 from rfl) (.here argument)

theorem reading_answers_sample :
    (∃ fault, deserialize TableSet.sample (padded "delay") = .error fault) ∧
    (∃ fault, deserializeCatalog TableSet.sample
      (catalogElement [⟨messageTag,[(idName,"2")],none,none,[]⟩,padded "delay"]) = .error fault) ∧
    (∀ fault, ¬ Unread TableSet.sample ⟨messageTag,[(idName,"x")],none,none,[]⟩ fault) ∧
    deserialize TableSet.scaled scaled = .error .notAnInteger := by
  obtain ⟨messages,catalogs⟩ := reading_answers TableSet.sample_loaded
  have unread := @padded_unread TableSet.sample "delay" _ rfl rfl (by decide)
  have empty : deserialize TableSet.sample ⟨messageTag,[(idName,"2")],none,none,[]⟩ = .ok (2,[]) := by decide +kernel
  have catalog : UnreadCatalog TableSet.sample
      (catalogElement [⟨messageTag,[(idName,"2")],none,none,[]⟩,padded "delay"]) _ :=
    .message ⟨[(2,[])],by decide⟩ rfl (List.singleton_append).symm (.cons empty .nil) unread
  have real := (((reading_answers TableSet.scaled_loaded).1 scaled).broken _).mpr scaled_unread
  exact ⟨⟨_,(((messages _).broken _).mpr unread).1⟩,⟨_,(((catalogs _).broken _).mpr catalog).1⟩,
    (messages _).answered.mp (.inr ⟨_,rfl⟩),real.1⟩

theorem broken_unanswered {α : Type} {result : Except Fault α} {fault : Fault} (failed : result = .error fault)
    (number : fault.IsNumber) : ¬ ((∃ value, result = .ok value) ∨ ∃ error, result = .error (.parse error)) := by
  rintro (⟨_,given⟩ | ⟨_,refused⟩)
  · cases failed.symm.trans given
  · cases failed.symm.trans refused
    cases number

-- With the packaged tables a message and a catalog are refused in another way, for a small
-- argument behind zeros.
theorem reading_answers_packaged :
    (¬ ∀ tables : TableSet, tables.Loaded → ∀ element, (∃ message, deserialize tables element = .ok message) ∨
      ∃ error, deserialize tables element = .error (.parse error)) ∧
    ¬ ∀ tables : TableSet, tables.Loaded → ∀ root, (∃ messages, deserializeCatalog tables root = .ok messages) ∨
      ∃ error, deserializeCatalog tables root = .error (.parse error) := by
  have loaded : Packaged.set.Loaded := .packaged Packaged.tables_built
  have consistent := loaded.accepted.consistent
  obtain ⟨row,named,has⟩ : ∃ row, Packaged.set.commands.byName? "scale" = some row ∧ row.hasArgument = true :=
    ⟨_,rfl,rfl⟩
  have unread := padded_unread named has (by decide)
  constructor
  · intro law
    exact broken_unanswered (deserialize_unread consistent unread) unread.number (law Packaged.set loaded (padded "scale"))
  · intro law
    have catalog : UnreadCatalog Packaged.set (catalogElement [padded "scale"]) _ :=
      .message ∅ rfl (List.nil_append _).symm .nil unread
    exact broken_unanswered (deserializeCatalog_unread consistent catalog) catalog.number (law Packaged.set loaded _)

end GameText.Document
