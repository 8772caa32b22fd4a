import GameText.Proofs.Xml.Layout
import GameText.Xml.File

namespace GameText.Xml
open Script (Identifier)

-- What a document may hold as it stands: line ends are looked at before all else.
def Clean (text : List Char) : Prop := ∀ c ∈ text, isLegal c = true ∧ c ≠ '\r'

instance : DecidablePred Clean := fun text => List.decidableBAll _ text

theorem legal_visible {c : Char} (visible : 0x20 ≤ c.toNat ∧ c.toNat < 0x80) : isLegal c = true := by
  simp only [isLegal,Bool.or_eq_true,Bool.and_eq_true,decide_eq_true_eq]
  exact .inl (.inr (by omega))

theorem printed_clean {charset : Charset} (standard : charset.isStandard = true) {c : Char}
    (legal : isLegal c = true) : Clean (printed charset c) := by
  by_cases turn : c = '\r'
  · rw [turn,printed_reference standard]
    decide
  · simp only [printed,protectReturn,if_neg turn,List.flatMap_singleton,Charset.shown]
    split
    · intro d member
      rw [List.mem_singleton.mp member]
      exact ⟨legal,turn⟩
    · intro d member
      have marks : Clean ['&','#',';'] := by decide
      have cases : d = '&' ∨ d = '#' ∨ d ∈ Text.digits c.toNat ∨ d = ';' := by
        simpa [Charset.numbered] using member
      rcases cases with rfl | rfl | digit | rfl
      · exact marks _ (by decide)
      · exact marks _ (by decide)
      · have range := Text.ascii_range (Text.digits_ascii _ d digit)
        refine ⟨legal_visible (by omega),?_⟩
        rintro rfl
        exact absurd range (by decide)
      · exact marks _ (by decide)

def Legal (text : List Char) : Prop := ∀ c ∈ text, isLegal c = true

instance : DecidablePred Legal := fun text => List.decidableBAll _ text

theorem legal_append {left right : List Char} (first : Legal left) (second : Legal right) : Legal (left ++ right) :=
  fun c member => (List.mem_append.mp member).elim (first c) (second c)

theorem legal_identifier {word : List Char} (identifier : Identifier word) : Legal word := by
  intro c member
  have range := nameChar_range (identifier.chars c member)
  exact legal_visible (by omega)

theorem legal_attributes {attributes : List (String × String)} (simple : Simple attributes) :
    Legal (attributes.flatMap writtenAttribute) := by
  intro c member
  obtain ⟨pair,inside,part⟩ := List.mem_flatMap.mp member
  rw [writtenAttribute_solid (simple.values pair inside)] at part
  have value : Legal pair.2.toList := by
    intro d among
    have range := (solid_facts (simple.values pair inside d among)).1
    exact legal_visible (by omega)
  have whole : Legal ([' '] ++ (pair.1.toList ++ (['=','\x22'] ++ (pair.2.toList ++ ['\x22'])))) :=
    legal_append (by decide) (legal_append (legal_identifier (simple.names pair inside).1)
      (legal_append (by decide) (legal_append value (by decide))))
  exact whole c (by simpa using part)

theorem legal_textChar {c : Char} (legal : isLegal c = true) : Legal (textChar c) := by
  unfold textChar
  split
  · decide
  · split
    · decide
    · split
      · decide
      · intro d member
        rw [List.mem_singleton.mp member]
        exact legal

theorem legal_writtenText {text : Option String} (legal : LegalText text) : Legal (writtenText text) := by
  cases text with
  | none => exact List.forall_mem_nil _
  | some text =>
    intro c member
    obtain ⟨d,inside,part⟩ := List.mem_flatMap.mp member
    exact legal_textChar (legal d inside) c part

theorem legal_writtenAll {elements : List Element} (each : ∀ element ∈ elements, Legal (written element)) :
    Legal (writtenAll elements) := by
  induction elements with
  | nil => exact List.forall_mem_nil _
  | cons element rest ih =>
    rw [List.forall_mem_cons] at each
    exact legal_append each.1 (ih each.2)

theorem legal_written {element : Element} (regular : Regular element) : Legal (written element) := by
  induction regular with
  | @element tag attributes text tail children identifier simple inside behind inner ih =>
    have front : Legal ('<' :: tag.toList ++ attributes.flatMap writtenAttribute) :=
      legal_append (legal_append (show Legal ['<'] by decide) (legal_identifier identifier)) (legal_attributes simple)
    have back : Legal ('>' :: writtenText text ++ writtenAll children ++ "</".toList ++ tag.toList ++ ['>']) :=
      legal_append (legal_append (legal_append (legal_append
        (legal_append (show Legal ['>'] by decide) (legal_writtenText inside)) (legal_writtenAll ih)) (by decide))
          (legal_identifier identifier)) (by decide)
    rw [written]
    refine legal_append (legal_append front ?_) (legal_writtenText behind)
    split
    · decide
    · exact back

theorem clean_element {charset : Charset} (standard : charset.isStandard = true) {element : Element}
    (regular : Regular element) : Clean (elementPrinted charset element) := by
  intro c member
  obtain ⟨d,inside,part⟩ := List.mem_flatMap.mp member
  exact printed_clean standard (legal_written regular d inside) c part

theorem normalLines_clean {text : List Char} (clean : Clean text) : normalLines text = text := by
  induction text with
  | nil => rfl
  | cons c rest ih =>
    unfold Clean at clean
    rw [List.forall_mem_cons] at clean
    rw [normalLines,if_neg clean.1.2,ih clean.2]
    rintro tail rfl
    exact absurd rfl clean.1.2

theorem keyword_element {word : List Char} (identifier : Identifier word) {opening : String} {mark : Char}
    {more : List Char} (other : Script.isNameStart mark = false) (shape : opening.toList = '<' :: mark :: more)
    (rest : List Char) : keyword opening ('<' :: (word ++ rest)) = none := by
  cases word with
  | nil => exact absurd identifier id
  | cons head tail =>
    have differ : (mark == head) = false := by
      rw [beq_eq_false_iff_ne]
      rintro rfl
      exact absurd identifier.1 (by simp [other])
    simp [keyword,shape,List.isPrefixOf,differ]

theorem misc_element {blanks : List Char} (spaces : ∀ c ∈ blanks, isBlank c = true) (alphabet : Alphabet)
    {word : List Char} (identifier : Identifier word) (rest : List Char) :
    misc alphabet (blanks ++ '<' :: (word ++ rest)) = some ('<' :: (word ++ rest)) := by
  cases word with
  | nil => exact absurd identifier id
  | cons head tail =>
    have skipped : skipBlank (blanks ++ '<' :: (head :: tail ++ rest)) = '<' :: (head :: tail ++ rest) := by
      rw [skipBlank,List.dropWhile_append_of_pos spaces]
      rfl
    rw [misc,skipMisc,skipped]
    split
    · rename_i same
      cases (List.cons.inj (List.cons.inj same).2).1
      exact absurd identifier.1 (by decide)
    · rename_i same
      cases (List.cons.inj (List.cons.inj same).2).1
      exact absurd identifier.1 (by decide)
    · rfl

section
variable {charset : Charset} (standard : charset.isStandard = true) {blanks : List Char}
  (spaces : ∀ c ∈ blanks, c = '\n')
include standard spaces

theorem shown_document (element : Element) :
    (blanks ++ (written element).flatMap protectReturn).flatMap charset.shown =
      blanks ++ elementPrinted charset element := by
  have still : blanks.flatMap charset.shown = blanks := by
    refine (List.flatMap_congr fun c member => ?_).trans (List.flatMap_singleton' _)
    have single := @printed_ascii _ standard '\n' (by decide) (by decide)
    rw [spaces c member]
    simpa [printed,protectReturn] using single
  rw [List.flatMap_append,still,List.flatMap_assoc]
  rfl

theorem clean_document {element : Element} (regular : Regular element) :
    Clean (blanks ++ elementPrinted charset element) := by
  intro c member
  rcases List.mem_append.mp member with blank | inside
  · rw [spaces c blank]
    decide
  · exact clean_element standard regular c inside

end

theorem readText_element {encoding : Encoding} (standard : encoding.charset.isStandard = true) {blanks : List Char}
    (spaces : ∀ c ∈ blanks, c = '\n') {element : Element} (regular : Regular element) (last : element.tail = none)
    {size : Nat} {bytes : Bytes} (fits : bytes.length ≤ size) (standalone : Bool)
    (written : bytes = encoding.charset.encode (blanks ++ (written element).flatMap protectReturn)) :
    readText encoding standalone size bytes = .ok (settled element) := by
  have shown := shown_document standard spaces element
  have decoded : encoding.charset.decode bytes = some (blanks ++ elementPrinted encoding.charset element) := by
    rw [written,Charset.decode_encode standard,shown]
  have clean := clean_document standard spaces regular
  have legal : (blanks ++ elementPrinted encoding.charset element).all isLegal = true :=
    List.all_eq_true.mpr fun c member => (clean c member).1
  have blank : ∀ c ∈ blanks, isBlank c = true := by
    intro c member
    rw [spaces c member]
    decide
  have counted : encoding.charset.byteCount (blanks ++ elementPrinted encoding.charset element) ≤ size := by
    rw [← shown,Charset.byteCount_encode standard,← written]
    exact fits
  obtain ⟨rest,opens,events⟩ := @elementEvents_regular standalone
    ⟨encoding,size,false,blanks ++ elementPrinted encoding.charset element⟩ rfl _ standard element regular last
  have around := misc_element blank encoding.alphabet regular.named rest
  have plain : keyword "<!DOCTYPE" ('<' :: (element.tag.toList ++ rest)) = none :=
    @keyword_element _ regular.named _ '!' _ rfl rfl rest
  have events := events (@Room.rest _ _ (blanks ++ ['<']) _ (by
    rw [Room,← List.append_cons,← opens]
    simpa [Growth.start] using counted))
  have read : readDocument (Doctype.empty standalone
      ⟨encoding,size,false,blanks ++ '<' :: (element.tag.toList ++ rest)⟩)
        (blanks ++ '<' :: (element.tag.toList ++ rest)) = some (settled element) := by
    have around : misc (Doctype.empty standalone ⟨encoding,size,false,blanks ++ '<' :: (element.tag.toList ++ rest)⟩).alphabet
        (blanks ++ '<' :: (element.tag.toList ++ rest)) = some ('<' :: (element.tag.toList ++ rest)) := around
    have behind : ∀ alphabet, misc alphabet [] = some [] := fun _ => rfl
    rw [opens] at events
    simp only [readDocument,around,plain,Option.bind_eq_bind,Option.bind_some,events,behind,List.isEmpty_nil,if_true,
      build_root regular last]
  rw [opens] at decoded legal clean
  rw [readText,decoded]
  simp only [Option.bind_eq_bind,Option.bind_some,legal,if_true,normalLines_clean clean,read]

-- The declarations that name the encodings of written documents.
inductive Declared : String → Encoding → Prop where
  | utf8 : Declared "utf-8" ⟨.utf8,.common⟩
  | ascii : Declared "US-ASCII" ⟨.ascii,.common⟩
  | latin1 : Declared "iso-8859-1" ⟨.latin1,.western⟩

theorem Declared.facts {label : String} {encoding : Encoding} (declared : Declared label encoding) :
    encoding.charset.isStandard = true ∧ Charset.ofLabel? label = some encoding.charset ∧
      declaredEncoding label.toList = .ok encoding ∧ Unchanged (declarationLine label) := by
  cases declared <;> exact ⟨rfl,by decide +kernel,by decide +kernel,by decide⟩

theorem encode_unchanged {charset : Charset} (standard : charset.isStandard = true) {text : List Char}
    (unchanged : Unchanged text) : charset.encode text = text.map fun c => UInt8.ofNat c.toNat := by
  induction text with
  | nil => rfl
  | cons c rest ih =>
    unfold Unchanged at unchanged
    rw [List.forall_mem_cons] at unchanged
    have single : charset.encodeChar c = [UInt8.ofNat c.toNat] := by
      match charset,standard with
      | .utf8,_ => exact Charset.utf8EncodeChar_ascii unchanged.1.1
      | .ascii,_ => exact if_pos unchanged.1.1
      | .latin1,_ => exact if_pos (by omega)
    rw [Charset.encode,List.flatMap_cons,single]
    exact congrArg _ (ih unchanged.2)

theorem byteChar_unchanged {text : List Char} (unchanged : Unchanged text) :
    (text.map fun c => UInt8.ofNat c.toNat).map Charset.byteChar = text := by
  rw [List.map_map]
  refine (List.map_congr_left fun c member => ?_).trans (List.map_id _)
  have small := (unchanged c member).1
  exact Charset.byteChar_small (by omega)

theorem openingDeclaration_line {label : String} {encoding : Encoding} (declared : Declared label encoding)
    (rest : Bytes) :
    openingDeclaration ((declarationLine label).map (fun c => UInt8.ofNat c.toNat) ++ rest) =
      some (some (⟨some label.toList,false⟩,(declarationLine label).length - 1)) := by
  have chars := byteChar_unchanged declared.facts.2.2.2
  rw [openingDeclaration,List.map_append,chars]
  generalize rest.map Charset.byteChar = behind
  have steps : keyword "<?xml" (declarationLine label ++ behind) = some ((declarationLine label ++ behind).drop 5) ∧
      ((declarationLine label ++ behind).drop 5).head?.any isBlank = true ∧
      upToInstructionEnd ((declarationLine label ++ behind).drop 5) =
        some (" version='1.0' encoding='".toList ++ label.toList ++ ['\x27'],'\n' :: behind) ∧
      declarationItems (" version='1.0' encoding='".toList ++ label.toList ++ ['\x27']) =
        some ⟨some label.toList,false⟩ := by
    cases declared <;> exact ⟨rfl,rfl,rfl,by decide +kernel⟩
  obtain ⟨opens,spaced,ends,items⟩ := steps
  have length : (declarationLine label ++ behind).length - ('\n' :: behind).length = (declarationLine label).length - 1 := by
    rw [List.length_append,List.length_cons]
    omega
  simp only [opens,spaced,ends,items,Option.bind_eq_bind,Option.bind_some,length]
  rfl

theorem declarationLine_ends (label : String) :
    declarationLine label = ("<?xml version='1.0' encoding='".toList ++ label.toList ++ ['\x27','?','>']) ++ ['\n'] := by
  have close : "'?>\n".toList = ['\x27','?','>'] ++ ['\n'] := by decide
  unfold declarationLine
  generalize "<?xml version='1.0' encoding='".toList = front
  rw [close,List.append_assoc,List.append_assoc,List.append_assoc]

theorem read_declared {label : String} {encoding : Encoding} (declared : Declared label encoding) (text : List Char) :
    read (encoding.charset.encode (declarationLine label ++ text)) =
      readText encoding false (encoding.charset.encode (declarationLine label ++ text)).length
        (encoding.charset.encode ('\n' :: text)) := by
  obtain ⟨standard,_,labelled,unchanged⟩ := declared.facts
  have split : encoding.charset.encode (declarationLine label ++ text) =
      (declarationLine label).map (fun c => UInt8.ofNat c.toNat) ++ encoding.charset.encode text := by
    rw [← encode_unchanged standard unchanged]
    exact List.flatMap_append
  have dropped : (encoding.charset.encode (declarationLine label ++ text)).drop ((declarationLine label).length - 1) =
      encoding.charset.encode ('\n' :: text) := by
    have front := declarationLine_ends label
    generalize "<?xml version='1.0' encoding='".toList ++ label.toList ++ ['\x27','?','>'] = start at front
    have shape : encoding.charset.encode (declarationLine label ++ text) =
        encoding.charset.encode start ++ encoding.charset.encode ('\n' :: text) := by
      rw [front,List.append_assoc]
      exact List.flatMap_append
    have plain : Unchanged start := fun c member => unchanged c (by rw [front]; exact List.mem_append_left _ member)
    have length : (encoding.charset.encode start).length = (declarationLine label).length - 1 := by
      rw [encode_unchanged standard plain,List.length_map,front,List.length_append]
      rfl
    rw [shape,← length,List.drop_left]
  have bare : withoutMark (encoding.charset.encode (declarationLine label ++ text)) =
      encoding.charset.encode (declarationLine label ++ text) := by
    rw [split]
    rfl
  have opening : openingDeclaration (encoding.charset.encode (declarationLine label ++ text)) =
      some (some (⟨some label.toList,false⟩,(declarationLine label).length - 1)) := by
    rw [split,openingDeclaration_line declared]
  rw [read,bare]
  simp only [opening,labelled,dropped]
  rfl

section
variable {root : Element} (regular : Regular root) (last : root.tail = none) (pretty : Bool) (path : String)
include regular last

theorem load_save {label : String} {encoding : Encoding} (declared : Declared label encoding) :
    ∃ bytes again, save root label pretty = .ok bytes ∧ load path bytes = .ok again ∧ Shows root again := by
  obtain ⟨standard,named,_,_⟩ := declared.facts
  obtain ⟨regular,last⟩ := laidOut_regular regular last pretty
  refine ⟨encoding.charset.encode (declarationLine label ++ render root pretty),_,by rw [save,named],?_,
    shows_laidOut root pretty⟩
  have fits : (encoding.charset.encode ('\n' :: render root pretty)).length ≤
      (encoding.charset.encode (declarationLine label ++ render root pretty)).length := by
    rw [declarationLine_ends,List.append_assoc,Charset.encode,Charset.encode,List.flatMap_append,List.length_append]
    exact Nat.le_add_left _ _
  have whole := readText_element standard (show ∀ c ∈ ['\n'], c = '\n' from fun c => List.mem_singleton.mp) regular last
    fits false rfl
  rw [load,read_declared declared,whole]

theorem load_render :
    ∃ again, load path (Text.encodeUtf8 (render root pretty)) = .ok again ∧ Shows root again := by
  obtain ⟨regular,last⟩ := laidOut_regular regular last pretty
  refine ⟨_,?_,shows_laidOut root pretty⟩
  have whole : readText ⟨.utf8,.common⟩ false (Text.encodeUtf8 (render root pretty)).length
      (Text.encodeUtf8 (render root pretty)) = .ok (settled (laidOut root pretty)) :=
    @readText_element ⟨.utf8,.common⟩ rfl [] (List.forall_mem_nil _) _ regular last
      _ _ (Nat.le_refl _) false rfl
  have printed : render root pretty = elementPrinted .utf8 (laidOut root pretty) :=
    List.flatMap_congr fun c _ => (Charset.shown_utf8 (protectReturn c)).symm
  obtain ⟨rest,opens⟩ := @elementPrinted_opens .utf8 rfl _ regular
  have identifier := regular.named
  generalize (laidOut root pretty).tag.toList = word at opens identifier
  have unchanged : Unchanged ('<' :: word) :=
    unchanged_append (show Unchanged ['<'] by decide) (unchanged_identifier identifier)
  have bytes : Text.encodeUtf8 (render root pretty) =
      ('<' :: word).map (fun c => UInt8.ofNat c.toNat) ++ Text.encodeUtf8 rest := by
    have start := @encode_unchanged .utf8 rfl _ unchanged
    rw [printed,opens,← start,← List.cons_append]
    exact List.flatMap_append
  have bare : withoutMark (Text.encodeUtf8 (render root pretty)) = Text.encodeUtf8 (render root pretty) := by
    rw [bytes]
    rfl
  have opening : openingDeclaration (Text.encodeUtf8 (render root pretty)) = some none := by
    rw [bytes,openingDeclaration,List.map_append,byteChar_unchanged unchanged,List.cons_append,
      @keyword_element _ identifier _ '?' _ rfl rfl]
  rw [load,read,bare,opening]
  simp only [whole]

end
end GameText.Xml
