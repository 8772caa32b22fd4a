import GameText.Proofs.Script.Spelling
import Mathlib.Data.List.Chain
import Mathlib.Data.List.Forall2

namespace GameText.Script
open Outcome Text

-- What a scan of a script finds: runs of literal text and tokens.
inductive Piece where
  | run (text : List Char)
  | token (content : List Char)
  deriving DecidableEq, Repr

namespace Piece

def isRun : Piece → Bool
  | run _ => true
  | token _ => false

def written : Piece → List Char
  | run text => text
  | token content => tokenOf content

def Formed : Piece → Prop
  | run text => text ≠ [] ∧ Plain text
  | token content => Plain content

-- The entry of a piece, by what the insides of tokens mean.
inductive Means (meaning : List Char → Entry → Prop) : Piece → Entry → Prop where
  | run (text : List Char) : Means meaning (.run text) (.text (String.ofList text))
  | token {content : List Char} {entry : Entry} (inside : meaning content entry) : Means meaning (.token content) entry

end Piece

-- A run is a piece unless it is empty.
def runPiece (text : List Char) : List Piece := if text.isEmpty then [] else [.run text]

-- A scanner that reads one character at a time, with the pieces that it has found.
inductive Scanner where
  | outside (pieces : List Piece) (run : List Char)
  | inside (pieces : List Piece) (content : List Char)

namespace Scanner

def start : Scanner := outside [] []

def step : Scanner → Char → Option Scanner
  | outside pieces run,c =>
    if isOpen c then some (inside (pieces ++ runPiece run) [])
    else if isClose c then none
    else some (outside pieces (run ++ [c]))
  | inside pieces content,c =>
    if isClose c then some (outside (pieces ++ [.token content]) [])
    else if isOpen c then none
    else some (inside pieces (content ++ [c]))

def finish : Scanner → Option (List Piece)
  | outside pieces run => some (pieces ++ runPiece run)
  | inside _ _ => none

end Scanner

def scan (text : List Char) : Option (List Piece) := text.foldlM Scanner.step .start >>= Scanner.finish

def written (pieces : List Piece) : List Char := pieces.flatMap Piece.written

-- Pieces with maximal runs.
structure Cut (pieces : List Piece) : Prop where
  formed : ∀ piece ∈ pieces, piece.Formed
  apart : pieces.IsChain fun one next => ¬ (one.isRun = true ∧ next.isRun = true)

theorem plain_snoc {run : List Char} {c : Char} (plain : Plain run) (unopened : ¬ isOpen c = true)
    (unclosed : ¬ isClose c = true) : Plain (run ++ [c]) :=
  List.forall_mem_append.mpr ⟨plain,List.forall_mem_singleton.mpr (by simp [isBrace,unopened,unclosed])⟩

theorem plain_step {c : Char} {run : List Char} (plain : Plain (c :: run)) :
    (isOpen c = false ∧ isClose c = false) ∧ Plain run := by
  obtain ⟨first,rest⟩ := List.forall_mem_cons.mp plain
  exact ⟨Bool.or_eq_false_iff.mp first,rest⟩

section
variable {pieces : List Piece}

theorem written_run (run : List Char) : written (runPiece run) = run := by
  cases run <;> simp [runPiece,written,Piece.written]

theorem written_append (one next : List Piece) : written (one ++ next) = written one ++ written next :=
  List.flatMap_append

theorem written_token (content : List Char) : written [.token content] = tokenOf content := by
  simp [written,Piece.written]

theorem Cut.append {one next : List Piece} (cut : Cut one) (more : Cut next)
    (seam : ∀ last ∈ one.getLast?, ∀ first ∈ next.head?, ¬ (last.isRun = true ∧ first.isRun = true)) :
    Cut (one ++ next) :=
  ⟨List.forall_mem_append.mpr ⟨cut.formed,more.formed⟩,List.isChain_append.mpr ⟨cut.apart,more.apart,seam⟩⟩

theorem Cut.nil : Cut [] := ⟨List.forall_mem_nil _,.nil⟩

theorem Cut.run (cut : Cut pieces) (ended : ∀ last ∈ pieces.getLast?, last.isRun = false) {run : List Char}
    (plain : Plain run) : Cut (pieces ++ runPiece run) := by
  unfold runPiece
  split
  · rwa [List.append_nil]
  · rename_i filled
    have one : Cut [.run run] := ⟨List.forall_mem_singleton.mpr ⟨by simpa using filled,plain⟩,List.isChain_singleton _⟩
    refine cut.append one fun last found _ _ both => ?_
    cases (ended last found).symm.trans both.1

theorem Cut.token (cut : Cut pieces) {content : List Char} (plain : Plain content) :
    Cut (pieces ++ [.token content]) := by
  refine cut.append ⟨List.forall_mem_singleton.mpr plain,List.isChain_singleton _⟩ ?_
  rintro _ _ first found ⟨_,run⟩
  cases found
  cases run

theorem token_last (pieces : List Piece) (content : List Char) :
    ∀ last ∈ (pieces ++ [Piece.token content]).getLast?, last.isRun = false := by
  intro last found
  rw [List.getLast?_concat] at found
  cases found
  rfl

namespace Scanner

def read : Scanner → List Char
  | outside pieces run => written pieces ++ run
  | inside pieces content => written pieces ++ '\x7b' :: content

-- Outside of a token the piece before the run is a token.
def Sound : Scanner → Prop
  | outside pieces run => Cut pieces ∧ Plain run ∧ ∀ last ∈ pieces.getLast?, last.isRun = false
  | inside pieces content => Cut pieces ∧ Plain content

theorem sound_step {state next : Scanner} {c : Char} (sound : state.Sound) (stepped : state.step c = some next) :
    next.Sound ∧ next.read = state.read ++ [c] := by
  cases state with
  | outside pieces run =>
    obtain ⟨cut,plain,ended⟩ := sound
    rw [step] at stepped
    split at stepped
    · rename_i opens
      cases stepped
      have same : c = '\x7b' := of_decide_eq_true opens
      exact ⟨⟨cut.run ended plain,List.forall_mem_nil _⟩,by simp [read,written_append,written_run,same]⟩
    · rename_i unopened
      split at stepped
      · cases stepped
      · rename_i unclosed
        cases stepped
        exact ⟨⟨cut,plain_snoc plain unopened unclosed,ended⟩,by simp [read]⟩
  | inside pieces content =>
    obtain ⟨cut,plain⟩ := sound
    rw [step] at stepped
    split at stepped
    · rename_i closes
      cases stepped
      have same : c = '\x7d' := of_decide_eq_true closes
      exact ⟨⟨cut.token plain,List.forall_mem_nil _,token_last _ _⟩,
        by simp [read,written_append,written_token,tokenOf,same]⟩
    · rename_i unclosed
      split at stepped
      · cases stepped
      · rename_i unopened
        cases stepped
        exact ⟨⟨cut,plain_snoc plain unopened unclosed⟩,by simp [read]⟩

theorem sound_run {state last : Scanner} {text : List Char} (sound : state.Sound)
    (ran : text.foldlM step state = some last) : last.Sound ∧ last.read = state.read ++ text := by
  induction text generalizing state with
  | nil =>
    cases ran
    exact ⟨sound,(List.append_nil _).symm⟩
  | cons c rest ih =>
    obtain ⟨next,stepped,more⟩ := Option.bind_eq_some_iff.mp ran
    obtain ⟨reached,here⟩ := sound_step sound stepped
    obtain ⟨final,all⟩ := ih reached more
    exact ⟨final,by rw [all,here,List.append_assoc,List.singleton_append]⟩

end Scanner

theorem scan_sound {text : List Char} (scanned : scan text = some pieces) : Cut pieces ∧ written pieces = text := by
  obtain ⟨last,ran,finished⟩ := Option.bind_eq_some_iff.mp scanned
  have start : Scanner.start.Sound := ⟨.nil,List.forall_mem_nil _,nofun⟩
  obtain ⟨sound,read⟩ := Scanner.sound_run start ran
  cases last with
  | outside found run =>
    cases finished
    obtain ⟨cut,plain,ended⟩ := sound
    exact ⟨cut.run ended plain,by rw [written_append,written_run]; exact read⟩
  | inside found content => cases finished

theorem Scanner.run_plain {more : List Char} (plain : Plain more) (run : List Char) :
    more.foldlM step (outside pieces run) = some (outside pieces (run ++ more)) := by
  induction more generalizing run with
  | nil => rw [List.append_nil]; rfl
  | cons c rest ih =>
    obtain ⟨⟨unopened,unclosed⟩,others⟩ := plain_step plain
    rw [List.foldlM_cons,step,if_neg (by simp [unopened]),if_neg (by simp [unclosed])]
    exact (ih others _).trans (by simp)

theorem Scanner.inside_plain {more : List Char} (plain : Plain more) (content : List Char) :
    more.foldlM step (inside pieces content) = some (inside pieces (content ++ more)) := by
  induction more generalizing content with
  | nil => rw [List.append_nil]; rfl
  | cons c rest ih =>
    obtain ⟨⟨unopened,unclosed⟩,others⟩ := plain_step plain
    rw [List.foldlM_cons,step,if_neg (by simp [unclosed]),if_neg (by simp [unopened])]
    exact (ih others _).trans (by simp)

theorem Scanner.run_token {content : List Char} (plain : Plain content) (run : List Char) :
    (tokenOf content).foldlM step (outside pieces run) =
      some (outside (pieces ++ runPiece run ++ [.token content]) []) := by
  rw [tokenOf,List.cons_append,List.foldlM_cons,step,if_pos (by decide)]
  change (content ++ ['\x7d']).foldlM step (inside (pieces ++ runPiece run) []) = _
  rw [List.foldlM_append,inside_plain plain]
  rfl

theorem Cut.tail {piece : Piece} {rest : List Piece} (cut : Cut (piece :: rest)) :
    Cut rest ∧ (piece.isRun = true → ∀ next ∈ rest.head?, next.isRun = false) := by
  obtain ⟨first,chain⟩ := List.isChain_cons.mp cut.apart
  refine ⟨⟨(List.forall_mem_cons.mp cut.formed).2,chain⟩,fun run next found => ?_⟩
  exact Bool.eq_false_iff.mpr fun other => first next found ⟨run,other⟩

theorem scan_behind (cut : Cut pieces) (found : List Piece) (run : List Char)
    (apart : run = [] ∨ ∀ first ∈ pieces.head?, first.isRun = false) :
    (written pieces).foldlM Scanner.step (.outside found run) >>= Scanner.finish =
      some (found ++ runPiece run ++ pieces) := by
  induction pieces generalizing found run with
  | nil => exact congrArg some (List.append_nil _).symm
  | cons piece rest ih =>
    obtain ⟨more,next⟩ := cut.tail
    have formed := cut.formed piece List.mem_cons_self
    cases piece with
    | run text =>
      obtain ⟨filled,plain⟩ := formed
      have empty : run = [] := apart.resolve_right fun none => nomatch none _ rfl
      subst empty
      have whole : runPiece text = [.run text] := if_neg (by simpa using filled)
      change (text ++ written rest).foldlM _ _ >>= _ = _
      rw [List.foldlM_append,Scanner.run_plain plain]
      refine (ih more found text (.inr (next rfl))).trans ?_
      rw [whole]
      simp [runPiece]
    | token content =>
      change (tokenOf content ++ written rest).foldlM _ _ >>= _ = _
      rw [List.foldlM_append,Scanner.run_token formed]
      refine (ih more _ [] (.inl rfl)).trans ?_
      simp [runPiece]

theorem scan_written (cut : Cut pieces) : scan (written pieces) = some pieces :=
  scan_behind cut [] [] (.inl rfl)

theorem scan_exact {text : List Char} : scan text = some pieces ↔ Cut pieces ∧ written pieces = text := by
  constructor
  · exact scan_sound
  · rintro ⟨cut,rfl⟩
    exact scan_written cut

end

section
variable {tables : TableSet}

theorem runPiece_means (meaning : List Char → Entry → Prop) (run : List Char) :
    List.Forall₂ (Piece.Means meaning) (runPiece run) (literal run) := by
  cases run with
  | nil => exact .nil
  | cons c rest => exact .cons (.run _) .nil

theorem scripted_pieces {text : List Char} {entries : Message} (scripted : Scripted tables text entries) :
    ∃ pieces, Cut pieces ∧ written pieces = text ∧ List.Forall₂ (Piece.Means (Denotes tables)) pieces entries := by
  induction scripted with
  | @ended run plain =>
    exact ⟨runPiece run,Cut.nil.run nofun plain,written_run run,runPiece_means _ run⟩
  | @token run content after entry entries plain inside meaning _ ih =>
    obtain ⟨pieces,cut,spelled,means⟩ := ih
    have front := (Cut.nil.run nofun plain).token inside
    refine ⟨runPiece run ++ [.token content] ++ pieces,front.append cut ?_,?_,?_⟩
    · rintro last found _ _ ⟨run,_⟩
      cases (token_last _ _ last found).symm.trans run
    · rw [written_append,written_append,written_run,written_token,spelled]
    · rw [List.append_assoc]
      exact List.rel_append (runPiece_means _ run) (.cons (.token meaning) means)

theorem pieces_scripted {pieces : List Piece} (cut : Cut pieces) {entries : Message}
    (means : List.Forall₂ (Piece.Means (Denotes tables)) pieces entries) {run : List Char} (plain : Plain run)
    (apart : run = [] ∨ ∀ first ∈ pieces.head?, first.isRun = false) :
    Scripted tables (run ++ written pieces) (literal run ++ entries) := by
  induction means generalizing run with
  | nil =>
    rw [List.append_nil]
    exact (List.append_nil run).symm ▸ .ended plain
  | @cons piece entry rest entries first _ ih =>
    obtain ⟨more,next⟩ := cut.tail
    have formed := cut.formed piece List.mem_cons_self
    cases first with
    | run text =>
      obtain ⟨filled,others⟩ := formed
      have empty : run = [] := apart.resolve_right fun none => nomatch none _ rfl
      subst empty
      have whole : literal text = [.text (String.ofList text)] := if_neg (by simpa using filled)
      have later := ih more others (.inr (next rfl))
      rwa [whole] at later
    | @token content _ inside =>
      have later := Scripted.token plain formed inside (ih more (List.forall_mem_nil _) (.inl rfl))
      simpa [written,Piece.written,literal] using later

theorem parse_pieces (consistent : tables.Consistent) {script : String} {entries : Message} :
    parse tables script = .ok entries ↔
      ∃ pieces, scan script.toList = some pieces ∧ List.Forall₂ (Piece.Means (Denotes tables)) pieces entries := by
  rw [parse_exact consistent]
  constructor
  · intro scripted
    obtain ⟨pieces,cut,spelled,means⟩ := scripted_pieces scripted
    exact ⟨pieces,scan_exact.mpr ⟨cut,spelled⟩,means⟩
  · rintro ⟨pieces,scanned,means⟩
    obtain ⟨cut,spelled⟩ := scan_exact.mp scanned
    have scripted := pieces_scripted cut means (List.forall_mem_nil _) (.inl rfl)
    rwa [spelled] at scripted

theorem means_apart {meaning : List Char → Entry → Prop}
    (textless : ∀ content entry, meaning content entry → entry.command ≠ .printText) {pieces : List Piece}
    {entries : Message} (means : List.Forall₂ (Piece.Means meaning) pieces entries)
    (apart : pieces.IsChain fun one next => ¬ (one.isRun = true ∧ next.isRun = true)) :
    entries.IsChain fun one next => ¬ (one.command = .printText ∧ next.command = .printText) := by
  have run : ∀ {piece entry}, Piece.Means meaning piece entry → entry.command = .printText → piece.isRun = true := by
    rintro _ _ (text | inside) shown
    · rfl
    · exact absurd shown (textless _ _ inside)
  induction means with
  | nil => exact .nil
  | cons first more ih =>
    cases more with
    | nil => exact .singleton _
    | cons second later =>
      rw [List.isChain_cons_cons] at apart ⊢
      exact ⟨fun both => apart.1 ⟨run first both.1,run second both.2⟩,ih apart.2⟩

theorem means_imp {one other : List Char → Entry → Prop} {pieces : List Piece} {entries : Message}
    (means : List.Forall₂ (Piece.Means one) pieces entries)
    (imp : ∀ content, .token content ∈ pieces → ∀ entry, one content entry → other content entry) :
    List.Forall₂ (Piece.Means other) pieces entries := by
  induction means with
  | nil => exact .nil
  | cons first _ ih =>
    refine .cons ?_ (ih fun content member => imp content (List.mem_cons_of_mem _ member))
    cases first with
    | run text => exact .run text
    | token inside => exact .token (imp _ List.mem_cons_self _ inside)

theorem means_token {meaning : List Char → Entry → Prop} {pieces : List Piece} {entries : Message}
    (means : List.Forall₂ (Piece.Means meaning) pieces entries) {content : List Char} (member : .token content ∈ pieces) :
    ∃ entry, meaning content entry := by
  induction means with
  | nil => cases member
  | cons first _ ih =>
    rcases List.mem_cons.mp member with same | later
    · subst same
      cases first with
      | token inside => exact ⟨_,inside⟩
    · exact ih later

theorem denotes_textless {content : List Char} {entry : Entry} (meaning : Denotes tables content entry) :
    entry.command ≠ .printText := by
  intro shown
  obtain ⟨text,rfl⟩ := Entry.text_of_command shown
  cases meaning

end

theorem brief_short {content : List Char} (short : content.length ≤ digitLimit) : Brief content := by
  intro name word spelled
  cases spelled with
  | argument =>
    simp only [List.length_cons,List.length_append] at short
    omega

theorem brief_pieces {text : List Char} (short : text.length ≤ digitLimit) {pieces : List Piece}
    (scanned : scan text = some pieces) {content : List Char} (member : .token content ∈ pieces) : Brief content := by
  obtain ⟨_,spelled⟩ := scan_sound scanned
  have inside : tokenOf content <:+: text := spelled ▸ List.infix_of_mem_flatten (List.mem_map_of_mem member)
  have size := inside.length_le
  rw [tokenOf,List.length_append,List.length_cons] at size
  exact brief_short (by omega)

-- In tables from files a script is parsed exactly if the scanner accepts it, each token stands
-- for something by its spelling, and no argument belongs to a row whose width is a real number;
-- and then into the entries of the pieces in order. Only numerals beyond the limit are left out.
theorem parse_scanned {tables : TableSet} (loaded : tables.Loaded) {script : String}
    (brief : ∀ pieces, scan script.toList = some pieces → ∀ content, .token content ∈ pieces → Brief content) :
    (∀ entries, parse tables script = .ok entries ↔
      ∃ pieces, scan script.toList = some pieces ∧ List.Forall₂ (Piece.Means (Resolves tables)) pieces entries ∧
        ∀ content, .token content ∈ pieces → Measured tables content) ∧
    (∀ pieces, scan script.toList = some pieces → written pieces = script.toList ∧ Cut pieces) ∧
    ∀ entries, parse tables script = .ok entries → .text "" ∉ entries ∧
      entries.IsChain fun one next => ¬ (one.command = .printText ∧ next.command = .printText) := by
  have consistent := loaded.accepted.consistent
  refine ⟨fun entries => ?_,fun pieces scanned => (scan_sound scanned).symm,fun entries parsed => ⟨?_,?_⟩⟩
  · rw [parse_pieces consistent]
    constructor
    · rintro ⟨pieces,scanned,means⟩
      have exact := fun content member entry => (@denotes_exact tables content loaded (brief pieces scanned content member) entry).mp
      exact ⟨pieces,scanned,means_imp means fun content member entry meaning => (exact content member entry meaning).1,
        fun content member => (means_token means member).elim fun entry meaning => (exact content member entry meaning).2⟩
    · rintro ⟨pieces,scanned,means,measured⟩
      exact ⟨pieces,scanned,means_imp means fun content member entry meaning =>
        (denotes_exact loaded (brief pieces scanned content member)).mpr ⟨meaning,measured content member⟩⟩
  · intro empty
    have filled := @scripted_each tables (· ≠ .text "") (fun content filled _ same => filled (Entry.text.inj same))
      (fun content entry meaning same => denotes_textless meaning (same ▸ rfl)) _ _ ((parse_exact consistent).mp parsed)
    exact filled _ empty rfl
  · obtain ⟨pieces,scanned,means⟩ := (parse_pieces consistent).mp parsed
    exact means_apart (fun _ _ => denotes_textless) means (scan_sound scanned).1.apart

theorem parse_scanned_sample :
    (∀ pieces, scan "a\x7bVII\x7d\x7b:delay  0300 \x7dé".toList = some pieces →
      ∀ content, .token content ∈ pieces → Brief content) ∧
    ∃ pieces, scan "a\x7bVII\x7d\x7b:delay  0300 \x7dé".toList = some pieces ∧
      List.Forall₂ (Piece.Means (Resolves TableSet.sample)) pieces
        [.text "a",.complex "VII",.argument .delay [0x2C,0x01] rfl,.text "é"] := by
  have brief : ∀ pieces, scan "a\x7bVII\x7d\x7b:delay  0300 \x7dé".toList = some pieces →
      ∀ content, .token content ∈ pieces → Brief content := fun _ scanned _ =>
    brief_pieces (by decide) scanned
  have parsed : parse TableSet.sample "a\x7bVII\x7d\x7b:delay  0300 \x7dé" =
      .ok [.text "a",.complex "VII",.argument .delay [0x2C,0x01] rfl,.text "é"] := by decide +kernel
  obtain ⟨pieces,scanned,means,_⟩ := ((parse_scanned TableSet.sample_loaded brief).1 _).mp parsed
  exact ⟨brief,pieces,scanned,means⟩

-- A width that is held as a real number measures nothing: the scanner accepts the command, and
-- the parser refuses to compare its argument.
theorem parse_scanned_scaled :
    ¬ ∀ tables : TableSet, tables.Loaded → ∀ script : String,
      (∀ pieces, scan script.toList = some pieces → ∀ content, .token content ∈ pieces → Brief content) →
        ∀ pieces entries, scan script.toList = some pieces →
          List.Forall₂ (Piece.Means (Resolves tables)) pieces entries → parse tables script = .ok entries := by
  intro law
  have scanned : scan "\x7b:scale 34\x7d".toList = some [.token ":scale 34".toList] := by decide +kernel
  have spelled : Spells ":scale 34".toList "scale".toList (some "34".toList) :=
    (spells_argument (List.all_eq_true.mp (by decide +kernel))).mp (by decide +kernel)
  have stands : Resolves TableSet.scaled ":scale 34".toList (.argument .textScale [34] rfl) :=
    .argument spelled (by decide : (⟨.textScale,0x0A,1,some "scale",.real⟩ : CommandRow) ∈ _) rfl (by decide) (by decide +kernel)
      ⟨rfl,rfl,rfl⟩
  have claimed := law TableSet.scaled TableSet.scaled_loaded "\x7b:scale 34\x7d" (fun _ found _ =>
    brief_pieces (by decide) found) _ [.argument .textScale [34] rfl] scanned (.cons (.token stands) .nil)
  have failed : parse TableSet.scaled "\x7b:scale 34\x7d" = .error .notAnInteger := by decide +kernel
  cases claimed.symm.trans failed

end GameText.Script
