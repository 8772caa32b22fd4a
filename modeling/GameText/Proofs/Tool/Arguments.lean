import GameText.Proofs.Outcome
import GameText.Tool.Arguments

namespace GameText.Tool
open Outcome

-- Texts that no option is spelled like, so that they are what they are anywhere on
-- a command line.
def IsName (text : String) : Prop := text.toList.head? ≠ some '-'

instance : DecidablePred IsName := fun _ => instDecidableNot

theorem IsName.plain {text : String} (name : IsName text) (spellings : Spellings) :
    shape spellings text.toList = .ok .plain := if_pos name

theorem IsName.noSeparator {text : String} (name : IsName text) : text ≠ "--" := by
  rintro rfl
  exact name (by decide)

theorem shapes_name {spellings : Spellings} {text : String} (name : IsName text) {rest : List String}
    {others : List Argument} (further : shapes spellings rest = .ok others) :
    shapes spellings (text :: rest) = .ok (⟨.plain,text⟩ :: others) := by
  rw [shapes,if_neg name.noSeparator,name.plain,further]
  rfl

theorem shapes_shape {spellings : Spellings} {text : String} (differs : text ≠ "--") {kind : Shape}
    (found : shape spellings text.toList = .ok kind) {rest : List String} {others : List Argument}
    (further : shapes spellings rest = .ok others) :
    shapes spellings (text :: rest) = .ok (⟨kind,text⟩ :: others) := by
  rw [shapes,if_neg differs,found,further]
  rfl

section
variable {spellings : Spellings} {choices : Choices} {text : String} {rest : List Argument}

theorem walk_subject (first : choices.subject = none) :
    walk spellings choices (⟨.plain,text⟩ :: rest) =
      walk spellings { choices with subject := some text } (skipSeparator rest) := by
  rw [walk,first]
  rfl

theorem walk_option {option : OptionName} {long : Bool} {joined : Option (List Char)} {found : Cluster}
    (gathered : cluster spellings option long joined = .ok found) {next : Choices} {after : List Argument}
    (taken : choices.take found rest = .ok (next,after)) :
    walk spellings choices (⟨.named option long joined,text⟩ :: rest) = walk spellings next after := by
  rw [walk,gathered]
  dsimp only
  split
  · rename_i failed
    cases failed.symm.trans taken
  · rename_i result ended
    cases ended.symm.trans taken
    rfl

theorem take_output {target : String} (name : IsName target) :
    choices.take ⟨[],some (.output,none)⟩ (⟨.plain,target⟩ :: rest) =
      .ok ({ choices with output := some (.given target) },rest) := by
  have value : choices.value .output target = .ok { choices with output := some (.given target) } := by
    rw [Choices.value,if_neg name.noSeparator]
  exact bind_ok.mpr ⟨choices,rfl,bind_ok.mpr ⟨_,value,rfl⟩⟩

end

-- The line of a task that reads one file and writes another.
def outputLine (name : TaskName) (source target : String) (skip : Bool) : List String :=
  name.text :: source :: "-o" :: target :: if skip then ["--skip-errors"] else []

section
variable {name : TaskName} (writes : name = .toDocument ∨ name = .toCatalog) {source target : String}
  (start : IsName source) (goal : IsName target) {skip : Bool} {task : Task}
  (made : name.task ⟨some source,none,skip,.given 40,some (.given target),false⟩ source = .ok task)
include writes start goal made

theorem readTask_output :
    readTask name (source :: "-o" :: target :: if skip then ["--skip-errors"] else []) false =
      .ok ⟨task,none,skip⟩ := by
  have arguments : shapes name.spellings (source :: "-o" :: target :: if skip then ["--skip-errors"] else []) =
      .ok (⟨.plain,source⟩ :: ⟨.named .output false none,"-o"⟩ :: ⟨.plain,target⟩ ::
        if skip then [⟨.named .skip true none,"--skip-errors"⟩] else []) := by
    rcases writes with rfl | rfl <;>
    · refine shapes_name start (shapes_shape (by decide) (by decide +kernel) (shapes_name goal ?_))
      cases skip
      · rfl
      · exact shapes_shape (by decide) (by decide +kernel) rfl
  have walked : walk name.spellings {} (⟨.plain,source⟩ :: ⟨.named .output false none,"-o"⟩ ::
        ⟨.plain,target⟩ :: if skip then [⟨.named .skip true none,"--skip-errors"⟩] else []) =
      .ok ⟨some source,none,skip,.given 40,some (.given target),false⟩ := by
    have output : cluster name.spellings .output false none = .ok ⟨[],some (.output,none)⟩ := by rw [cluster]; rfl
    have flag : cluster name.spellings .skip true none = .ok ⟨[.skip],none⟩ := by rw [cluster]; rfl
    rw [walk_subject rfl]
    refine (walk_option output (take_output goal)).trans ?_
    cases skip
    · rw [if_neg (by decide),walk]
    · refine (walk_option flag rfl).trans ?_
      rw [walk]
  exact bind_ok.mpr ⟨_,arguments,bind_ok.mpr ⟨_,walked,bind_ok.mpr ⟨task,made,rfl⟩⟩⟩

theorem read_outputLine : Invocation.read (outputLine name source target skip) = .ok ⟨task,none,skip⟩ := by
  have arguments : shapes helpSpellings (outputLine name source target skip) =
      .ok (⟨.plain,name.text⟩ :: ⟨.plain,source⟩ :: ⟨.unknown,"-o"⟩ :: ⟨.plain,target⟩ ::
        if skip then [⟨.unknown,"--skip-errors"⟩] else []) := by
    have first : IsName name.text := by cases name <;> decide
    refine shapes_name first (shapes_name start (shapes_shape (by decide) (by decide +kernel) (shapes_name goal ?_)))
    cases skip
    · rfl
    · exact shapes_shape (by decide) (by decide +kernel) rfl
  have listed : TaskName.ofText? name.text = some name := by
    rcases writes with rfl | rfl <;> decide +kernel
  refine bind_ok.mpr ⟨_,arguments,?_⟩
  rw [findTask,listed,← readTask_output writes start goal made]
  cases skip <;> rfl

end

theorem read_export {source target : String} (start : IsName source) (goal : IsName target) :
    Invocation.read ["export",source,"-o",target] = .ok ⟨.toDocument source (.given target),none,false⟩ ∧
      Invocation.read ["export",source,"-o",target,"--skip-errors"] =
        .ok ⟨.toDocument source (.given target),none,true⟩ :=
  ⟨@read_outputLine .toDocument (.inl rfl) _ _ start goal false _ rfl,
    @read_outputLine .toDocument (.inl rfl) _ _ start goal true _ rfl⟩

theorem read_import {source target : String} (start : IsName source) (goal : IsName target) :
    Invocation.read ["import",source,"-o",target] = .ok ⟨.toCatalog source (.given target),none,false⟩ :=
  @read_outputLine .toCatalog (.inr rfl) _ _ start goal false _ rfl

end GameText.Tool
