import GameText.Proofs.Catalog.Layout
import GameText.Tool.Run

namespace GameText.Tool
open Outcome

-- The status that a run leaves. A fault that no task answers for has one of its own.
def Ending.status : Ending → Nat
  | .stopped stop => stop.status
  | .ended status _ _ _ => status
  | .fell _ => 1

-- A run that ends well and leaves a file of this name.
def Ending.Writes (ending : Ending) (name : String) (content : Bytes) : Prop :=
  ∃ text, ending = .ended 0 text "" (some (.ofString name,content))

namespace Work
variable {α β : Type}

@[simp]
theorem of_ok {first : Except Fault α} {value : α} : (Work.of first).result = .ok value ↔ first = .ok value :=
  mapError_ok

@[simp]
theorem andThen_ok {work : Work α} {next : α → Work β} {result : β} :
    (work.andThen next).result = .ok result ↔ ∃ value, work.result = .ok value ∧ (next value).result = .ok result := by
  unfold andThen
  split <;> rename_i found <;> simp [found]

@[simp]
theorem convert_ok {converted : Converted α} {value : α} {skipped : Nat} :
    (Work.convert converted).result = .ok (value,skipped) ↔
      converted.result = .ok value ∧ converted.converter.failures.length = skipped := by
  rw [convert,mapError_ok,map_ok]
  constructor
  · rintro ⟨_,found,same⟩
    cases same
    exact ⟨found,rfl⟩
  · rintro ⟨found,rfl⟩
    exact ⟨value,found,rfl⟩

theorem ending_ok {work : Work Result} {text : String} {written : Option (Path × Bytes)} :
    work.ending = .ended 0 text "" written ↔ work.result = .ok ⟨text,written⟩ := by
  unfold ending
  split
  · rename_i result found
    rw [found]
    cases result
    simp
  · rename_i failure found
    rw [found]
    split <;> simp

theorem ending_status {work : Work Result} : work.ending.status = 0 ↔ ∃ result, work.result = .ok result := by
  unfold ending
  split
  · rename_i result found
    simp [found,Ending.status]
  · rename_i failure found
    rw [found]
    split <;> simp [Ending.status]

end Work

theorem loadTables_packaged {tables : TableSet} (packaged : Packaged.tables = .ok tables) (around : Surroundings) :
    loadTables around none = ⟨.ok tables,[]⟩ := by
  rw [loadTables,packaged]
  rfl

section
variable {around : Surroundings} {texts : List String} {invocation : Invocation}
  (reading : Invocation.read texts = .ok invocation)
include reading

theorem run_ending : (run around texts).1 = (work around invocation).ending := by
  rw [run,reading]

theorem run_ok {text : String} {written : Option (Path × Bytes)} :
    (run around texts).1 = .ended 0 text "" written ↔ (work around invocation).result = .ok ⟨text,written⟩ := by
  rw [run_ending reading]
  exact Work.ending_ok

theorem writes_ok {name : String} {content : Bytes} : (run around texts).1.Writes name content ↔
    ∃ text, (work around invocation).result = .ok ⟨text,some (.ofString name,content)⟩ :=
  exists_congr fun _ => run_ok reading

theorem run_status : (run around texts).1.status = 0 ↔ ∃ result, (work around invocation).result = .ok result := by
  rw [run_ending reading]
  exact Work.ending_status

end

theorem writeOut_ok {around : Surroundings} {task name : String} {messages skipped : Nat}
    {content : Except Fault Bytes} {result : Result} :
    (writeOut around task (.given name) messages skipped content).result = .ok result ↔
      ∃ bytes, content = .ok bytes ∧ around.target (.ofString name) = .ok () ∧
        result = ⟨report task name messages skipped ++ "\n",some (.ofString name,bytes)⟩ := by
  simp only [writeOut,Work.andThen_ok,Work.of_ok,printed]
  constructor
  · rintro ⟨bytes,made,_,allowed,_,shown,written⟩
    cases shown
    cases written
    exact ⟨bytes,made,allowed,by simp⟩
  · rintro ⟨bytes,made,allowed,rfl⟩
    exact ⟨bytes,made,(),allowed,_,rfl,by simp⟩

section
variable {around : Surroundings} {converter : Converter} {source target : String} {result : Result}

theorem toDocumentTask_ok {settings : Settings} :
    (toDocumentTask around settings converter source (.given target)).result = .ok result ↔
      ∃ file catalog root content, around.read (.ofString source) = .ok file ∧
        Catalog.ofBytes converter.tables file = .ok catalog ∧
        (converter.catalogToDocument catalog).result = .ok root ∧
        Xml.save root settings.encoding settings.pretty = .ok content ∧
        around.target (.ofString target) = .ok () ∧
        result = ⟨report "export" target root.children.length
          (converter.catalogToDocument catalog).converter.failures.length ++ "\n",some (.ofString target,content)⟩ := by
  simp only [toDocumentTask,readCatalog,Work.andThen_ok,Work.of_ok,bind_ok,Prod.exists,Work.convert_ok,writeOut_ok]
  constructor
  · rintro ⟨catalog,⟨file,held,accepted⟩,root,_,⟨converted,rfl⟩,content,saved,ended⟩
    exact ⟨file,catalog,root,content,held,accepted,converted,saved,ended⟩
  · rintro ⟨file,catalog,root,content,held,accepted,converted,saved,ended⟩
    exact ⟨catalog,⟨file,held,accepted⟩,root,_,⟨converted,rfl⟩,content,saved,ended⟩

theorem toCatalogTask_ok :
    (toCatalogTask around converter source (.given target)).result = .ok result ↔
      ∃ file root catalog, around.read (.ofString source) = .ok file ∧ Xml.load source file = .ok root ∧
        (converter.documentToCatalog root).result = .ok catalog ∧ catalog.Fits ∧
        around.target (.ofString target) = .ok () ∧
        result = ⟨report "import" target catalog.size
          (converter.documentToCatalog root).converter.failures.length ++ "\n",
            some (.ofString target,catalog.toBytes)⟩ := by
  simp only [toCatalogTask,Work.andThen_ok,Work.of_ok,bind_ok,Prod.exists,Work.convert_ok,writeOut_ok,
    Catalog.save_ok]
  constructor
  · rintro ⟨root,⟨file,held,loaded⟩,catalog,_,⟨converted,rfl⟩,_,⟨fits,rfl⟩,ended⟩
    exact ⟨file,root,catalog,held,loaded,converted,fits,ended⟩
  · rintro ⟨file,root,catalog,held,loaded,converted,fits,ended⟩
    exact ⟨root,⟨file,held,loaded⟩,catalog,_,⟨converted,rfl⟩,_,⟨fits,rfl⟩,ended⟩

end
end GameText.Tool
