import GameText.Proofs.Catalog.History
import GameText.Proofs.Document.Export
import GameText.Proofs.FileTree
import GameText.Proofs.Tool.Arguments
import GameText.Proofs.Tool.Run

namespace GameText.Tool
open Document Outcome

-- An export that ends well, and an import of what it wrote that ends well among
-- whatever files there are by then and writes the file of this catalog, if there can be
-- one.
def Rebuilds (before : Surroundings) (exporting importing : List String) (middle target : String)
    (catalog : Catalog) : Prop :=
  ∃ content, (run before exporting).1.Writes middle content ∧
    ∀ after : Surroundings, after.read (.ofString middle) = .ok content → after.target (.ofString target) = .ok () →
      catalog.Fits → (run after importing).1.Writes target catalog.toBytes

section
variable {tables : TableSet} (packaged : Packaged.tables = .ok tables)
include packaged

theorem export_ok {around : Surroundings} {source middle : String} {skip : Bool} {file : Bytes} {catalog : Catalog}
    (held : around.read (.ofString source) = .ok file) (accepted : Catalog.ofBytes tables file = .ok catalog)
    (writable : around.target (.ofString middle) = .ok ()) {result : Result} :
    (work around ⟨.toDocument source (.given middle),none,skip⟩).result = .ok result ↔
      ∃ root content, (Batch.catalogToDocument (policyOf skip) tables catalog).result = .ok root ∧
        Xml.save root "utf-8" true = .ok content ∧
        result = ⟨report "export" middle root.children.length
          (Batch.catalogToDocument (policyOf skip) tables catalog).journal.failures.length ++ "\n",
            some (.ofString middle,content)⟩ := by
  rw [work,loadTables_packaged packaged]
  refine toDocumentTask_ok.trans ⟨?_,?_⟩
  · rintro ⟨_,_,root,content,again,reading,converted,saved,_,made⟩
    cases held.symm.trans again
    cases accepted.symm.trans reading
    exact ⟨root,content,converted,saved,made⟩
  · rintro ⟨root,content,converted,saved,made⟩
    exact ⟨file,catalog,root,content,held,accepted,converted,saved,writable,made⟩

theorem import_ok {around : Surroundings} {middle target : String} {skip : Bool} {file : Bytes} {root : Xml.Element}
    {catalog : Catalog} (held : around.read (.ofString middle) = .ok file) (loaded : Xml.load middle file = .ok root)
    (converted : ((⟨policyOf skip,tables,[]⟩ : Converter).documentToCatalog root).result = .ok catalog)
    (writable : around.target (.ofString target) = .ok ()) (fits : catalog.Fits) :
    ∃ text, (work around ⟨.toCatalog middle (.given target),none,skip⟩).result =
      .ok ⟨text,some (.ofString target,catalog.toBytes)⟩ := by
  rw [work,loadTables_packaged packaged]
  exact ⟨_,toCatalogTask_ok.mpr ⟨file,root,catalog,held,loaded,converted,fits,writable,rfl⟩⟩

theorem good_sound {file : Bytes} {catalog : Catalog} (accepted : Catalog.ofBytes tables file = .ok catalog) :
    Catalog.Sound tables (good tables catalog) :=
  fun message member => Catalog.ofBytes_sound (Wire.forward_exact.mp (packaged_exportable packaged).forward).1 accepted message
    (List.mem_of_mem_filter member)

section
variable {before : Surroundings} {source middle target : String} {file : Bytes} {catalog : Catalog}
  (held : before.read (.ofString source) = .ok file) (accepted : Catalog.ofBytes tables file = .ok catalog)
  (writable : before.target (.ofString middle) = .ok ()) {exporting : List String} {skip : Bool}
  (first : Invocation.read exporting = .ok ⟨.toDocument source (.given middle),none,skip⟩)
include held accepted writable first

theorem export_status :
    (run before exporting).1.status = 0 ↔ policyOf skip = .skip ∨ good tables catalog = catalog := by
  rw [run_status first,← catalogToDocument_ends (packaged_exportable packaged) (Catalog.ofBytes_numbered accepted)]
  constructor
  · rintro ⟨result,ended⟩
    obtain ⟨root,_,converted,_⟩ := (export_ok packaged held accepted writable).mp ended
    exact ⟨root,converted⟩
  · rintro ⟨root,converted⟩
    exact ⟨_,(export_ok packaged held accepted writable).mpr ⟨root,_,converted,rfl,rfl⟩⟩

theorem rebuilds_good (goes : policyOf skip = .skip ∨ good tables catalog = catalog) {importing : List String}
    {lenient : Bool} (second : Invocation.read importing = .ok ⟨.toCatalog middle (.given target),none,lenient⟩) :
    Rebuilds before exporting importing middle target (good tables catalog) := by
  have exportable := packaged_exportable packaged
  obtain ⟨elements,converted,made⟩ := catalogToDocument_good exportable (Catalog.ofBytes_numbered accepted) goes
  obtain ⟨⟨regular,last⟩,read⟩ := documentToCatalog_shows exportable (good_sound packaged accepted) made
  obtain ⟨content,again,saved,loaded,shows⟩ := Xml.load_save regular last true middle .utf8
  refine ⟨content,(writes_ok first).mpr ⟨_,(export_ok packaged held accepted writable).mpr
    ⟨_,content,converted,saved,rfl⟩⟩,fun after kept allowed fits => (writes_ok second).mpr ?_⟩
  exact import_ok packaged kept loaded (read again shows _ rfl) allowed fits

end
end
-- An export that may skip, and then an import, rebuild the good messages of a
-- catalog in their order. An export that may not skip ends well just if they are all
-- good, and then the whole catalog is rebuilt. Nothing is asked of the layout of the
-- file that was read, whose messages may overlap, share bytes or repeat numbers.
theorem export_import {tables : TableSet} (packaged : Packaged.tables = .ok tables) {before : Surroundings}
    {source middle target : String} {file : Bytes} {catalog : Catalog} (held : before.read (.ofString source) = .ok file)
    (accepted : Catalog.ofBytes tables file = .ok catalog) (writable : before.target (.ofString middle) = .ok ())
    {skipping exporting importing : List String} {lenient : Bool}
    (skips : Invocation.read skipping = .ok ⟨.toDocument source (.given middle),none,true⟩)
    (aborts : Invocation.read exporting = .ok ⟨.toDocument source (.given middle),none,false⟩)
    (returns : Invocation.read importing = .ok ⟨.toCatalog middle (.given target),none,lenient⟩) :
    Rebuilds before skipping importing middle target (good tables catalog) ∧
      ((run before exporting).1.status = 0 ↔ good tables catalog = catalog) ∧
      (good tables catalog = catalog → Rebuilds before exporting importing middle target catalog) := by
  refine ⟨rebuilds_good packaged held accepted writable skips (.inl rfl) returns,?_,fun whole => ?_⟩
  · rw [export_status packaged held accepted writable aborts]
    exact or_iff_right (by decide)
  · have rebuilt := rebuilds_good packaged held accepted writable aborts (.inr whole) returns
    rwa [whole] at rebuilt

-- A message with an icon that has no name, and a blank one that stands inside of the
-- one before it.
def sampleFile : Bytes :=
  [1,0,0,0,3,0,0,0,9,0,0,0,32,0,0,0,7,0,0,0,35,0,0,0,3,0,0,0,36,0,0,0,0x09,0xC8,0x00,0x2E,0x01,0x00]

def sampleCatalog : Catalog := ⟨⟨[(9,[0x09,0xC8,0x00]),(7,[0x2E,0x01,0x00]),(3,[0x01,0x00])],by decide⟩⟩

def sampleGood : Catalog := ⟨⟨[(7,[0x2E,0x01,0x00]),(3,[0x01,0x00])],by decide⟩⟩

-- One file to read, and every name free to write.
def sampleFiles (file : Bytes) : Surroundings where
  host := Packaged.host 64
  read := fun path => if path = .ofString "old" then .ok file else .error (.noSuchFile path.toString)
  target := fun _ => .ok ()
  tableDirectory := fun path => ⟨path,.missing,fun _ => none⟩

theorem export_import_sample :
    Rebuilds (sampleFiles sampleFile) ["export","old","-o","doc","--skip-errors"]
        ["import","doc","-o","new"] "doc" "new" sampleGood ∧
      (run (sampleFiles sampleFile) ["export","old","-o","doc"]).1.status ≠ 0 ∧
      Rebuilds (sampleFiles sampleGood.toBytes) ["export","old","-o","doc"]
        ["import","doc","-o","new"] "doc" "new" sampleGood := by
  have held : ∀ file, (sampleFiles file).read (.ofString "old") = .ok file := fun _ => if_pos rfl
  have writable : ∀ file, (sampleFiles file).target (.ofString "doc") = .ok () := fun _ => rfl
  have accepted : ∀ {file : Bytes} {catalog : Catalog}, (Catalog.ofBytes Packaged.set file).map (fun catalog =>
      catalog.messages.toList) = .ok catalog.messages.toList → Catalog.ofBytes Packaged.set file = .ok catalog := by
    intro file catalog shown
    obtain ⟨found,reading,same⟩ := map_ok.mp shown
    rw [reading,Catalog.toList_inj same]
  have mixed : Catalog.ofBytes Packaged.set sampleFile = .ok sampleCatalog := accepted (by decide +kernel)
  have clean : Catalog.ofBytes Packaged.set sampleGood.toBytes = .ok sampleGood := accepted (by decide +kernel)
  have part : good Packaged.set sampleCatalog = sampleGood := Catalog.toList_inj (by decide +kernel)
  have all : good Packaged.set sampleGood = sampleGood := Catalog.toList_inj (by decide +kernel)
  obtain ⟨aborts,skips⟩ := @read_export "old" "doc" (by decide) (by decide)
  have returns := @read_import "doc" "new" (by decide) (by decide)
  obtain ⟨rebuilt,ends,_⟩ := export_import Packaged.tables_built (held _) mixed (writable _) skips aborts returns
  obtain ⟨_,_,whole⟩ := export_import Packaged.tables_built (held _) clean (writable _) skips aborts returns
  rw [part] at rebuilt ends
  refine ⟨rebuilt,fun ended => ?_,whole all⟩
  exact absurd (congrArg Catalog.size (ends.mp ended)) (by decide)

end GameText.Tool

namespace GameText.FileTree
open Document Outcome Tool

theorem run_put {tree : FileTree} {host : Host} {texts : List String} {name : String} {content : Bytes}
    (written : (Tool.run (tree.surroundings host) texts).1.Writes name content) {here : List String}
    (allowed : tree.target (.ofString name) = .ok (.inside here)) :
    (tree.run host texts).1.Writes name content ∧ (tree.run host texts).2.2 = tree.put here content := by
  obtain ⟨text,ended⟩ := written
  unfold run
  dsimp only
  rw [ended]
  dsimp only
  rw [write_put allowed]
  exact ⟨⟨text,rfl⟩,rfl⟩

theorem run_export_import {tables : TableSet} (packaged : Packaged.tables = .ok tables) {tree : FileTree} {host : Host}
    {source middle target : String} {file : Bytes} {catalog : Catalog} (held : tree.read (.ofString source) = .ok file)
    (accepted : Catalog.ofBytes tables file = .ok catalog) {here there : List String}
    (between : tree.target (.ofString middle) = .ok (.inside here))
    (last : tree.target (.ofString target) = .ok (.inside there)) (fits : (good tables catalog).Fits)
    {exporting importing : List String} {skip lenient : Bool} (goes : policyOf skip = .skip ∨ good tables catalog = catalog)
    (first : Invocation.read exporting = .ok ⟨.toDocument source (.given middle),none,skip⟩)
    (second : Invocation.read importing = .ok ⟨.toCatalog middle (.given target),none,lenient⟩) :
    (tree.run host exporting).1.status = 0 ∧ ((tree.run host exporting).2.2.run host importing).1.status = 0 ∧
      ((tree.run host exporting).2.2.run host importing).2.2.read (.ofString target) = .ok (good tables catalog).toBytes := by
  have writable : (tree.surroundings host).target (.ofString middle) = .ok () := map_ok.mpr ⟨_,between,rfl⟩
  obtain ⟨content,exported,rebuilt⟩ := rebuilds_good packaged held accepted writable first goes second
  obtain ⟨⟨_,ended⟩,left⟩ := run_put exported between
  have free := target_put between last content
  have imported := rebuilt ((tree.put here content).surroundings host) (read_put between content) (map_ok.mpr ⟨_,free,rfl⟩) fits
  obtain ⟨⟨_,returned⟩,found⟩ := run_put imported free
  rw [left,found,ended,returned]
  exact ⟨rfl,rfl,read_put free _⟩

end GameText.FileTree
