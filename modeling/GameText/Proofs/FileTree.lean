import GameText.FileTree
import GameText.Proofs.OrderedMap

namespace GameText.FileTree
open Outcome

-- The steps of a path, one name after another.
inductive Enters (tree : FileTree) : Place → String → Place → Prop where
  | beyond : Enters tree .outside ".." .outside
  | out : Enters tree (.inside []) ".." .outside
  | up {names : List String} (directory : tree.hasDirectory names = true) (inner : names ≠ []) :
      Enters tree (.inside names) ".." (.inside names.dropLast)
  | down {names : List String} {name : String} (directory : tree.hasDirectory names = true) (differs : name ≠ "..")
      (there : tree.hasDirectory (names ++ [name]) = true ∨ tree.files.contains (names ++ [name]) = true) :
      Enters tree (.inside names) name (.inside (names ++ [name]))

-- The tree after a file was written at a place in it.
def put (tree : FileTree) (names : List String) (content : Bytes) : FileTree :=
  { tree with files := tree.files.insert names content }

section
variable {tree : FileTree} {path : Path} {here : List String}

theorem enter_exact {place next : Place} {name : String} :
    tree.enter path place name = .ok next ↔ Enters tree place name next := by
  constructor
  · intro entered
    unfold enter at entered
    split at entered
    · split at entered
      · rename_i same
        cases same
        cases entered
        exact .beyond
      · cases entered
    · rename_i names
      dsimp only at entered
      split at entered
      · cases entered
      · rename_i directory
        rw [Bool.not_eq_true,Bool.not_eq_false'] at directory
        split at entered
        · rename_i same
          cases same
          cases names with
          | nil =>
            cases entered
            exact .out
          | cons first rest =>
            cases entered
            exact .up directory (List.cons_ne_nil _ _)
        · rename_i differs
          split at entered
          · rename_i there
            cases entered
            exact .down directory differs (Bool.or_eq_true _ _ ▸ there)
          · cases entered
  · intro enters
    cases enters with
    | beyond => rfl
    | out => rfl
    | @up names directory inner => simp [enter,directory,List.isEmpty_iff,inner]
    | down directory differs there => simp [enter,directory,differs,there]

theorem hasDirectory_put {content : Bytes} {names : List String} :
    (tree.put here content).hasDirectory names = true ↔
      tree.hasDirectory names = true ∨ (names <+: here ∧ names ≠ here) := by
  simp only [put,hasDirectory,Bool.or_eq_true,List.any_eq_true,OrderedMap.mem_insert,Bool.and_eq_true,
    List.isPrefixOf_iff_prefix,bne_iff_ne]
  constructor
  · rintro (here | ⟨file,rfl | member,inside⟩)
    · exact .inl (.inl here)
    · exact .inr inside
    · exact .inl (.inr ⟨file,member,inside⟩)
  · rintro ((here | ⟨file,member,inside⟩) | inside)
    · exact .inl here
    · exact .inr ⟨file,.inr member,inside⟩
    · exact .inr ⟨_,.inl rfl,inside⟩

theorem Enters.put {place next : Place} {name : String} (enters : Enters tree place name next) (content : Bytes) :
    Enters (tree.put here content) place name next := by
  have grows : ∀ names, tree.hasDirectory names = true → (tree.put here content).hasDirectory names = true :=
    fun names directory => hasDirectory_put.mpr (.inl directory)
  cases enters with
  | beyond => exact .beyond
  | out => exact .out
  | up directory inner => exact .up (grows _ directory) inner
  | down directory differs there =>
    exact .down (grows _ directory) differs
      (there.imp (grows _) fun file => OrderedMap.contains_insert.mpr (.inr file))

theorem follow_put {names : List String} {place : Place} (followed : tree.follow path names = .ok place)
    (content : Bytes) : (tree.put here content).follow path names = .ok place := by
  unfold follow at followed ⊢
  generalize start path = first at followed ⊢
  induction names generalizing first with
  | nil => exact followed
  | cons name rest ih =>
    rw [List.foldlM_cons,bind_ok] at followed ⊢
    obtain ⟨next,entered,further⟩ := followed
    exact ⟨next,enter_exact.mpr ((enter_exact.mp entered).put content),ih _ further⟩

-- The places on the way to this one are directories.
def Open (tree : FileTree) (place : Place) : Prop :=
  ∀ names, place = .inside names → ∀ front, front <+: names → front ≠ names → tree.hasDirectory front = true

theorem Enters.opens {place next : Place} {name : String} (enters : Enters tree place name next)
    (before : Open tree place) : Open tree next := by
  have fronts : ∀ {names}, place = .inside names → tree.hasDirectory names = true → ∀ front, front <+: names →
      tree.hasDirectory front = true := by
    intro names same directory front inside
    by_cases whole : front = names
    · rw [whole]
      exact directory
    · exact before names same front inside whole
  rintro reached rfl front inside differs
  cases enters with
  | up directory inner => exact fronts rfl directory front (inside.trans (List.dropLast_prefix _))
  | down directory _ _ =>
    rcases List.prefix_concat_iff.mp inside with same | inside
    · exact absurd same differs
    · exact fronts rfl directory front inside

theorem follow_open {names : List String} {place : Place} (followed : tree.follow path names = .ok place) :
    Open tree place := by
  refine fold_preserves (Open tree) (fun name _ _ _ before entered => (enter_exact.mp entered).opens before) ?_ followed
  rintro reached same front inside differs
  unfold start at same
  split at same
  · cases same
    exact absurd (List.prefix_nil.mp inside) differs
  · cases same

-- A file can be written where its directory is, and nothing but a file.
structure Writable (tree : FileTree) (path : Path) (directory : List String) (last : String) : Prop where
  named : checkNames path = .ok ()
  split : path.names = path.names.dropLast ++ [last]
  file : last ≠ ".."
  reached : tree.follow path path.names.dropLast = .ok (.inside directory)
  holds : tree.hasDirectory directory = true
  free : tree.hasDirectory (directory ++ [last]) = false

theorem target_exact : tree.target path = .ok (.inside here) ↔
    ∃ directory last, here = directory ++ [last] ∧ Writable tree path directory last := by
  unfold target
  rw [bind_ok]
  constructor
  · rintro ⟨_,named,found⟩
    split at found
    · cases found
    · rename_i last ending
      obtain ⟨place,reached,found⟩ := bind_ok.mp found
      split at found
      · obtain ⟨_,_,found⟩ := bind_ok.mp found
        cases found
      · rename_i file
        split at found
        · cases found
        · rename_i directory
          split at found
          · cases found
          · rename_i is
            split at found
            · cases found
            · rename_i free
              cases found
              exact ⟨directory,last,rfl,named,(List.dropLast_append_getLast? _ ending).symm,file,reached,
                by simpa using is,by simpa using free⟩
  · rintro ⟨directory,last,rfl,named,split,file,reached,is,free⟩
    refine ⟨(),named,?_⟩
    have ending : path.names.getLast? = some last := by rw [split,List.getLast?_concat]
    rw [ending]
    exact bind_ok.mpr ⟨_,reached,by simp [file,is,free]⟩

theorem write_put (allowed : tree.target path = .ok (.inside here)) (content : Bytes) :
    tree.write path content = .ok (tree.put here content) := by
  unfold write
  rw [allowed]
  rfl

theorem read_put (allowed : tree.target path = .ok (.inside here)) (content : Bytes) :
    (tree.put here content).read path = .ok content := by
  obtain ⟨directory,last,rfl,writable⟩ := target_exact.mp allowed
  have reached := @follow_put tree path (directory ++ [last]) _ _ writable.reached content
  have entered : (tree.put (directory ++ [last]) content).enter path (.inside directory) last =
      .ok (.inside (directory ++ [last])) :=
    enter_exact.mpr (.down (hasDirectory_put.mpr (.inl writable.holds)) writable.file
      (.inr (OrderedMap.contains_insert.mpr (.inl rfl))))
  have followed : (tree.put (directory ++ [last]) content).follow path path.names = .ok (.inside (directory ++ [last])) := by
    unfold follow at reached ⊢
    rw [writable.split,List.foldlM_append,bind_ok]
    exact ⟨_,reached,bind_ok.mpr ⟨_,entered,rfl⟩⟩
  refine bind_ok.mpr ⟨(),writable.named,bind_ok.mpr ⟨_,followed,?_⟩⟩
  have stored : (tree.put (directory ++ [last]) content).files.get? (directory ++ [last]) = some content :=
    OrderedMap.get_insert _ _ _
  dsimp only
  rw [stored]

theorem target_put {other : Path} {there : List String} (first : tree.target other = .ok (.inside here))
    (allowed : tree.target path = .ok (.inside there)) (content : Bytes) :
    (tree.put here content).target path = .ok (.inside there) := by
  obtain ⟨above,name,rfl,before⟩ := target_exact.mp first
  obtain ⟨directory,last,rfl,writable⟩ := target_exact.mp allowed
  refine target_exact.mpr ⟨directory,last,rfl,writable.named,writable.split,writable.file,
    follow_put writable.reached content,hasDirectory_put.mpr (.inl writable.holds),?_⟩
  rw [Bool.eq_false_iff]
  intro taken
  rcases hasDirectory_put.mp taken with old | ⟨inside,differs⟩
  · rw [writable.free] at old
    cases old
  · -- The file's own directory was there before it, and all that are above this one.
    have inside := (List.prefix_concat_iff.mp inside).resolve_left differs
    have old : tree.hasDirectory (directory ++ [last]) = true := by
      by_cases whole : directory ++ [last] = above
      · rw [whole]
        exact before.holds
      · exact follow_open before.reached above rfl _ inside whole
    rw [writable.free] at old
    cases old

end
end GameText.FileTree
