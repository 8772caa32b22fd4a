import GameText.Proofs.Tables.Ranges

namespace GameText
open Outcome

-- Whether numbers are all different, by a mask of those that were seen.
def isDistinct (mask : Nat) : List Nat → Bool
  | [] => true
  | n :: rest => !mask.testBit n && isDistinct (mask ||| 1 <<< n) rest

theorem isDistinct_nodup {mask : Nat} {numbers : List Nat} (distinct : isDistinct mask numbers = true) :
    numbers.Nodup ∧ ∀ n ∈ numbers, mask.testBit n = false := by
  induction numbers generalizing mask with
  | nil => exact ⟨List.nodup_nil,List.forall_mem_nil _⟩
  | cons n rest ih =>
    rw [isDistinct,Bool.and_eq_true,Bool.not_eq_true'] at distinct
    obtain ⟨nodup,unseen⟩ := ih distinct.2
    simp only [Nat.testBit_or,Bool.or_eq_false_iff] at unseen
    have apart : n ∉ rest := fun member => by
      have seen := (unseen n member).2
      simp at seen
    exact ⟨List.nodup_cons.mpr ⟨apart,nodup⟩,
      List.forall_mem_cons.mpr ⟨distinct.1,fun other member => (unseen other member).1⟩⟩

namespace Packaged

-- The packaged tables, as they are built.
def glyphs : List (Char × Bytes) :=
  CharacterTable.described characters.ranges characters.escaped

theorem characters_built :
    characters.build = .ok ⟨characters.id,glyphs,characters.prefixes.eraseDups⟩ := by
  have chars : (glyphs.map Prod.fst).Nodup := by
    refine List.Nodup.of_map Char.toNat ?_
    have numbers : isDistinct 0 ((glyphs.map Prod.fst).map Char.toNat) = true := by decide +kernel
    exact (isDistinct_nodup numbers).1
  have codes : (glyphs.map Prod.snd).Nodup := by
    refine List.Nodup.of_map Bytes.ofLittleEndian ?_
    have numbers : isDistinct 0 ((glyphs.map Prod.snd).map Bytes.ofLittleEndian) = true := by decide +kernel
    exact (isDistinct_nodup numbers).1
  exact (CharacterTable.ofRanges_exact (by decide +kernel) (by decide +kernel)).mpr
    ⟨⟨by decide +kernel,by decide +kernel⟩,chars,codes,by decide +kernel,rfl⟩

def rows : List CommandRow :=
  commands.rows.filterMap fun row =>
    (Command.ofName? row.command).map fun command => ⟨command,row.opcode,row.width,row.name,row.form⟩

def set : TableSet where
  characters := ⟨characters.id,glyphs,characters.prefixes.eraseDups⟩
  commands := ⟨commands.id,commands.terminator,rows,symbols.complex,symbols.icons,by decide +kernel⟩

theorem commands_built : commands.build symbols = .ok set.commands := by
  have made : commands.rows.mapM CommandSheetRow.build = .ok rows := toOption_ok.mp (by decide +kernel)
  have built : (CommandTable.ofRows commands.id commands.terminator rows symbols.complex symbols.icons).toBool = true := by
    decide +kernel
  refine bind_ok.mpr ⟨rows,made,?_⟩
  cases found : CommandTable.ofRows commands.id commands.terminator rows symbols.complex symbols.icons with
  | error fault =>
    rw [found] at built
    cases built
  | ok table =>
    obtain ⟨id,terminator,same,complex,icons⟩ := CommandTable.ofRows_fields found
    cases table
    cases id; cases terminator; cases same; cases complex; cases icons
    rfl

theorem tables_built : tables = .ok set := by
  have checked : (TableSet.ofTables set.characters set.commands).toBool = true := by decide +kernel
  refine bind_ok.mpr ⟨_,characters_built,bind_ok.mpr ⟨_,mapError_ok.mpr commands_built,?_⟩⟩
  cases found : TableSet.ofTables set.characters set.commands with
  | error fault =>
    rw [found] at checked
    cases checked
  | ok tables =>
    rw [TableSet.ofTables_same found] at found
    exact found

end Packaged
end GameText
