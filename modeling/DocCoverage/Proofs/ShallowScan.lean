import DocCoverage.Proofs.Sources
import Mathlib.Data.List.Nodup

/-! # One stem for each source of a directory

A scan asks of a file whether what stands behind the last dot of its name is the extension.
If it is, the name is the stem, a dot and the extension, so that the name is made out of the
stem again: two files of one directory never have one stem, and a stem is left out for one
reason only, that it is no text (`Scan.skipped_iff`).  A scan that stays at the top therefore
returns one stem for each file that has one (`Scan.exists_stems_shallow`), and a set of
controllers is as large as there are files that hold one
(`Collect.exists_controllers_of_listed`).  A deep scan has no such law, since directories may
hold files of the same name. -/

namespace DocCoverage

/-- Sets of names that differ are as large as their lists. -/
theorem Identifiers.length_ofList {names : List String} (h : names.Nodup) :
    (ofList names).length = names.length := by
  have hnodup : (ofList names).Nodup := (ascending_ofList names).imp fun hlt => String.ne_of_lt hlt
  refine List.Perm.length_eq ((List.perm_ext_iff_of_nodup hnodup h).mpr fun name => ?_)
  exact mem_ofList

namespace Scan

/-- A file is left out with a report exactly when it has the extension and its stem is no
text. -/
theorem skipped_iff {extension : String} {path : Path} {name : FileName} :
    (stemOf extension path name).events ≠ [] ↔ ∃ stem,
      FileName.stemAndExtension? name = some (stem, Text.encode extension) ∧
        Text.decode? stem = none := by
  constructor
  · intro h
    by_cases hcut : ∃ stem, FileName.stemAndExtension? name = some (stem, Text.encode extension)
    · obtain ⟨stem, hcut⟩ := hcut
      refine ⟨stem, hcut, ?_⟩
      rw [stemOf_of_cut hcut] at h
      cases hdecode : Text.decode? stem with
      | none => rfl
      | some text =>
        rw [hdecode] at h
        exact absurd rfl h
    · rw [stemOf_of_not_cut (not_exists.mp hcut)] at h
      exact absurd rfl h
  · rintro ⟨stem, hcut, hdecode⟩
    rw [stemOf_of_cut hcut, hdecode]
    exact List.cons_ne_nil _ _

/-! ## The entries of one directory -/

/-- The stem of a source among the entries of a directory. -/
def entryStem? (extension : String) : FileName × Entry → Option String
  | (name, .file) => FileName.textStem? extension name
  | _ => none

theorem entryStem?_eq_some_iff {extension stem : String} {pair : FileName × Entry} :
    entryStem? extension pair = some stem ↔
      pair = (Text.encode (stem ++ "." ++ extension), .file) ∧ stem ≠ "" ∧
        '.' ∉ extension.toList := by
  obtain ⟨name, entry⟩ := pair
  cases entry with
  | file =>
    rw [entryStem?, FileName.textStem?_eq_some_iff, FileName.stemAndExtension?_encode_iff,
      Prod.mk.injEq, and_iff_left rfl]
  | _ => simp [entryStem?]

/-- No two entries have one stem. -/
theorem entryStem?_inj {extension stem : String} {pair other : FileName × Entry}
    (h : entryStem? extension pair = some stem) (h' : entryStem? extension other = some stem) :
    pair = other := by
  rw [(entryStem?_eq_some_iff.mp h).1, (entryStem?_eq_some_iff.mp h').1]

/-- At the top a scan takes from an entry its stem, if it is a source. -/
theorem filterMap_atEntry_shallow (extension : String) (path : Path) (name : FileName)
    (entry : Entry) : (Finding.atEntry .shallow path name entry).filterMap
      (Finding.stem? extension) = (entryStem? extension (name, entry)).toList := by
  cases entry with
  | file =>
    rw [Finding.atEntry, entryStem?, List.filterMap_cons, Finding.stem?]
    cases FileName.textStem? extension name <;> rfl
  | _ => simp [Finding.atEntry, entryStem?]

section
variable {disk : Disk} {dir : Path} {entries : List (FileName × Entry)}

/-- **A shallow scan returns the stems of the sources**, each as often as its entry is
listed. -/
theorem exists_stems_shallow (h : disk.entries dir = .ok entries) (extension : String) :
    ∃ stems, (Scan.stems disk dir extension .shallow).result = .ok stems ∧
      stems.Perm (entries.filterMap (entryStem? extension)) := by
  have hopen : Finding.firstClosed? (Finding.inDirectory .shallow dir entries) = none :=
    Option.not_isSome_iff_eq_none.mp fun hclosed =>
      nomatch (Finding.isSome_firstClosed?_inDirectory_iff.mp hclosed).1
  refine ⟨_, stems_ok_iff.mpr ⟨entries, h, result_stemsOf_of_open hopen dir extension⟩, ?_⟩
  refine ((Finding.inDirectory_perm .shallow dir entries).filterMap _).trans ?_
  simp only [List.filterMap_flatMap, filterMap_atEntry_shallow]
  rw [List.filterMap_eq_flatMap_toList]

/-- No stem is there twice, if no entry is. -/
theorem nodup_entryStems (hnodup : entries.Nodup) (extension : String) :
    (entries.filterMap (entryStem? extension)).Nodup :=
  hnodup.filterMap fun _ _ _ h h' => entryStem?_inj h h'

end

end Scan

namespace Collect

variable {disk : Disk} {layout : Layout} {entries : List (FileName × Entry)}

/-- **There are as many controllers as files that hold one.** -/
theorem exists_controllers_of_listed
    (h : disk.entries (layout.resolve layout.controllersDir) = .ok entries)
    (hnodup : entries.Nodup) :
    ∃ found, (controllers disk layout).result = .ok found ∧
      found.length = entries.countP fun pair =>
        (Scan.entryStem? layout.sourceExtension pair).any (isController layout) := by
  obtain ⟨stems, hstems, hperm⟩ := Scan.exists_stems_shallow h layout.sourceExtension
  have hdistinct : stems.Nodup := hperm.nodup_iff.mpr (Scan.nodup_entryStems hnodup _)
  refine ⟨_, (result_controllers disk layout).trans (map_eq_ok_iff.mpr ⟨stems, hstems, rfl⟩), ?_⟩
  rw [Identifiers.length_ofList (hdistinct.filter _), ← List.countP_eq_length_filter,
    hperm.countP_eq, List.countP_filterMap]
  refine List.countP_congr fun pair _ => ?_
  cases Scan.entryStem? layout.sourceExtension pair <;> rfl

end Collect

/-- **A name is its stem, a dot and the extension, so there is one stem for each source.**
For every extension and every name, whatever its bytes: the test of a scan is passed, with a
stem, exactly by the name made of that stem, a dot and the extension, where the stem is not
empty and the extension has no dot; hence by no name if it has one, and by one name with
each stem.  A file that passes it has its stem returned if that is a text, which is never
the empty one, and is reported otherwise; no other file is.  So from every directory that is
listed without repetition a shallow scan returns, none twice, the stem of each file whose
name is a stem, a dot and the extension, and there are as many controllers as such files
whose stem ends as theirs do and is not the class that the others extend. -/
theorem Scan.one_stem_for_each_source :
    (∀ extension name stem,
      FileName.stemAndExtension? name = some (stem, Text.encode extension) ↔
        name = stem ++ FileName.dot :: Text.encode extension ∧ stem ≠ [] ∧
          '.' ∉ extension.toList) ∧
    (∀ extension name other stem,
      FileName.stemAndExtension? name = some (stem, Text.encode extension) →
      FileName.stemAndExtension? other = some (stem, Text.encode extension) → name = other) ∧
    (∀ extension path name stem,
      FileName.stemAndExtension? name = some (stem, Text.encode extension) →
        (∀ text, Text.decode? stem = some text →
          text ≠ "" ∧ stemOf extension path name = pure (some text)) ∧
        (Text.decode? stem = none →
          stemOf extension path name = ⟨[.nameSkipped path], .ok none⟩)) ∧
    (∀ extension path name, (stemOf extension path name).events ≠ [] ↔ ∃ stem,
      FileName.stemAndExtension? name = some (stem, Text.encode extension) ∧
        Text.decode? stem = none) ∧
    (∀ extension stem pair, entryStem? extension pair = some stem ↔
      pair = (Text.encode (stem ++ "." ++ extension), .file) ∧ stem ≠ "" ∧
        '.' ∉ extension.toList) ∧
    (∀ (disk : Disk) dir entries, disk.entries dir = .ok entries → entries.Nodup →
      ∀ extension, ∃ stems, (Scan.stems disk dir extension .shallow).result = .ok stems ∧
        stems.Perm (entries.filterMap (entryStem? extension)) ∧ stems.Nodup ∧
          stems.length = entries.countP fun pair => (entryStem? extension pair).isSome) ∧
    (∀ (disk : Disk) layout entries,
      disk.entries (layout.resolve layout.controllersDir) = .ok entries → entries.Nodup →
      ∃ found, (Collect.controllers disk layout).result = .ok found ∧
        found.length = entries.countP fun pair =>
          (entryStem? layout.sourceExtension pair).any fun stem =>
            "Controller".toList <:+ stem.toList ∧ stem ≠ layout.controllerBaseClass) ∧
    (∀ extension name stem, '.' ∈ extension.toList →
      FileName.stemAndExtension? name ≠ some (stem, Text.encode extension)) := by
  have hname : ∀ extension name stem,
      FileName.stemAndExtension? name = some (stem, Text.encode extension) ↔
        name = stem ++ FileName.dot :: Text.encode extension ∧ stem ≠ [] ∧
          '.' ∉ extension.toList := by
    intro extension name stem
    rw [FileName.stemAndExtension?_eq_some_iff, Text.dot_mem_encode_iff]
  refine ⟨hname, fun extension name other stem => FileName.eq_of_stemAndExtension?, ?_,
    fun extension path name => skipped_iff, fun extension stem pair => entryStem?_eq_some_iff,
    ?_, ?_, fun extension name stem hdot hcut => ((hname _ _ _).mp hcut).2.2 hdot⟩
  · intro extension path name stem hcut
    rw [stemOf_of_cut hcut]
    refine ⟨fun text hdecode => ⟨?_, by rw [hdecode]⟩, fun hdecode => by rw [hdecode]⟩
    rintro rfl
    obtain rfl := Text.eq_encode_of_decode? hdecode
    exact ((hname _ _ _).mp hcut).2.1 rfl
  · intro disk dir entries h hnodup extension
    obtain ⟨stems, hstems, hperm⟩ := exists_stems_shallow h extension
    refine ⟨stems, hstems, hperm, hperm.nodup_iff.mpr (nodup_entryStems hnodup extension), ?_⟩
    rw [hperm.length_eq, List.length_filterMap_eq_countP]
  · intro disk layout entries h hnodup
    obtain ⟨found, hfound, hlength⟩ := Collect.exists_controllers_of_listed h hnodup
    refine ⟨found, hfound, hlength.trans (List.countP_congr fun pair _ => ?_)⟩
    simp only [Option.any_eq_true, Collect.isController_iff, decide_eq_true_eq]

/-- The entries of a directory where one file is a controller, though four names end as the
names of sources do. -/
def mixedEntries : List (FileName × Entry) :=
  [(Text.encode ".cs", .file), (Text.encode "Helpers.cs", .file),
    (Text.encode "SiteController.cs", .file), (Text.encode "TowerController.cs", .directory []),
    (0xff :: Text.encode "Controller.cs", .file)]

/-- A disk where every directory has these entries. -/
def mixedDisk : Disk where
  leadsSomewhere _ := false
  readText _ := .ok ""
  entries _ := .ok mixedEntries

/-- The name that is no text is reported, and a scan returns the stems of two files, one of
which is a controller. -/
theorem Scan.one_stem_mixed :
    FileName.stemAndExtension? (0xff :: Text.encode "Controller.cs") =
        some (0xff :: Text.encode "Controller", Text.encode "cs") ∧
      (stemOf "cs" (.ofString "here") (0xff :: Text.encode "Controller.cs")).events =
        [.nameSkipped (.ofString "here")] ∧
      (∀ other, FileName.stemAndExtension? other =
        some (Text.encode "Helpers", Text.encode "cs") → other = Text.encode "Helpers.cs") ∧
      (∀ name stem, FileName.stemAndExtension? name ≠ some (stem, Text.encode "g.cs")) ∧
      mixedEntries.Nodup ∧
      (∃ stems, (Scan.stems mixedDisk (.ofString "here") "cs" .shallow).result = .ok stems ∧
        stems.Nodup ∧ stems.length = 2) ∧
      ∃ found, (Collect.controllers mixedDisk (.standard (.ofString "."))).result = .ok found ∧
        found.length = 1 := by
  obtain ⟨-, hone, houtcome, -, -, hscan, hcontrollers, hdots⟩ := one_stem_for_each_source
  have hcut : FileName.stemAndExtension? (0xff :: Text.encode "Controller.cs") =
      some (0xff :: Text.encode "Controller", Text.encode "cs") := by decide +kernel
  have hhelpers : FileName.stemAndExtension? (Text.encode "Helpers.cs") =
      some (Text.encode "Helpers", Text.encode "cs") := by decide +kernel
  have hnodup : mixedEntries.Nodup := List.Nodup.of_map Prod.fst (by decide +kernel)
  have hskipped := (houtcome "cs" (.ofString "here") _ _ hcut).2 rfl
  obtain ⟨stems, hstems, -, hdistinct, hlength⟩ :=
    hscan mixedDisk (.ofString "here") mixedEntries rfl hnodup "cs"
  obtain ⟨found, hfound, hcount⟩ :=
    hcontrollers mixedDisk (.standard (.ofString ".")) mixedEntries rfl hnodup
  refine ⟨hcut, by rw [hskipped], fun other h => hone _ _ _ _ h hhelpers,
    fun name stem => hdots "g.cs" name stem (by decide), hnodup,
    ⟨stems, hstems, hdistinct, hlength.trans ?_⟩, found, hfound, hcount.trans ?_⟩
  · decide +kernel
  · decide +kernel

end DocCoverage
