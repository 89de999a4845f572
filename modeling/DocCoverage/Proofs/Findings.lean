import DocCoverage.Proofs.Stems
import DocCoverage.Scan

/-! # What a scan meets

A scan meets its findings in the order of the names; that order neither adds nor loses
one, so what it meets in a directory is what it meets at the entries
(`Finding.inDirectory_perm`).  Whether it can go on to its end depends on the tree alone:
it cannot exactly when it goes deep and a directory that cannot be opened lies somewhere
below (`Finding.isSome_firstClosed?_inDirectory_iff`), and then the first of these ends it
(`Scan.result_stemsOf_of_closed`).  If it can, it returns the stems of the files that it meets
(`Scan.result_stemsOf_of_open`); a file without the extension is left out without a word, and
one whose stem is no text is reported (`Scan.stemOf_of_cut`). -/

namespace DocCoverage

/-- A directory that cannot be opened lies at or somewhere below the entry. -/
inductive Entry.Blocked : Entry → Prop
  | closed (cause : Cause) : Blocked (.closed cause)
  | inside {entries : List (FileName × Entry)} {name : FileName} {entry : Entry}
      (hmem : (name, entry) ∈ entries) (h : Blocked entry) : Blocked (.directory entries)

namespace Finding

/-- Inserting by name adds one item and loses none. -/
theorem insertByName_perm {α : Type} (x : FileName × α) (items : List (FileName × α)) :
    (insertByName x items).Perm (x :: items) := by
  induction items with
  | nil => exact List.Perm.refl _
  | cons y rest ih =>
    simp only [insertByName]
    split
    · exact (ih.cons y).trans (List.Perm.swap x y rest)
    · exact List.Perm.refl _

theorem foldr_insertByName_perm {α : Type} (items : List (FileName × α)) :
    (items.foldr insertByName []).Perm items := by
  induction items with
  | nil => exact List.Perm.refl _
  | cons x rest ih => exact (insertByName_perm x _).trans (ih.cons x)

/-! ## At the entries of a directory -/

/-- An entry of a directory is smaller than the directory. -/
theorem sizeOf_lt_directory {entries : List (FileName × Entry)} {name : FileName} {entry : Entry}
    (hmem : (name, entry) ∈ entries) : sizeOf entry < sizeOf (Entry.directory entries) := by
  have hpair := List.sizeOf_lt_of_mem hmem
  simp only [Prod.mk.sizeOf_spec] at hpair
  simp only [Entry.directory.sizeOf_spec]
  omega

theorem underNames_eq_map (depth : Depth) (dir : Path) (entries : List (FileName × Entry)) :
    underNames depth dir entries = entries.map fun (name, entry) =>
      (name, atEntry depth (dir.join (.ofName name)) name entry) := by
  induction entries with
  | nil => rw [underNames, List.map_nil]
  | cons pair rest ih => rw [underNames, ih, List.map_cons]

/-- A scan of a directory meets what it meets at the entries, in another order. -/
theorem inDirectory_perm (depth : Depth) (dir : Path) (entries : List (FileName × Entry)) :
    (inDirectory depth dir entries).Perm (entries.flatMap fun (name, entry) =>
      atEntry depth (dir.join (.ofName name)) name entry) := by
  rw [inDirectory, inNameOrder]
  refine ((foldr_insertByName_perm _).flatMap_right Prod.snd).trans ?_
  rw [underNames_eq_map, List.flatMap_map]

theorem mem_inDirectory_iff_exists_mem {finding : Finding} {depth : Depth} {dir : Path}
    {entries : List (FileName × Entry)} :
    finding ∈ inDirectory depth dir entries ↔ ∃ pair ∈ entries,
      finding ∈ atEntry depth (dir.join (.ofName pair.1)) pair.1 pair.2 := by
  rw [(inDirectory_perm depth dir entries).mem_iff, List.mem_flatMap]

/-- A scan of a directory meets what it meets at one of the entries. -/
theorem mem_inDirectory {finding : Finding} {depth : Depth} {dir : Path}
    {entries : List (FileName × Entry)} :
    finding ∈ inDirectory depth dir entries ↔ ∃ name entry, (name, entry) ∈ entries ∧
      finding ∈ atEntry depth (dir.join (.ofName name)) name entry := by
  rw [mem_inDirectory_iff_exists_mem, Prod.exists]

/-- At a directory a deep scan meets what a scan of that directory meets. -/
theorem atEntry_directory (path : Path) (name : FileName) (inner : List (FileName × Entry)) :
    atEntry .recursive path name (.directory inner) = inDirectory .recursive path inner := by
  rw [atEntry, inDirectory]

/-! ## Directories that cannot be opened -/

/-- At the top a scan looks into no directory. -/
theorem closed_notMem_atEntry_shallow (path closedPath : Path) (cause : Cause) (name : FileName)
    (entry : Entry) : closed closedPath cause ∉ atEntry .shallow path name entry := by
  cases entry <;> simp [atEntry]

/-- Where a deep scan meets a directory that it cannot open, one is there. -/
theorem blocked_of_closed_mem {path closedPath : Path} {cause : Cause} {name : FileName}
    (entry : Entry) (h : closed closedPath cause ∈ atEntry .recursive path name entry) :
    entry.Blocked := by
  cases entry with
  | file => simp [atEntry] at h
  | other => simp [atEntry] at h
  | closed cause => exact .closed cause
  | directory inner =>
    rw [atEntry_directory] at h
    obtain ⟨name', entry', hentry, hclosed⟩ := mem_inDirectory.mp h
    have hsmaller := sizeOf_lt_directory hentry
    exact .inside hentry (blocked_of_closed_mem entry' hclosed)
termination_by sizeOf entry

/-- Where one is, a deep scan meets one. -/
theorem exists_closed_mem {entry : Entry} (h : entry.Blocked) (path : Path) (name : FileName) :
    ∃ closedPath cause, closed closedPath cause ∈ atEntry .recursive path name entry := by
  induction h generalizing path name with
  | closed cause => exact ⟨path, cause, by simp [atEntry]⟩
  | @inside entries other entry hmem h ih =>
    obtain ⟨closedPath, cause, hclosed⟩ := ih (path.join (.ofName other)) other
    rw [atEntry_directory]
    exact ⟨closedPath, cause, mem_inDirectory.mpr ⟨other, entry, hmem, hclosed⟩⟩

/-- A scan meets a directory that it cannot open exactly when it goes deep and the tree is
blocked. -/
theorem closed_mem_inDirectory_iff (depth : Depth) (dir : Path)
    (entries : List (FileName × Entry)) :
    (∃ closedPath cause, closed closedPath cause ∈ inDirectory depth dir entries) ↔
      depth = .recursive ∧ ∃ name entry, (name, entry) ∈ entries ∧ entry.Blocked := by
  constructor
  · rintro ⟨closedPath, cause, h⟩
    obtain ⟨name, entry, hmem, hclosed⟩ := mem_inDirectory.mp h
    cases depth with
    | shallow => exact absurd hclosed (closed_notMem_atEntry_shallow _ _ _ _ _)
    | recursive => exact ⟨rfl, name, entry, hmem, blocked_of_closed_mem entry hclosed⟩
  · rintro ⟨rfl, name, entry, hmem, hblocked⟩
    obtain ⟨closedPath, cause, hclosed⟩ := exists_closed_mem hblocked (dir.join (.ofName name)) name
    exact ⟨closedPath, cause, mem_inDirectory.mpr ⟨name, entry, hmem, hclosed⟩⟩

/-- The directory that cannot be opened, and the cause. -/
def closed? : Finding → Option (Path × Cause)
  | file _ _ => none
  | closed path cause => some (path, cause)

/-- The first directory that cannot be opened, and the cause. -/
def firstClosed? (findings : List Finding) : Option (Path × Cause) := findings.findSome? closed?

@[simp] theorem firstClosed?_file (path : Path) (name : FileName) (rest : List Finding) :
    firstClosed? (file path name :: rest) = firstClosed? rest := rfl

@[simp] theorem firstClosed?_closed (path : Path) (cause : Cause) (rest : List Finding) :
    firstClosed? (closed path cause :: rest) = some (path, cause) := rfl

theorem closed?_eq_some_iff {finding : Finding} {path : Path} {cause : Cause} :
    finding.closed? = some (path, cause) ↔ finding = closed path cause := by
  cases finding <;> simp [closed?]

theorem isSome_firstClosed?_iff {findings : List Finding} :
    (firstClosed? findings).isSome = true ↔
      ∃ closedPath cause, closed closedPath cause ∈ findings := by
  rw [firstClosed?, List.findSome?_isSome_iff]
  constructor
  · rintro ⟨finding, hmem, hclosed⟩
    obtain ⟨⟨path, cause⟩, hclosed⟩ := Option.isSome_iff_exists.mp hclosed
    rw [closed?_eq_some_iff] at hclosed
    exact ⟨path, cause, hclosed ▸ hmem⟩
  · rintro ⟨path, cause, hmem⟩
    exact ⟨_, hmem, rfl⟩

/-- **A scan is stopped exactly when it goes deep and the tree is blocked.** -/
theorem isSome_firstClosed?_inDirectory_iff {depth : Depth} {dir : Path}
    {entries : List (FileName × Entry)} :
    (firstClosed? (inDirectory depth dir entries)).isSome = true ↔
      depth = .recursive ∧ ∃ name entry, (name, entry) ∈ entries ∧ entry.Blocked := by
  rw [isSome_firstClosed?_iff, closed_mem_inDirectory_iff]

/-- The stem that a scan takes from what it meets. -/
def stem? (extension : String) : Finding → Option String
  | file _ name => FileName.textStem? extension name
  | closed _ _ => none

end Finding

namespace Scan

/-! ## The stem of a file -/

/-- What is cut off before an extension is not empty, so being empty is no reason to leave it
out. -/
theorem filter_decode?_of_cut {name stem : FileName} {extension : String}
    (h : FileName.stemAndExtension? name = some (stem, Text.encode extension)) :
    (Text.decode? stem).filter (· ≠ "") = Text.decode? stem := by
  cases hdecode : Text.decode? stem with
  | none => rfl
  | some text =>
    obtain rfl := Text.eq_encode_of_decode? hdecode
    have hne : text ≠ "" := (FileName.stemAndExtension?_encode_iff.mp h).2.1
    simp [Option.filter, hne]

/-- A file with the extension has its stem, or is reported if that is no text. -/
theorem stemOf_of_cut {name stem : FileName} {extension : String}
    (h : FileName.stemAndExtension? name = some (stem, Text.encode extension)) (path : Path) :
    stemOf extension path name = match Text.decode? stem with
      | some text => pure (some text)
      | none => ⟨[.nameSkipped path], .ok none⟩ := by
  unfold stemOf
  rw [h]
  simp only [if_true, filter_decode?_of_cut h]
  cases Text.decode? stem <;> rfl

/-- Any other file is left out without a word. -/
theorem stemOf_of_not_cut {name : FileName} {extension : String}
    (h : ∀ stem, FileName.stemAndExtension? name ≠ some (stem, Text.encode extension))
    (path : Path) : stemOf extension path name = pure none := by
  unfold stemOf
  split
  · rfl
  · next stem found hcut =>
    refine if_neg ?_
    rintro rfl
    exact h stem hcut

/-- The stem of a file never fails. -/
theorem result_stemOf (extension : String) (path : Path) (name : FileName) :
    (stemOf extension path name).result = .ok (FileName.textStem? extension name) := by
  by_cases hcut : ∃ stem, FileName.stemAndExtension? name = some (stem, Text.encode extension)
  · obtain ⟨stem, hcut⟩ := hcut
    rw [stemOf_of_cut hcut, FileName.textStem?_of_cut hcut]
    cases Text.decode? stem <;> rfl
  · rw [stemOf_of_not_cut (not_exists.mp hcut),
      FileName.textStem?_of_not_cut (not_exists.mp hcut)]
    rfl

/-! ## The stems of what is met -/

/-- The stem of a file comes before those of the files behind it. -/
theorem result_stemsOf_file (dir path : Path) (extension : String) (name : FileName)
    (rest : List Finding) :
    (stemsOf dir extension (.file path name :: rest)).result =
      (stemsOf dir extension rest).result.map ((FileName.textStem? extension name).toList ++ ·) := by
  simp only [stemsOf, Traced.result_bind, result_stemOf]
  cases (stemsOf dir extension rest).result <;> rfl

/-- **A scan ends at the first directory that it cannot open**, with that directory and the
cause, whatever it has met before. -/
theorem result_stemsOf_of_closed {findings : List Finding} {closedPath : Path} {cause : Cause}
    (h : Finding.firstClosed? findings = some (closedPath, cause)) (dir : Path)
    (extension : String) :
    (stemsOf dir extension findings).result = .error (.walk dir closedPath cause) := by
  induction findings with
  | nil => cases h
  | cons finding rest ih =>
    cases finding with
    | closed path other =>
      obtain ⟨rfl, rfl⟩ : path = closedPath ∧ other = cause := by
        simpa using h
      rfl
    | file path name =>
      rw [result_stemsOf_file, ih (by simpa using h)]
      rfl

/-- Any other scan has the stems of what it meets, in that order. -/
theorem result_stemsOf_of_open {findings : List Finding}
    (h : Finding.firstClosed? findings = none) (dir : Path) (extension : String) :
    (stemsOf dir extension findings).result =
      .ok (findings.filterMap (Finding.stem? extension)) := by
  induction findings with
  | nil => rfl
  | cons finding rest ih =>
    cases finding with
    | closed path cause => simp at h
    | file path name =>
      rw [result_stemsOf_file, ih (by simpa using h),
        List.filterMap_cons, Finding.stem?]
      cases FileName.textStem? extension name <;> rfl

/-- A scan fails in one way only: at a directory that it cannot open. -/
theorem result_stemsOf_error_iff {dir : Path} {extension : String} {findings : List Finding}
    {fault : Fault} :
    (stemsOf dir extension findings).result = .error fault ↔
      ∃ closedPath cause, Finding.firstClosed? findings = some (closedPath, cause) ∧
        fault = .walk dir closedPath cause := by
  cases hclosed : Finding.firstClosed? findings with
  | none =>
    rw [result_stemsOf_of_open hclosed]
    exact iff_of_false nofun nofun
  | some first =>
    rw [result_stemsOf_of_closed hclosed, Except.error.injEq, eq_comm]
    constructor
    · rintro rfl
      exact ⟨_, _, rfl, rfl⟩
    · rintro ⟨closedPath, cause, ⟨⟩, rfl⟩
      rfl

theorem result_stemsOf_ok_iff {dir : Path} {extension : String} {findings : List Finding}
    {stems : List String} :
    (stemsOf dir extension findings).result = .ok stems ↔
      Finding.firstClosed? findings = none ∧
        findings.filterMap (Finding.stem? extension) = stems := by
  cases hclosed : Finding.firstClosed? findings with
  | none =>
    rw [result_stemsOf_of_open hclosed, Except.ok.injEq]
    exact (and_iff_right rfl).symm
  | some first =>
    rw [result_stemsOf_of_closed hclosed]
    exact iff_of_false nofun nofun

end Scan
end DocCoverage
