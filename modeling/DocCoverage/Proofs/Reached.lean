import DocCoverage.Proofs.Collectors
import DocCoverage.Proofs.Findings
import DocCoverage.Proofs.Stems

/-! # What a scan reaches

An entry is reached along the names that lead to it from the scanned directory
(`Reached`).  A shallow scan goes along one name; a deep one goes on inside whatever has
entries of its own.  The relation is about trees of any kind: about what a scan sees, and
about the nodes of a file system.

A scan meets exactly the files that are reached (`Finding.file_mem_inDirectory_iff`), each
at the path that its names spell.  So the stems that it returns are those of the names at
which a file is reached (`Scan.mem_stems_iff`), whatever the order of the entries is. -/

namespace DocCoverage

/-! ## Reaching an entry -/

/-- An entry is reached along names below a directory.  `inside` gives the entries of what
has any. -/
inductive Reached {α : Type} (inside : α → Option (List (FileName × α))) (depth : Depth) :
    List (FileName × α) → List FileName → α → Prop
  | here {entries : List (FileName × α)} {name : FileName} {entry : α}
      (hmem : (name, entry) ∈ entries) : Reached inside depth entries [name] entry
  | deeper {entries inner : List (FileName × α)} {name : FileName} {names : List FileName}
      {dir entry : α} (hdeep : depth = .recursive) (hmem : (name, dir) ∈ entries)
      (hinside : inside dir = some inner) (h : Reached inside depth inner names entry) :
      Reached inside depth entries (name :: names) entry

section
variable {α : Type} {inside : α → Option (List (FileName × α))} {depth : Depth}
  {entries others : List (FileName × α)} {names : List FileName} {entry : α}

/-- Names lead somewhere. -/
theorem Reached.names_ne_nil (h : Reached inside depth entries names entry) : names ≠ [] := by
  cases h <;> simp

/-- A shallow scan goes along one name. -/
theorem reached_shallow_iff : Reached inside .shallow entries names entry ↔
    ∃ name, names = [name] ∧ (name, entry) ∈ entries := by
  constructor
  · rintro (hmem | ⟨hdeep, -, -, -⟩)
    · exact ⟨_, rfl, hmem⟩
    · cases hdeep
  · rintro ⟨name, rfl, hmem⟩
    exact .here hmem

/-- The order of the entries does not matter, nor how often one is listed. -/
theorem Reached.of_subset (hsubset : entries ⊆ others)
    (h : Reached inside depth entries names entry) : Reached inside depth others names entry := by
  cases h with
  | here hmem => exact .here (hsubset hmem)
  | deeper hdeep hmem hinside h => exact .deeper hdeep (hsubset hmem) hinside h

end

/-- The entries of an entry that is a directory. -/
def Entry.entries? : Entry → Option (List (FileName × Entry))
  | directory entries => some entries
  | _ => none

theorem Entry.entries?_eq_some_iff {entry : Entry} {inner : List (FileName × Entry)} :
    entry.entries? = some inner ↔ entry = .directory inner := by
  cases entry <;> simp [entries?]

/-- The path of what is reached along names from a directory. -/
def Path.along (dir : Path) (names : List FileName) : Path :=
  names.foldl (fun path name => path.join (.ofName name)) dir

/-- A tree with a directory that cannot be opened has one that is reached. -/
theorem Entry.Blocked.exists_reached {entry : Entry} (h : entry.Blocked)
    {entries : List (FileName × Entry)} {name : FileName} (hmem : (name, entry) ∈ entries) :
    ∃ names cause, Reached entries? .recursive entries names (.closed cause) := by
  induction h generalizing entries name with
  | closed cause => exact ⟨[name], cause, .here hmem⟩
  | inside hinner _ ih =>
    obtain ⟨names, cause, hreached⟩ := ih hinner
    exact ⟨name :: names, cause, .deeper rfl hmem rfl hreached⟩

/-! ## The files that a scan meets -/

namespace Finding

theorem exists_reached_of_file_mem {depth : Depth} {dir path : Path} {last : FileName}
    (entries : List (FileName × Entry)) (h : file path last ∈ inDirectory depth dir entries) :
    ∃ names, Reached Entry.entries? depth entries names .file ∧
      names.getLast? = some last ∧ dir.along names = path := by
  obtain ⟨name, entry, hmem, hfile⟩ := mem_inDirectory.mp h
  cases entry with
  | file =>
    rw [atEntry, List.mem_singleton] at hfile
    obtain ⟨rfl, rfl⟩ := Finding.file.inj hfile
    exact ⟨[last], .here hmem, rfl, rfl⟩
  | other => rw [atEntry] at hfile; cases hfile
  | closed cause => cases depth <;> simp [atEntry] at hfile
  | directory inner =>
    cases depth with
    | shallow => rw [atEntry] at hfile; cases hfile
    | recursive =>
      rw [atEntry_directory] at hfile
      have hsmaller : sizeOf inner < sizeOf entries := by
        have hentry := sizeOf_lt_directory hmem
        simp only [Entry.directory.sizeOf_spec] at hentry
        omega
      obtain ⟨names, hreached, hlast, hpath⟩ := exists_reached_of_file_mem inner hfile
      refine ⟨name :: names, .deeper rfl hmem rfl hreached, ?_, hpath⟩
      rw [List.getLast?_cons, hlast]
      rfl
termination_by sizeOf entries

theorem file_mem_of_reached {depth : Depth} {dir : Path} {entries : List (FileName × Entry)}
    {names : List FileName} {entry : Entry} {last : FileName}
    (h : Reached Entry.entries? depth entries names entry) (hfile : entry = .file)
    (hlast : names.getLast? = some last) :
    file (dir.along names) last ∈ inDirectory depth dir entries := by
  induction h generalizing dir with
  | here hmem =>
    obtain rfl := Option.some.inj hlast
    subst hfile
    exact mem_inDirectory.mpr ⟨_, _, hmem, by rw [atEntry]; exact List.mem_singleton.mpr rfl⟩
  | @deeper entries inner name names dirEntry entry hdeep hmem hinside h ih =>
    subst hdeep
    obtain rfl := Entry.entries?_eq_some_iff.mp hinside
    rw [List.getLast?_cons_of_ne_nil h.names_ne_nil] at hlast
    refine mem_inDirectory.mpr ⟨name, _, hmem, ?_⟩
    rw [atEntry_directory]
    exact ih hfile hlast

/-- **A scan meets the files that are reached**, each under the last of its names. -/
theorem file_mem_inDirectory_iff {depth : Depth} {dir path : Path} {last : FileName}
    {entries : List (FileName × Entry)} :
    file path last ∈ inDirectory depth dir entries ↔
      ∃ names, Reached Entry.entries? depth entries names .file ∧
        names.getLast? = some last ∧ dir.along names = path := by
  refine ⟨exists_reached_of_file_mem entries, ?_⟩
  rintro ⟨names, hreached, hlast, rfl⟩
  exact file_mem_of_reached hreached rfl hlast

end Finding

/-! ## The stems that a scan returns -/

namespace Scan

theorem mem_stemsOf_iff {dir : Path} {extension : String} {findings : List Finding}
    {stems : List String} (h : (stemsOf dir extension findings).result = .ok stems)
    {stem : String} :
    stem ∈ stems ↔ ∃ path name, .file path name ∈ findings ∧
      FileName.stemAndExtension? name = some (Text.encode stem, Text.encode extension) := by
  obtain ⟨-, rfl⟩ := result_stemsOf_ok_iff.mp h
  rw [List.mem_filterMap]
  constructor
  · rintro ⟨finding, hmem, hstem⟩
    cases finding with
    | closed path cause => cases hstem
    | file path name => exact ⟨path, name, hmem, FileName.textStem?_eq_some_iff.mp hstem⟩
  · rintro ⟨path, name, hmem, hcut⟩
    exact ⟨.file path name, hmem, FileName.textStem?_eq_some_iff.mpr hcut⟩

/-- A scan returns stems when the directory can be listed and nothing below stops it. -/
theorem stems_ok_iff {disk : Disk} {dir : Path} {extension : String} {depth : Depth}
    {stems : List String} :
    (Scan.stems disk dir extension depth).result = .ok stems ↔ ∃ entries,
      disk.entries dir = .ok entries ∧
      (stemsOf dir extension (Finding.inDirectory depth dir entries)).result = .ok stems := by
  rw [Scan.stems, Traced.result_bind]
  cases disk.entries dir <;> simp [Traced.ofDisk, Except.bind]

/-- A scan ends well when no directory that it reaches is closed. -/
theorem exists_stems {disk : Disk} {dir : Path} {depth : Depth}
    {entries : List (FileName × Entry)} (hentries : disk.entries dir = .ok entries)
    (hopen : ∀ names cause, ¬Reached Entry.entries? depth entries names (.closed cause))
    (extension : String) : ∃ stems, (Scan.stems disk dir extension depth).result = .ok stems := by
  cases hstems : (stemsOf dir extension (Finding.inDirectory depth dir entries)).result with
  | ok stems => exact ⟨stems, stems_ok_iff.mpr ⟨entries, hentries, hstems⟩⟩
  | error fault =>
    obtain ⟨closedPath, cause, hfirst, -⟩ := result_stemsOf_error_iff.mp hstems
    obtain ⟨rfl, name, entry, hmem, hblocked⟩ :=
      Finding.isSome_firstClosed?_inDirectory_iff.mp (Option.isSome_of_mem hfirst)
    obtain ⟨names, cause, hreached⟩ := hblocked.exists_reached hmem
    exact absurd hreached (hopen names cause)

/-- **The stems that a scan returns are those of the files that are reached.** -/
theorem mem_stems_iff {disk : Disk} {dir : Path} {extension : String} {depth : Depth}
    {entries : List (FileName × Entry)} {stems : List String}
    (hentries : disk.entries dir = .ok entries)
    (h : (Scan.stems disk dir extension depth).result = .ok stems) {stem : String} :
    stem ∈ stems ↔ ∃ names name, Reached Entry.entries? depth entries names .file ∧
      names.getLast? = some name ∧ name = Text.encode (stem ++ "." ++ extension) ∧
      stem ≠ "" ∧ '.' ∉ extension.toList := by
  obtain ⟨listed, hlisted, hstems⟩ := stems_ok_iff.mp h
  obtain rfl : entries = listed := Except.ok.inj (hentries.symm.trans hlisted)
  rw [mem_stemsOf_iff hstems]
  constructor
  · rintro ⟨path, name, hmem, hcut⟩
    obtain ⟨names, hreached, hlast, -⟩ := Finding.file_mem_inDirectory_iff.mp hmem
    exact ⟨names, name, hreached, hlast, FileName.stemAndExtension?_encode_iff.mp hcut⟩
  · rintro ⟨names, name, hreached, hlast, hname⟩
    exact ⟨_, name, Finding.file_mem_inDirectory_iff.mpr ⟨names, hreached, hlast, rfl⟩,
      FileName.stemAndExtension?_encode_iff.mpr hname⟩

end Scan
end DocCoverage
