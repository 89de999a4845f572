import DocCoverage.FileSystem.View
import DocCoverage.Proofs.Inputs
import DocCoverage.Proofs.Overlay.Choice

/-! # What a loaded layout keeps

A layout that loads is the standard one under the settings of its overlay
(`Layout.exists_settings_of_load`).

An overlay may name any texts as paths, the empty one among them, and may pin commands
that are nothing but blanks.  What is left of this in a layout is said by `Layout.Tidy`:
its paths are spelled by texts, and none of its pinned commands is empty.  The standard
layout is tidy and each setting of an overlay keeps it so (`Layout.Tidy.assign_tidied`),
so every layout that loads is tidy (`Layout.tidy_of_load`).

Nothing looks at an empty path as such.  Joined to the root it is empty again or ends in a
slash.  A path with a slash at its end leads to a directory or nowhere, whatever links
are on the way (`FileSystem.isDirectory_of_follow`), and a directory is no text; so no
document loads by an empty path (`Documents.path_ne_of_load`). -/

namespace DocCoverage

/-! ## Tidy layouts -/

/-- The text of the overlay of a run, if there is an overlay and it can be read. -/
def Disk.overlayText? (disk : Disk) (root : Path) (config : Option Path) : Option String :=
  match config with
  | some config => (disk.readText config).toOption
  | none =>
    let config := root.join (.ofString Layout.overlayName)
    if disk.leadsSomewhere config then (disk.readText config).toOption else none

namespace Layout

/-- The paths of a layout are spelled by texts, and no pinned command is empty. -/
structure Tidy (layout : Layout) : Prop where
  spelled : ∀ setting, ∃ text, layout.pathOf setting = .ofString text
  pinned_ne : "" ∉ layout.pinnedCommands

theorem tidy_standard (root : Path) : (standard root).Tidy where
  spelled setting := by cases setting <;> exact ⟨_, rfl⟩
  pinned_ne := by simp [standard]

/-- Trimming drops the names of which nothing is left. -/
theorem empty_notMem_trimmed (names : List String) : "" ∉ Setting.trimmed names := by
  simp [Setting.trimmed]

/-- **A setting keeps a layout tidy**, as an overlay means it. -/
theorem Tidy.assign_tidied {layout : Layout} (h : layout.Tidy) (setting : Setting) :
    (layout.assign setting.tidied).Tidy := by
  constructor
  · intro asked
    have hkept := h.spelled asked
    rcases setting with ⟨placed | _ | _ | _, value⟩ | names
    · show ∃ text, (layout.place placed (.ofString value)).pathOf asked = _
      rw [pathOf_place]
      split
      · exact ⟨value, rfl⟩
      · exact hkept
    -- nothing else is a path
    all_goals cases asked <;> exact hkept
  · rcases setting with ⟨placed | _ | _ | _, value⟩ | names
    · cases placed <;> exact h.pinned_ne
    iterate 3 exact h.pinned_ne
    · exact empty_notMem_trimmed names

theorem Tidy.overlaid {layout : Layout} (h : layout.Tidy) (given : List Setting) :
    (layout.overlaid given).Tidy := by
  induction given generalizing layout with
  | nil => exact h
  | cons setting given ih => exact ih (h.assign_tidied setting)

/-- **A layout that loads is the standard one under the settings of its overlay**, and
under none when there is no overlay. -/
theorem exists_settings_of_load {disk : Disk} {root : Path} {config : Option Path}
    {layout : Layout} (h : (load disk root config).result = .ok layout) :
    ∃ given, (disk.overlayText? root config).elim (some []) Overlay.read? = some given ∧
      (standard root).overlaid given = layout := by
  have hoverlay : ∀ path, (loadOverlay disk root path).result = .ok layout →
      ∃ given, (disk.readText path).toOption.elim (some []) Overlay.read? = some given ∧
        (standard root).overlaid given = layout := by
    intro path hload
    rw [loadOverlay, Traced.result_bind] at hload
    obtain ⟨text, htext, hload⟩ := bind_eq_ok_iff.mp hload
    rw [ofDisk_eq_ok_iff.mp htext]
    split at hload
    · cases hload
    · next given hgiven => exact ⟨given, hgiven, Except.ok.inj hload⟩
  cases config with
  | some path => exact hoverlay path h
  | none =>
    rw [load] at h
    rw [Disk.overlayText?]
    split at h
    · next hthere =>
      simp only [hthere, if_true]
      exact hoverlay _ h
    · next hnone =>
      simp only [hnone]
      exact ⟨[], rfl, Except.ok.inj h⟩

/-- **Every layout that loads is tidy.** -/
theorem tidy_of_load {disk : Disk} {root : Path} {config : Option Path} {layout : Layout}
    (h : (load disk root config).result = .ok layout) : layout.Tidy := by
  obtain ⟨given, -, rfl⟩ := exists_settings_of_load h
  exact (tidy_standard root).overlaid given

end Layout

/-! ## Paths that end in a slash -/

namespace FileSystem

/-- A directory stands at the location. -/
def IsDirectory (root : Node) (place : Location) : Prop :=
  ∃ entries, root.at? place = some (.directory entries)

theorem isDirectory_of_entries {root : Node} {place : Location}
    {entries : List (FileName × Node)}
    (h : (root.at? place).bind Node.entries? = some entries) : IsDirectory root place := by
  obtain ⟨node, hnode, hentries⟩ := Option.bind_eq_some_iff.mp h
  cases node with
  | directory => exact ⟨_, hnode⟩
  | _ => cases hentries

/-- A walk that ends in a step on the spot ends at a directory, if what a link leads to
does. -/
theorem isDirectory_of_walk {root : Node} {jump : Location → List Step → Except Cause Location}
    (hjump : ∀ place steps location,
      jump place (steps ++ [.here]) = .ok location → IsDirectory root location)
    {steps : List Step} {place location : Location}
    (h : walk root jump place (steps ++ [.here]) = .ok location) :
    IsDirectory root location := by
  induction steps generalizing place with
  | nil =>
    rw [List.nil_append, walk] at h
    split at h
    · cases h
    · next entries hentries =>
      obtain rfl : place = location := by simpa [walk] using h
      exact isDirectory_of_entries hentries
  | cons step steps ih =>
    rw [List.cons_append, walk] at h
    split at h
    · cases h
    · cases step with
      | here => exact ih h
      | up => exact ih h
      | down name =>
        replace h : (if name.length > maxName then _ else _) = _ := h
        split at h
        · cases h
        · split at h
          · cases h
          · next target _ =>
            rw [← List.append_assoc] at h
            exact hjump _ _ _ h
          · exact ih h

/-- **However many links are followed.** -/
theorem isDirectory_of_follow {root : Node} (links : Nat) {steps : List Step}
    {place location : Location} (h : follow root links place (steps ++ [.here]) = .ok location) :
    IsDirectory root location := by
  induction links generalizing steps place location with
  | zero => exact isDirectory_of_walk (by simp) h
  | succ links ih => exact isDirectory_of_walk (fun _ _ _ hjump => ih hjump) h

/-- What a path leads to stands where its steps end. -/
theorem exists_location_of_locate {fs : FileSystem} {path : Path} {node : Node}
    (h : fs.locate path = .ok node) :
    ∃ location, follow fs.root maxLinks (fs.start path) path.steps = .ok location ∧
      fs.root.at? location = some node := by
  rw [locate] at h
  -- an empty path, a NUL, and a path that is too long are refused before the walk
  iterate 3
    split at h
    · cases h
  split at h
  · cases h
  · next location hfollow =>
    refine ⟨location, hfollow, ?_⟩
    split at h
    · cases h
    · next found hat => rw [hat, Except.ok.inj h]

theorem isDirectory_of_locate {fs : FileSystem} {path : Path} {node : Node}
    (hslash : path.bytes.getLast? = some Path.slash) (h : fs.locate path = .ok node) :
    ∃ entries, node = .directory entries := by
  obtain ⟨location, hfollow, hat⟩ := exists_location_of_locate h
  rw [Path.steps, if_pos hslash] at hfollow
  obtain ⟨entries, hdirectory⟩ := isDirectory_of_follow maxLinks hfollow
  exact ⟨entries, Option.some.inj (hat.symm.trans hdirectory)⟩

/-- No text is read by a path that is empty or ends in a slash. -/
theorem readText_ne_ok {fs : FileSystem} {path : Path}
    (hpath : path.bytes = [] ∨ path.bytes.getLast? = some Path.slash) (text : String) :
    fs.readText path ≠ .ok text := by
  intro hread
  rcases hpath with hempty | hslash
  · simp [readText, locate, hempty] at hread
  · rw [readText] at hread
    split at hread
    · cases hread
    · next hlocate => exact nomatch isDirectory_of_locate hslash hlocate
    · next hlocate => exact nomatch isDirectory_of_locate hslash hlocate
    · cases hread
    · cases hread

end FileSystem

/-- The empty path joined to another one is empty or ends in a slash. -/
theorem Path.join_empty (base : Path) : (base.join (.ofString "")).bytes = [] ∨
    (base.join (.ofString "")).bytes.getLast? = some slash := by
  have hbytes : (ofString "").bytes = [] := rfl
  have habsolute : (ofString "").isAbsolute = false := rfl
  rw [join, habsolute, if_neg Bool.false_ne_true]
  split
  · next hbase => simpa [hbytes] using hbase
  · exact Or.inr (by simp [hbytes])

/-- **Documents that load have paths.** -/
theorem Documents.path_ne_of_load {fs : FileSystem} {layout : Layout} {documents : Documents}
    (h : (load fs.disk layout).result = .ok documents) (kind : DocumentKind) :
    layout.documentPath kind ≠ .ofString "" := by
  intro hempty
  obtain ⟨hapi, happlication⟩ := load_ok_iff.mp h
  have hslash := Path.join_empty layout.root
  rw [← hempty] at hslash
  cases kind with
  | api => exact FileSystem.readText_ne_ok hslash _ hapi
  | application => exact FileSystem.readText_ne_ok hslash _ happlication

end DocCoverage
