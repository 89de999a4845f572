import DocCoverage.Proofs.Collectors
import DocCoverage.Proofs.Findings

/-! # Listings in another order

A directory is listed in no particular order, and nothing keeps a listing from giving an
entry twice.  Listings that differ in that only, at the top or in a directory below, are
related by `Relisted`; the relation is generated by what may happen to one directory, so
that a statement about it is proved by induction on where it happens.

A scan meets the same findings in such listings (`Relisted.mem_inDirectory_iff`), in another
order and not as often.  The stems that it returns differ in that as well, but not in which
there are, and neither does what is chosen among them differ (`Scan.chosen_of_same_findings`).
Hence every collector returns the same, or fails in both cases; which directory it is that
stops a scan may then depend on the order (`EndsAlike`). -/

namespace DocCoverage

/-- Two listings hold the same entries, in any order and any number of times, and so do the
listings of the directories below. -/
inductive Relisted : List (FileName × Entry) → List (FileName × Entry) → Prop
  | here {entries others : List (FileName × Entry)}
      (h : ∀ pair, pair ∈ entries ↔ pair ∈ others) : Relisted entries others
  | inside {before after inner inner' : List (FileName × Entry)} {name : FileName}
      (h : Relisted inner inner') :
      Relisted (before ++ (name, .directory inner) :: after)
        (before ++ (name, .directory inner') :: after)
  | trans {entries others more : List (FileName × Entry)} (h : Relisted entries others)
      (h' : Relisted others more) : Relisted entries more

/-- Two disks list a directory alike but for that, or refuse it for the same cause. -/
inductive Disk.Relists (disk other : Disk) (dir : Path) : Prop
  | listed {entries others : List (FileName × Entry)} (h : disk.entries dir = .ok entries)
      (h' : other.entries dir = .ok others) (hsame : Relisted entries others)
  | refused {cause : Cause} (h : disk.entries dir = .error cause)
      (h' : other.entries dir = .error cause)

/-- **A scan meets the same in listings that differ in order and repetition only.** -/
theorem Relisted.mem_inDirectory_iff {entries others : List (FileName × Entry)}
    (h : Relisted entries others) (depth : Depth) (dir : Path) (finding : Finding) :
    finding ∈ Finding.inDirectory depth dir entries ↔
      finding ∈ Finding.inDirectory depth dir others := by
  induction h generalizing dir with
  | here h => simp only [Finding.mem_inDirectory, h]
  | @inside before after inner inner' name h ih =>
    -- only a deep scan looks into the directory
    have hthere : finding ∈ Finding.atEntry depth (dir.join (.ofName name)) name
          (.directory inner) ↔
        finding ∈ Finding.atEntry depth (dir.join (.ofName name)) name (.directory inner') := by
      cases depth with
      | shallow => exact Iff.rfl
      | recursive => simpa only [Finding.atEntry_directory] using ih _
    simp only [Finding.mem_inDirectory_iff_exists_mem, List.mem_append, List.mem_cons,
      or_and_right, exists_or, exists_eq_left, hthere]
  | trans _ _ ih ih' => exact (ih dir).trans (ih' dir)

/-- Two outcomes are the same, or scans of the same directory have been stopped in both cases,
each of them by a directory below. -/
inductive EndsAlike {α : Type} : Except Fault α → Except Fault α → Prop
  | same (outcome : Except Fault α) : EndsAlike outcome outcome
  | stopped (path closedPath closedPath' : Path) (cause cause' : Cause) :
      EndsAlike (.error (.walk path closedPath cause)) (.error (.walk path closedPath' cause'))

namespace EndsAlike

variable {α β : Type} {one other : Except Fault α}

/-- Outcomes that are alike have the same value. -/
theorem ok_iff (h : EndsAlike one other) (a : α) : one = .ok a ↔ other = .ok a := by
  cases h with
  | same => rfl
  | stopped => exact iff_of_false nofun nofun

theorem map (h : EndsAlike one other) (f : α → β) : EndsAlike (one.map f) (other.map f) := by
  cases h with
  | same => exact .same _
  | stopped => exact .stopped _ _ _ _ _

theorem bind {next next' : α → Except Fault β} (h : EndsAlike one other)
    (hnext : ∀ a, EndsAlike (next a) (next' a)) : EndsAlike (one.bind next) (other.bind next') := by
  cases h with
  | same =>
    cases one with
    | ok a => exact hnext a
    | error fault => exact .same _
  | stopped => exact .stopped _ _ _ _ _

end EndsAlike

namespace Scan

/-- **What is chosen among the stems depends on what is met**, not on how often and in which
order; and so does whether a scan fails. -/
theorem chosen_of_same_findings {findings others : List Finding}
    (h : ∀ finding, finding ∈ findings ↔ finding ∈ others) (dir : Path) (extension : String)
    (choose : String → Bool) :
    EndsAlike
      ((stemsOf dir extension findings).result.map fun stems =>
        Identifiers.ofList (stems.filter choose))
      ((stemsOf dir extension others).result.map fun stems =>
        Identifiers.ofList (stems.filter choose)) := by
  have hstopped : (Finding.firstClosed? findings).isSome = true ↔
      (Finding.firstClosed? others).isSome = true := by
    simp only [Finding.isSome_firstClosed?_iff, h]
  cases hone : Finding.firstClosed? findings with
  | some first =>
    obtain ⟨second, hother⟩ := Option.isSome_iff_exists.mp (hstopped.mp (by rw [hone]; rfl))
    rw [result_stemsOf_of_closed hone, result_stemsOf_of_closed hother]
    exact .stopped _ _ _ _ _
  | none =>
    have hother : Finding.firstClosed? others = none := by
      simpa [hone] using hstopped
    rw [result_stemsOf_of_open hone, result_stemsOf_of_open hother]
    have hchosen : Identifiers.ofList
          ((findings.filterMap (Finding.stem? extension)).filter choose) =
        Identifiers.ofList ((others.filterMap (Finding.stem? extension)).filter choose) := by
      refine Identifiers.ofList_eq_of_mem_iff fun stem => ?_
      simp only [List.mem_filter, List.mem_filterMap, h]
    simp only [Except.map, hchosen]
    exact .same _

variable {disk other : Disk} {dir : Path}

/-- Scans of a directory that is relisted end alike. -/
theorem chosen_of_relists (h : disk.Relists other dir) (extension : String) (depth : Depth)
    (choose : String → Bool) :
    EndsAlike
      ((Scan.stems disk dir extension depth).result.map fun stems =>
        Identifiers.ofList (stems.filter choose))
      ((Scan.stems other dir extension depth).result.map fun stems =>
        Identifiers.ofList (stems.filter choose)) := by
  simp only [Scan.stems, Traced.result_bind]
  cases h with
  | listed h h' hsame =>
    rw [h, h']
    exact chosen_of_same_findings (hsame.mem_inDirectory_iff depth dir) dir extension choose
  | refused h h' =>
    rw [h, h']
    exact .same _

end Scan

namespace Collect

variable {disk other : Disk} {layout : Layout}

theorem controllers_of_relists
    (h : disk.Relists other (layout.resolve layout.controllersDir)) :
    EndsAlike (controllers disk layout).result (controllers other layout).result := by
  rw [result_controllers, result_controllers]
  exact Scan.chosen_of_relists h _ _ _

theorem commands_of_relists {dir : Path} (h : disk.Relists other dir) (extension : String)
    (depth : Depth) :
    EndsAlike (commands disk dir extension depth).result
      (commands other dir extension depth).result := by
  rw [result_commands, result_commands]
  exact Scan.chosen_of_relists h _ _ _

/-- The pinned commands may be rearranged as well. -/
theorem criticalCommands_of_relists {pinned : List String}
    (himports : disk.Relists other (layout.resolve layout.importsDir))
    (hreports : disk.Relists other (layout.resolve layout.reportsDir))
    (hpinned : ∀ name, name ∈ layout.pinnedCommands ↔ name ∈ pinned) :
    EndsAlike (criticalCommands disk layout).result
      (criticalCommands other { layout with pinnedCommands := pinned }).result := by
  have hset := Identifiers.ofList_eq_of_mem_iff hpinned
  rw [result_criticalCommands, result_criticalCommands, hset]
  exact (commands_of_relists himports _ _).bind fun imported =>
    (commands_of_relists hreports _ _).map _

end Collect
end DocCoverage
