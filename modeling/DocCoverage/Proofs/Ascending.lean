import DocCoverage.Proofs.ByteOrder
import DocCoverage.Proofs.Coverage
import DocCoverage.Proofs.Inputs
import DocCoverage.Proofs.Relisted

/-! # The order in which identifiers are returned

Every collector comes upon names in some order, perhaps upon one name several times, and
returns them as a set.  What it returns lists the names (`Identifiers.Lists`): each of them
once, in the order of the bytes, which is that of the code points.  Only one sequence lists
given names (`Identifiers.Lists.unique`), so how the names were come upon does not show in
it.  The critical commands come from three places; their union lists the names of all three
(`Collect.lists_criticalCommands`).  What a document does not mention of such a sequence is
in order as well, being left of it (`Identifiers.InOrder.unmentioned`). -/

namespace DocCoverage

namespace Identifiers

/-- The names ascend, compared byte by byte and compared by their code points, and so none of
them is there twice. -/
structure InOrder (found : List String) : Prop where
  bytes : found.Pairwise fun s t => Text.encode s < Text.encode t
  codePoints : found.Pairwise fun s t => s.toList.map Char.toNat < t.toList.map Char.toNat
  nodup : found.Nodup

/-- A sequence has the given names and no others, in order. -/
structure Lists (names found : List String) : Prop extends InOrder found where
  mem_iff : ∀ name, name ∈ found ↔ name ∈ names

theorem inOrder_iff {found : List String} : InOrder found ↔ found.Pairwise (· < ·) where
  mp h := h.bytes.imp Text.encode_lt_iff.mp
  mpr h :=
    { bytes := h.imp Text.encode_lt_iff.mpr
      codePoints := h.imp Text.codePoints_lt_iff.mpr
      nodup := h.imp fun hlt => String.ne_of_lt hlt }

/-- **Only one sequence lists given names**, in whatever order and however often they are
given. -/
theorem Lists.unique {names others found found' : List String} (h : Lists names found)
    (h' : Lists others found') (hsame : ∀ name, name ∈ names ↔ name ∈ others) :
    found = found' := by
  refine eq_of_ascending (inOrder_iff.mp h.toInOrder) (inOrder_iff.mp h'.toInOrder) fun name => ?_
  rw [h.mem_iff, h'.mem_iff, hsame]

theorem lists_ofList (names : List String) : Lists names (ofList names) where
  toInOrder := inOrder_iff.mpr (ascending_ofList names)
  mem_iff _ := mem_ofList

theorem Lists.union {names others found found' : List String} (h : Lists names found)
    (h' : Lists others found') : Lists (names ++ others) (union found found') where
  toInOrder := inOrder_iff.mpr (ascending_union _ (inOrder_iff.mp h'.toInOrder))
  mem_iff name := by rw [mem_union, h.mem_iff, h'.mem_iff, List.mem_append]

/-- What is left of a sequence in order is in order. -/
theorem InOrder.unmentioned {found : List String} (h : InOrder found) (text : String) :
    (unmentioned found text).Sublist found ∧ InOrder (unmentioned found text) := by
  have hsublist : (DocCoverage.unmentioned found text).Sublist found := List.filter_sublist
  exact ⟨hsublist, inOrder_iff.mpr ((inOrder_iff.mp h).sublist hsublist)⟩

end Identifiers

open Identifiers

/-- The names with a beginning that a source declares, as often as it declares them. -/
def namesIn (source beginning : String) : List String :=
  ((Declaration.all source.toList).map fun d => String.ofList d.name).filter fun name =>
    beginning.toList.isPrefixOf name.toList

theorem lists_declaredNames (source beginning : String) :
    Lists (namesIn source beginning) (declaredNames source beginning) where
  toInOrder := inOrder_iff.mpr (ascending_ofList _)
  mem_iff name := by
    rw [mem_declaredNames, namesIn, List.mem_filter, List.mem_map, List.isPrefixOf_iff_prefix]
    refine and_congr_left fun _ => exists_congr fun d => and_congr_right fun _ => ?_
    exact ⟨fun h => by rw [h, String.ofList_toList], fun h => by rw [← h, String.toList_ofList]⟩

namespace Collect

variable {disk : Disk} {layout : Layout} {found : List String}

theorem lists_controllers (h : (controllers disk layout).result = .ok found) :
    ∃ stems, (Scan.stems disk (layout.resolve layout.controllersDir) layout.sourceExtension
        .shallow).result = .ok stems ∧ Lists (stems.filter (isController layout)) found := by
  rw [result_controllers] at h
  obtain ⟨stems, hstems, rfl⟩ := map_eq_ok_iff.mp h
  exact ⟨stems, hstems, lists_ofList _⟩

theorem lists_policies (h : (policies disk layout).result = .ok found) :
    ∃ source, disk.readText (layout.resolve layout.policiesFile) = .ok source ∧
      Lists (namesIn source layout.policyBeginning) found := by
  rw [result_policies] at h
  obtain ⟨source, hsource, rfl⟩ := map_eq_ok_iff.mp h
  exact ⟨source, ofDisk_eq_ok_iff.mp hsource, lists_declaredNames _ _⟩

theorem lists_commands {dir : Path} {extension : String} {depth : Depth}
    (h : (commands disk dir extension depth).result = .ok found) :
    ∃ stems, (Scan.stems disk dir extension depth).result = .ok stems ∧
      Lists (stems.filter isCommand) found := by
  rw [result_commands] at h
  obtain ⟨stems, hstems, rfl⟩ := map_eq_ok_iff.mp h
  exact ⟨stems, hstems, lists_ofList _⟩

/-- The critical commands list what is pinned together with what both scans come upon. -/
theorem lists_criticalCommands (h : (criticalCommands disk layout).result = .ok found) :
    ∃ imported reported,
      (Scan.stems disk (layout.resolve layout.importsDir) layout.sourceExtension
        .recursive).result = .ok imported ∧
      (Scan.stems disk (layout.resolve layout.reportsDir) layout.sourceExtension
        .shallow).result = .ok reported ∧
      Lists (layout.pinnedCommands ++ (imported.filter isCommand ++ reported.filter isCommand))
        found := by
  obtain ⟨below, atTop, hbelow, hatTop, rfl⟩ := criticalCommands_ok_iff.mp h
  obtain ⟨imported, himported, hlists⟩ := lists_commands hbelow
  obtain ⟨reported, hreported, hlists'⟩ := lists_commands hatTop
  exact ⟨imported, reported, himported, hreported,
    (lists_ofList layout.pinnedCommands).union (hlists.union hlists')⟩

/-- What the collectors return under a layout lists what they come upon: the policies the names
that the policies file declares, the controllers and the commands of a directory the stems of a
scan that are chosen, and the critical commands all of what is pinned and what both scans
choose. -/
structure ListsFound (disk : Disk) (layout : Layout) : Prop where
  policies : ∀ found, (policies disk layout).result = .ok found → ∃ source,
    disk.readText (layout.resolve layout.policiesFile) = .ok source ∧
      Lists (namesIn source layout.policyBeginning) found
  controllers : ∀ found, (controllers disk layout).result = .ok found → ∃ stems,
    (Scan.stems disk (layout.resolve layout.controllersDir) layout.sourceExtension
        .shallow).result = .ok stems ∧ Lists (stems.filter (isController layout)) found
  commands : ∀ dir extension depth found, (commands disk dir extension depth).result = .ok found →
    ∃ stems, (Scan.stems disk dir extension depth).result = .ok stems ∧
      Lists (stems.filter isCommand) found
  criticalCommands : ∀ found, (criticalCommands disk layout).result = .ok found →
    ∃ imported reported,
      (Scan.stems disk (layout.resolve layout.importsDir) layout.sourceExtension
        .recursive).result = .ok imported ∧
      (Scan.stems disk (layout.resolve layout.reportsDir) layout.sourceExtension
        .shallow).result = .ok reported ∧
      Lists (layout.pinnedCommands ++ (imported.filter isCommand ++ reported.filter isCommand))
        found

theorem listsFound (disk : Disk) (layout : Layout) : ListsFound disk layout where
  policies _ := lists_policies
  controllers _ := lists_controllers
  commands _ _ _ _ := lists_commands
  criticalCommands _ := lists_criticalCommands

/-- On two disks the collectors end alike if the directories that they scan are listed alike but
for order and repetition; the pinned commands may be rearranged and repeated as well. -/
structure IgnoresOrder (disk other : Disk) (layout : Layout) : Prop where
  controllers : disk.Relists other (layout.resolve layout.controllersDir) →
    EndsAlike (controllers disk layout).result (controllers other layout).result
  commands : ∀ dir, disk.Relists other dir → ∀ extension depth,
    EndsAlike (commands disk dir extension depth).result
      (commands other dir extension depth).result
  criticalCommands : ∀ pinned, disk.Relists other (layout.resolve layout.importsDir) →
    disk.Relists other (layout.resolve layout.reportsDir) →
    (∀ name, name ∈ layout.pinnedCommands ↔ name ∈ pinned) →
      EndsAlike (criticalCommands disk layout).result
        (criticalCommands other { layout with pinnedCommands := pinned }).result

theorem ignoresOrder (disk other : Disk) (layout : Layout) : IgnoresOrder disk other layout where
  controllers := controllers_of_relists
  commands _ h := commands_of_relists h
  criticalCommands _ := criticalCommands_of_relists

/-- Declarations may be rearranged and repeated. -/
theorem declaredNames_of_same_declarations {source other : String}
    (h : ∀ d, d ∈ Declaration.all source.toList ↔ d ∈ Declaration.all other.toList)
    (beginning : String) : declaredNames source beginning = declaredNames other beginning := by
  refine (lists_declaredNames source beginning).unique (lists_declaredNames other beginning) ?_
  intro name
  simp only [namesIn, List.mem_filter, List.mem_map, h]

/-- **Identifiers are returned in the order of their bytes, whatever the order is in which
they are found.**  That order is the order of the code points.  Only one sequence lists given
names in it, each once, and on every disk and for every layout the collectors return that
one: of the names that a source declares, of the stems that a scan returns and the collector
chooses, and for critical commands of the pinned names and the chosen stems of both scans.
So rearranging or repeating what a scan meets, or the entries that a directory or one below
it is listed with, changes nothing in what a collector returns, nor whether it fails; neither
does rearranging or repeating what is pinned or declared.  What is missing of the sequence in a
document is left of it in order. -/
theorem returned_in_byte_order :
    (∀ s t : String, Text.encode s < Text.encode t ↔
      s.toList.map Char.toNat < t.toList.map Char.toNat) ∧
    (∀ names others found found', Lists names found → Lists others found' →
      (∀ name, name ∈ names ↔ name ∈ others) → found = found') ∧
    (∀ source beginning, Lists (namesIn source beginning) (declaredNames source beginning)) ∧
    (∀ disk layout, ListsFound disk layout) ∧
    (∀ source other beginning,
      (∀ d, d ∈ Declaration.all source.toList ↔ d ∈ Declaration.all other.toList) →
        declaredNames source beginning = declaredNames other beginning) ∧
    (∀ findings others : List Finding, (∀ finding, finding ∈ findings ↔ finding ∈ others) →
      ∀ dir extension choose, EndsAlike
        ((Scan.stemsOf dir extension findings).result.map fun stems =>
          ofList (stems.filter choose))
        ((Scan.stemsOf dir extension others).result.map fun stems =>
          ofList (stems.filter choose))) ∧
    (∀ disk other layout, IgnoresOrder disk other layout) ∧
    (∀ (matcher : Matcher) names found text missing, Lists names found →
      matcher.missing text found = .ok missing → missing.Sublist found ∧ InOrder missing) := by
  refine ⟨fun s t => Text.encode_lt_iff.trans Text.codePoints_lt_iff.symm,
    fun names others found found' h h' hsame => h.unique h' hsame, lists_declaredNames,
    listsFound, fun source other beginning h => declaredNames_of_same_declarations h beginning,
    fun findings others => Scan.chosen_of_same_findings, ignoresOrder, ?_⟩
  intro matcher names found text missing h hmissing
  obtain ⟨-, rfl⟩ := Matcher.missing_ok_iff.mp hmissing
  exact h.toInOrder.unmentioned text

/-- The entries of a directory with two commands. -/
def twoCommands : List (FileName × Entry) :=
  [(Text.encode "PingCommand.cs", .file), (Text.encode "～Command.cs", .file)]

/-- A disk where they lie in a directory below the imports, before another one. -/
def commandsFirst : Disk where
  leadsSomewhere _ := false
  readText _ := .ok ""
  entries path :=
    if path = .ofString "./src/TowerOps.Application/Commands/Imports" then
      .ok [(Text.encode "deep", .directory twoCommands), (Text.encode "😀Command.cs", .file)]
    else .ok []

/-- The same disk, listed from the end and with repetitions. -/
def commandsLast : Disk where
  leadsSomewhere _ := false
  readText _ := .ok ""
  entries path :=
    if path = .ofString "./src/TowerOps.Application/Commands/Imports" then
      .ok [(Text.encode "😀Command.cs", .file),
        (Text.encode "deep", .directory (twoCommands.reverse ++ twoCommands)),
        (Text.encode "😀Command.cs", .file)]
    else .ok []

theorem commandsLast_relists :
    commandsFirst.Relists commandsLast (.ofString "./src/TowerOps.Application/Commands/Imports") := by
  have hinner : Relisted twoCommands (twoCommands.reverse ++ twoCommands) :=
    .here fun pair => by simp
  refine .listed rfl rfl (.trans (@Relisted.inside [] _ _ _ _ hinner) ?_)
  refine .here fun pair => ?_
  simp only [List.nil_append, List.mem_cons, List.not_mem_nil, or_false]
  grind

/-- The commands are the same for both, in the order of their code points, in which U+FF5E
comes before U+1F600; and what is left of them by a document is in order. -/
theorem returned_commandsFirst :
    commandsFirst.Relists commandsLast
        (.ofString "./src/TowerOps.Application/Commands/Imports") ∧
      (criticalCommands commandsFirst (.pinning ["PingCommand", "PongCommand"])).result =
        .ok ["PingCommand", "PongCommand", "～Command", "😀Command"] ∧
      (criticalCommands commandsLast
          (.pinning ["PongCommand", "PingCommand", "PongCommand"])).result =
        .ok ["PingCommand", "PongCommand", "～Command", "😀Command"] ∧
      InOrder ["PingCommand", "PongCommand", "～Command", "😀Command"] ∧
      ∃ missing, Matcher.standard.missing "PongCommand"
          ["PingCommand", "PongCommand", "～Command", "😀Command"] = .ok missing ∧
        InOrder missing := by
  obtain ⟨-, -, -, hlists, -, -, hrearranged, hmissing⟩ := returned_in_byte_order
  have hreports : commandsFirst.Relists commandsLast
      (.ofString "./src/TowerOps.Application/Commands/Reports") :=
    .listed rfl rfl (.here fun _ => Iff.rfl)
  have hfirst : (criticalCommands commandsFirst
      (.pinning ["PingCommand", "PongCommand"])).result =
        .ok ["PingCommand", "PongCommand", "～Command", "😀Command"] := rfl
  have hpinned : ∀ name, name ∈ ["PingCommand", "PongCommand"] ↔
      name ∈ ["PongCommand", "PingCommand", "PongCommand"] := by
    intro name
    simp only [List.mem_cons, List.not_mem_nil, or_false]
    grind
  have hsame := (hrearranged commandsFirst commandsLast
    (.pinning ["PingCommand", "PongCommand"])).criticalCommands _ commandsLast_relists hreports
      hpinned
  obtain ⟨imported, reported, -, -, hfound⟩ := (hlists _ _).criticalCommands _ hfirst
  have haccepts : Matcher.standard.Accepts
      ["PingCommand", "PongCommand", "～Command", "😀Command"] := by
    decide +kernel
  have hleft := Matcher.missing_of_accepts haccepts "PongCommand"
  exact ⟨commandsLast_relists, hfirst, (hsame.ok_iff _).mp hfirst, hfound.toInOrder, _, hleft,
    (hmissing _ _ _ _ _ hfound hleft).2⟩

end Collect
end DocCoverage
