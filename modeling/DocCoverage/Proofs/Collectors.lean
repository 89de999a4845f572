import DocCoverage.Inventory
import DocCoverage.Proofs.Declarations
import DocCoverage.Proofs.Results

/-! # What the collectors return

Each collector scans or reads what it is given and computes a set of identifiers from
that.  The equations here say which, without the events that are reported on the way.
Whatever is collected is an ascending list (`ascending_ofCategory`), and an identifier is
critical for any of three reasons (`mem_criticalCommands`), which do not add up.  No
identifier is empty (`empty_notMem_ofCategory`): a stem is chosen by its ending, a declared
name is a word, and a layout pins no empty name. -/

namespace DocCoverage

/-- A last step that only computes maps the value. -/
theorem Traced.result_bind_pure {α β : Type} (step : Traced α) (f : α → β) :
    (step >>= fun a => pure (f a)).result = step.result.map f := by
  rcases step with ⟨events, _ | a⟩ <;> rfl

namespace Collect

variable (disk : Disk) (layout : Layout)

/-- The controllers among the stems of their directory. -/
theorem result_controllers :
    (controllers disk layout).result =
      (Scan.stems disk (layout.resolve layout.controllersDir) layout.sourceExtension
        .shallow).result.map fun stems =>
          Identifiers.ofList (stems.filter (isController layout)) := by
  simp only [controllers, Traced.result_bind]
  cases (Scan.stems disk (layout.resolve layout.controllersDir) layout.sourceExtension
      .shallow).result with
  | error fault => rfl
  | ok stems =>
    simp only [Except.bind, Except.map]
    -- an empty set is reported and returned all the same
    split <;> rfl

/-- The names that the policies file declares. -/
theorem result_policies :
    (policies disk layout).result =
      (Traced.ofDisk (layout.resolve layout.policiesFile)
        (disk.readText (layout.resolve layout.policiesFile))).result.map fun source =>
          declaredNames source layout.policyBeginning := by
  simp only [policies, Traced.result_bind]
  cases (Traced.ofDisk (layout.resolve layout.policiesFile)
      (disk.readText (layout.resolve layout.policiesFile))).result <;> rfl

/-- The commands among the stems of a directory. -/
theorem result_commands (dir : Path) (extension : String) (depth : Depth) :
    (commands disk dir extension depth).result =
      (Scan.stems disk dir extension depth).result.map fun stems =>
        Identifiers.ofList (stems.filter isCommand) := by
  simp only [commands, Traced.result_bind]
  cases (Scan.stems disk dir extension depth).result <;> rfl

/-- The pinned commands with those of the imports and then those of the reports. -/
theorem result_criticalCommands :
    (criticalCommands disk layout).result =
      (commands disk (layout.resolve layout.importsDir) layout.sourceExtension
        .recursive).result.bind fun imported =>
          (commands disk (layout.resolve layout.reportsDir) layout.sourceExtension
            .shallow).result.map fun reported =>
              Identifiers.union (Identifiers.ofList layout.pinnedCommands)
                (Identifiers.union imported reported) := by
  simp only [criticalCommands, Traced.result_bind]
  cases (commands disk (layout.resolve layout.importsDir) layout.sourceExtension
      .recursive).result with
  | error fault => rfl
  | ok imported =>
    simp only [Except.bind]
    cases (commands disk (layout.resolve layout.reportsDir) layout.sourceExtension
      .shallow).result <;> rfl

/-! ## What is collected -/

variable {disk layout}

/-- The critical commands are found when both directories can be scanned. -/
theorem criticalCommands_ok_iff {found : List String} :
    (criticalCommands disk layout).result = .ok found ↔ ∃ imported reported,
      (commands disk (layout.resolve layout.importsDir) layout.sourceExtension
        .recursive).result = .ok imported ∧
      (commands disk (layout.resolve layout.reportsDir) layout.sourceExtension
        .shallow).result = .ok reported ∧
      Identifiers.union (Identifiers.ofList layout.pinnedCommands)
        (Identifiers.union imported reported) = found := by
  rw [result_criticalCommands]
  simp only [bind_eq_ok_iff, map_eq_ok_iff, exists_and_left]

/-- A command is critical when it is pinned, found among the imports or found among the
reports. -/
theorem mem_criticalCommands {pinned imported reported : List String} {identifier : String} :
    identifier ∈ Identifiers.union (Identifiers.ofList pinned)
        (Identifiers.union imported reported) ↔
      identifier ∈ pinned ∨ identifier ∈ imported ∨ identifier ∈ reported := by
  simp

theorem ascending_commands {dir : Path} {extension : String} {depth : Depth}
    {found : List String} (h : (commands disk dir extension depth).result = .ok found) :
    found.Pairwise (· < ·) := by
  rw [result_commands] at h
  obtain ⟨stems, -, rfl⟩ := map_eq_ok_iff.mp h
  exact Identifiers.ascending_ofList _

/-- **The identifiers of a category are ascending**, so each of them is there once. -/
theorem ascending_ofCategory {category : Category} {identifiers : List String}
    (h : (ofCategory disk layout category).result = .ok identifiers) :
    identifiers.Pairwise (· < ·) := by
  cases category with
  | controllers =>
    rw [ofCategory, result_controllers] at h
    obtain ⟨stems, -, rfl⟩ := map_eq_ok_iff.mp h
    exact Identifiers.ascending_ofList _
  | policies =>
    rw [ofCategory, result_policies] at h
    obtain ⟨source, -, rfl⟩ := map_eq_ok_iff.mp h
    exact Identifiers.ascending_ofList _
  | criticalCommands =>
    obtain ⟨imported, reported, -, hreported, rfl⟩ := criticalCommands_ok_iff.mp h
    exact Identifiers.ascending_union _
      (Identifiers.ascending_union _ (ascending_commands hreported))

/-- **No identifier is empty**, if the layout pins no empty name. -/
theorem empty_notMem_ofCategory {category : Category} {identifiers : List String}
    (hpinned : "" ∉ layout.pinnedCommands)
    (h : (ofCategory disk layout category).result = .ok identifiers) : "" ∉ identifiers := by
  have hcommands : ∀ {dir extension depth found},
      (commands disk dir extension depth).result = .ok found → "" ∉ found := by
    intro dir extension depth found hfound
    rw [result_commands] at hfound
    obtain ⟨stems, -, rfl⟩ := map_eq_ok_iff.mp hfound
    have hempty : isCommand "" = false := by decide
    simp [hempty]
  cases category with
  | controllers =>
    rw [ofCategory, result_controllers] at h
    obtain ⟨stems, -, rfl⟩ := map_eq_ok_iff.mp h
    have hempty : isController layout "" = false := by simp [isController, endsIn]
    simp [hempty]
  | policies =>
    rw [ofCategory, result_policies] at h
    obtain ⟨source, -, rfl⟩ := map_eq_ok_iff.mp h
    intro hmem
    obtain ⟨⟨d, hd, hname⟩, -⟩ := mem_declaredNames.mp hmem
    exact (Declaration.wellFormed_of_mem_all hd).name_ne hname
  | criticalCommands =>
    obtain ⟨imported, reported, himported, hreported, rfl⟩ := criticalCommands_ok_iff.mp h
    rw [mem_criticalCommands]
    rintro (hempty | hempty | hempty)
    · exact hpinned hempty
    · exact hcommands himported hempty
    · exact hcommands hreported hempty

end Collect

namespace Inventory

variable {disk : Disk} {layout : Layout}

/-- An inventory is collected one category after the other. -/
theorem result_collect :
    (collect disk layout).result =
      (Collect.controllers disk layout).result.bind fun controllers =>
        (Collect.policies disk layout).result.bind fun policies =>
          (Collect.criticalCommands disk layout).result.map fun commands =>
            ⟨controllers, policies, commands⟩ := by
  rw [collect, Traced.result_bind]
  refine congrArg _ (funext fun controllers => ?_)
  rw [Traced.result_bind]
  exact congrArg _ (funext fun policies => Traced.result_bind_pure _ _)

/-- An inventory is collected exactly when every category is, with the same identifiers. -/
theorem collect_ok_iff {inventory : Inventory} :
    (collect disk layout).result = .ok inventory ↔
      ∀ category, (Collect.ofCategory disk layout category).result =
        .ok (inventory.identifiers category) := by
  rw [result_collect]
  constructor
  · intro h
    obtain ⟨controllers, hcontrollers, h⟩ := bind_eq_ok_iff.mp h
    obtain ⟨policies, hpolicies, h⟩ := bind_eq_ok_iff.mp h
    obtain ⟨commands, hcommands, rfl⟩ := map_eq_ok_iff.mp h
    intro category
    cases category with
    | controllers => exact hcontrollers
    | policies => exact hpolicies
    | criticalCommands => exact hcommands
  · intro h
    refine bind_eq_ok_iff.mpr ⟨_, h .controllers, ?_⟩
    refine bind_eq_ok_iff.mpr ⟨_, h .policies, ?_⟩
    exact map_eq_ok_iff.mpr ⟨_, h .criticalCommands, rfl⟩

end Inventory
end DocCoverage
