import DocCoverage.Proofs.Modes
import DocCoverage.Proofs.Occurrence

/-! # Identifiers on lines of their own

Putting an identifier on a line of its own is meant to document it.  It does when the
identifier begins and ends in a word: a line feed on either side then makes a boundary
(`mentions_of_standsAlone_iff`).  It does not when a character of no word stands at one
of its ends, since two neighbours that belong to no word make none.  Such an identifier
is mentioned only inside another one.  And no line helps an identifier that is refused.
`own_lines_pass_iff` says exactly for which inventories lines of their own are enough. -/

namespace DocCoverage

/-- Standing alone documents an identifier, whatever the rest of the text, exactly when
the identifier begins and ends in a word. -/
theorem mentions_of_standsAlone_iff {identifier : String} :
    (∀ text : String, StandsAlone text.toList identifier.toList →
        mentions text identifier = true) ↔ WordEnded identifier.toList := by
  rw [← occurs_self_iff]
  constructor
  · intro h
    exact mentions_iff.mp (h identifier ⟨[], [], by simp, Or.inl rfl, Or.inl rfl⟩)
  · intro h text halone
    exact mentions_iff.mpr (occurs_of_alone halone h)

/-! ## A document with wide gaps -/

/-- A text with each identifier on lines of its own and `k` line feeds behind each. -/
def apart (k : Nat) (identifiers : List String) : List Char :=
  identifiers.flatMap fun identifier => identifier.toList ++ List.replicate k '\n'

theorem apart_append (k : Nat) (xs ys : List String) :
    apart k (xs ++ ys) = apart k xs ++ apart k ys :=
  List.flatMap_append

theorem clear_getLast?_apart {k : Nat} (hk : 0 < k) (identifiers : List String) :
    Clear (apart k identifiers).getLast? := by
  rcases List.eq_nil_or_concat identifiers with rfl | ⟨init, last, rfl⟩
  · exact Or.inl rfl
  · right
    simp [apart, List.getLast?_append, List.getLast?_replicate, Nat.ne_of_gt hk]

theorem standsAlone_apart {k : Nat} (hk : 0 < k) {identifier : String}
    {identifiers : List String} (hmem : identifier ∈ identifiers) :
    StandsAlone (apart k identifiers) identifier.toList := by
  obtain ⟨before, behind, rfl⟩ := List.append_of_mem hmem
  refine ⟨apart k before, List.replicate k '\n' ++ apart k behind, ?_,
    clear_getLast?_apart hk before, ?_⟩
  · rw [apart_append]
    simp [apart]
  · obtain ⟨j, rfl⟩ := Nat.exists_eq_succ_of_ne_zero (Nat.ne_of_gt hk)
    exact Or.inr rfl

/-- What occurs in a text with wide gaps occurs in one of its identifiers. -/
theorem occurs_of_apart {k : Nat} {token : List Char} (hk : token.length < k)
    {identifiers : List String} (h : Occurs token (apart k identifiers)) :
    ∃ other ∈ identifiers, Occurs token other.toList := by
  induction identifiers with
  | nil =>
    obtain ⟨before, behind, hsplit, hopens, -⟩ := h
    obtain ⟨rfl, rfl, rfl⟩ : before = [] ∧ token = [] ∧ behind = [] := by
      simpa [apart] using hsplit.symm
    cases hopens
  | cons identifier rest ih =>
    have hcons : apart k (identifier :: rest) =
        identifier.toList ++ (List.replicate k '\n' ++ apart k rest) := by
      simp [apart]
    rw [hcons] at h
    rcases occurs_of_gap hk h with hhere | hlater
    · exact ⟨identifier, List.mem_cons_self, hhere⟩
    · obtain ⟨other, hother, hoccurs⟩ := ih hlater
      exact ⟨other, List.mem_cons_of_mem _ hother, hoccurs⟩

/-- Identifiers are shorter than some number of line feeds. -/
theorem exists_longer (identifiers : List String) :
    ∃ k, 0 < k ∧ ∀ identifier ∈ identifiers, identifier.toList.length < k := by
  induction identifiers with
  | nil => exact ⟨1, Nat.one_pos, by simp⟩
  | cons identifier rest ih =>
    obtain ⟨k, hk, hrest⟩ := ih
    refine ⟨k + identifier.toList.length + 1, by omega, ?_⟩
    intro other hother
    rcases List.mem_cons.mp hother with rfl | hother
    · omega
    · have hlength := hrest other hother
      omega

/-! ## Checks -/

/-- The identifiers that belong in one document. -/
def Inventory.inDocument (inventory : Inventory) (kind : DocumentKind) : List String :=
  (Category.order.filter (·.document = kind)).flatMap inventory.identifiers

theorem Inventory.mem_inDocument {inventory : Inventory} {kind : DocumentKind}
    {identifier : String} :
    identifier ∈ inventory.inDocument kind ↔
      ∃ category : Category, category.document = kind ∧
        identifier ∈ inventory.identifiers category := by
  simp only [inDocument, List.mem_flatMap, List.mem_filter, decide_eq_true_eq]
  constructor
  · rintro ⟨category, ⟨-, hkind⟩, hmem⟩
    exact ⟨category, hkind, hmem⟩
  · rintro ⟨category, hkind, hmem⟩
    exact ⟨category, ⟨category.mem_order, hkind⟩, hmem⟩

/-- A check in either mode passes without a gap exactly when the documents cover the
inventory. -/
theorem Check.run_passes_iff {matcher : Matcher} {disk : Disk} {layout : Layout}
    {inventory : Inventory} (hcollect : (Inventory.collect disk layout).result = .ok inventory)
    (documents : Documents) (mode : Mode) :
    (∃ report, (run matcher disk layout documents mode).result = .ok report ∧
        report.failures = [] ∧ report.status = .passed) ↔
      inventory.CoveredBy matcher documents := by
  have hinventory : (∃ other, (Inventory.collect disk layout).result = .ok other ∧
      other.CoveredBy matcher documents) ↔ inventory.CoveredBy matcher documents := by
    simp [hcollect]
  rw [← hinventory, ← passes_iff_coveredBy, ← Category.forall_mem_order,
    ← evaluateAll_passes_iff mode]
  constructor
  · rintro ⟨report, hrun, hfailures, -⟩
    obtain ⟨results, hresults, rfl⟩ := run_ok_iff.mp hrun
    refine ⟨results, hresults, List.all_eq_true.mpr fun result hresult => ?_⟩
    simpa using List.filter_eq_nil_iff.mp hfailures result hresult
  · rintro ⟨results, hresults, hall⟩
    refine ⟨reportOf results, run_ok_iff.mpr ⟨results, hresults, rfl⟩, ?_, ?_⟩
    · refine List.filter_eq_nil_iff.mpr fun result hresult => ?_
      simp [List.all_eq_true.mp hall result hresult]
    · simp [reportOf, hall]

/-- **When lines of their own are enough.**  Any two documents in which each identifier
stands alone make a check pass exactly when each identifier is accepted, and begins and ends in
a word or is mentioned by another identifier of the same document. -/
theorem own_lines_pass_iff {matcher : Matcher} {disk : Disk} {layout : Layout}
    {inventory : Inventory} (hcollect : (Inventory.collect disk layout).result = .ok inventory)
    (mode : Mode) :
    (∀ documents : Documents,
        (∀ category, ∀ identifier ∈ inventory.identifiers category,
          StandsAlone (documents.text category.document).toList identifier.toList) →
        ∃ report, (Check.run matcher disk layout documents mode).result = .ok report ∧
          report.failures = [] ∧ report.status = .passed) ↔
      ∀ category, ∀ identifier ∈ inventory.identifiers category,
        matcher.refusal? identifier = none ∧
          (WordEnded identifier.toList ∨
            ∃ category' : Category, category'.document = category.document ∧
              ∃ other ∈ inventory.identifiers category',
                other ≠ identifier ∧ mentions other identifier = true) := by
  simp only [Check.run_passes_iff hcollect]
  constructor
  · intro h category identifier hmem
    obtain ⟨k, hk, hlonger⟩ :=
      exists_longer (inventory.inDocument .api ++ inventory.inDocument .application)
    have hshort : ∀ kind, ∀ identifier ∈ inventory.inDocument kind,
        identifier.toList.length < k := by
      intro kind identifier hmem
      cases kind with
      | api => exact hlonger identifier (List.mem_append_left _ hmem)
      | application => exact hlonger identifier (List.mem_append_right _ hmem)
    -- both documents list their identifiers with gaps that no identifier spans
    let documents : Documents :=
      ⟨String.ofList (apart k (inventory.inDocument .api)),
        String.ofList (apart k (inventory.inDocument .application))⟩
    have htext : ∀ kind, (documents.text kind).toList = apart k (inventory.inDocument kind) := by
      intro kind
      cases kind <;> exact String.toList_ofList
    have hcovered : inventory.CoveredBy matcher documents := by
      refine h documents fun category identifier hmem => ?_
      rw [htext]
      exact standsAlone_apart hk (Inventory.mem_inDocument.mpr ⟨category, rfl, hmem⟩)
    obtain ⟨haccepted, hmentions⟩ := Matcher.finds_true_iff.mp (hcovered category identifier hmem)
    refine ⟨haccepted, ?_⟩
    rw [mentions_iff, htext] at hmentions
    obtain ⟨other, hother, hoccurs⟩ := occurs_of_apart
      (hshort category.document identifier
        (Inventory.mem_inDocument.mpr ⟨category, rfl, hmem⟩)) hmentions
    by_cases heq : other = identifier
    · subst heq
      exact Or.inl (occurs_self_iff.mp hoccurs)
    · obtain ⟨category', hkind, hmem'⟩ := Inventory.mem_inDocument.mp hother
      exact Or.inr ⟨category', hkind, other, hmem', heq, mentions_iff.mpr hoccurs⟩
  · intro h documents halone category identifier hmem
    obtain ⟨haccepted, hstands⟩ := h category identifier hmem
    refine Matcher.finds_true_iff.mpr ⟨haccepted, ?_⟩
    rcases hstands with hended | ⟨category', hkind, other, hmem', -, hother⟩
    · exact mentions_of_standsAlone_iff.mpr hended _ (halone category identifier hmem)
    · have halone' := halone category' other hmem'
      rw [hkind] at halone'
      exact mentions_iff.mpr (occurs_of_alone halone' (mentions_iff.mp hother))

/-- The identifiers of the documented disk begin and end in words, so a list of them is
enough. -/
theorem own_lines_pass_documented :
    (Inventory.collect Program.documented (.standard (.ofString "."))).result =
        .ok Program.documentedInventory ∧
      ∃ report, (Check.run .standard Program.documented (.standard (.ofString "."))
          ⟨String.ofList (apart 1 Program.documentedInventory.controllers),
            String.ofList (apart 1 Program.documentedInventory.criticalCommands)⟩
          .failFast).result = .ok report ∧ report.failures = [] ∧ report.status = .passed := by
  refine ⟨Program.collect_documented,
    (own_lines_pass_iff Program.collect_documented .failFast).mpr ?_ _ ?_⟩
  · intro category
    have hended : ∀ identifier ∈ Program.documentedInventory.identifiers category,
        Matcher.standard.refusal? identifier = none ∧ WordEnded identifier.toList := by
      unfold WordEnded
      cases category <;> decide +kernel
    exact fun identifier hmem => ⟨(hended identifier hmem).1, Or.inl (hended identifier hmem).2⟩
  · intro category identifier hmem
    cases category with
    | controllers =>
      rw [show Category.controllers.document = .api from rfl, Documents.text,
        String.toList_ofList]
      exact standsAlone_apart Nat.one_pos hmem
    | policies => cases hmem
    | criticalCommands =>
      rw [show Category.criticalCommands.document = .application from rfl, Documents.text,
        String.toList_ofList]
      exact standsAlone_apart Nat.one_pos hmem

/-- A disk without sources and with an overlay that pins one command, `@PingCommand`. -/
def pinningSign : Disk := .pinningBy "critical_manual_commands = [\"@PingCommand\"]\n"

/-- What a check finds there. -/
def pinnedReport : Report where
  status := .failed
  results :=
    [⟨.controllers, "Missing controllers in docs/Api-Doc.md:", "docs/Api-Doc.md", 0, []⟩,
      ⟨.policies, "Missing policies in docs/Api-Doc.md:", "docs/Api-Doc.md", 0, []⟩,
      ⟨.criticalCommands, "Missing critical commands in docs/Application-Doc.md:",
        "docs/Application-Doc.md", 1, ["@PingCommand"]⟩]

/-- **A line of its own is not always enough.**  The pinned command is the only line of
its document and counts as missing: neither the start of the text nor the sign at the
start of the command belongs to a word. -/
theorem own_line_not_mentioned :
    (Layout.load pinningSign (.ofString ".") none).result = .ok (.pinning ["@PingCommand"]) ∧
      (Inventory.collect pinningSign (.pinning ["@PingCommand"])).result =
        .ok ⟨[], [], ["@PingCommand"]⟩ ∧
      (∀ category, ∀ identifier ∈
          (Inventory.mk [] [] ["@PingCommand"]).identifiers category,
        StandsAlone ((Documents.mk "" "@PingCommand\n").text category.document).toList
          identifier.toList) ∧
      (Check.run .standard pinningSign (.pinning ["@PingCommand"]) ⟨"", "@PingCommand\n"⟩
        .keepGoing).result = .ok pinnedReport := by
  have hcollect : (Inventory.collect pinningSign (.pinning ["@PingCommand"])).result =
      .ok ⟨[], [], ["@PingCommand"]⟩ := Inventory.collect_of_empty_policies rfl rfl rfl
  refine ⟨rfl, hcollect, ?_, ?_⟩
  · intro category identifier hmem
    cases category with
    | controllers => cases hmem
    | policies => cases hmem
    | criticalCommands =>
      obtain rfl : identifier = "@PingCommand" := List.mem_singleton.mp hmem
      exact ⟨[], ['\n'], by decide, Or.inl rfl, Or.inr rfl⟩
  · have hcategory := Inventory.collect_ok_iff.mp hcollect
    rw [Check.result_run]
    simp only [Category.order, Check.result_evaluateAll_cons, Check.result_evaluate, hcategory]
    rfl

end DocCoverage
