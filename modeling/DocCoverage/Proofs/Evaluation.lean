import DocCoverage.Check
import DocCoverage.Inventory
import DocCoverage.Proofs.Collectors
import DocCoverage.Proofs.Matching

/-! # What a check finds, category by category

A check is a loop over categories that may fail at every turn and, when it
stops at the first gap, may end before its last category.  This module says
once what one turn does (`result_evaluate`, `result_evaluateAll_cons`) and
derives from it what a whole check does in either mode: what its results are made
of (`exists_collected_of_mem`), when it passes (`evaluateAll_passes_iff`), how the
two modes relate (`evaluateAll_failFast_of_keepGoing`,
`evaluateAll_keepGoing_of_failFast_error`), and what a check that stops at the first
gap can return. -/

namespace DocCoverage

/-- All categories are those of the order of evaluation. -/
theorem Category.forall_mem_order {p : Category → Prop} :
    (∀ category ∈ order, p category) ↔ ∀ category, p category :=
  ⟨fun h category => h category category.mem_order, fun h category _ => h category⟩

/-- A result passes when nothing is missing. -/
theorem CategoryResult.passed_iff {result : CategoryResult} :
    result.passed = true ↔ result.missing = [] :=
  List.isEmpty_iff

/-- A report passed when its status says so. -/
theorem Report.passed_iff {report : Report} : report.passed = true ↔ report.status = .passed :=
  beq_iff_eq

namespace Check

variable (matcher : Matcher) (disk : Disk) (layout : Layout) (documents : Documents)

/-- The result of a category by its identifiers, if none of them is refused. -/
def resultOf (category : Category) (identifiers : List String) : CategoryResult where
  category := category
  title := category.title (layout.documentPath category.document)
  document := (layout.documentPath category.document).display
  checked := identifiers.length
  missing := unmentioned identifiers (documents.text category.document)

/-- A category passes when its document mentions each of its identifiers. -/
theorem passed_resultOf (category : Category) (identifiers : List String) :
    (resultOf layout documents category identifiers).passed = true ↔
      ∀ identifier ∈ identifiers,
        mentions (documents.text category.document) identifier = true := by
  rw [CategoryResult.passed_iff, resultOf, unmentioned_eq_nil_iff]

/-- Evaluating a category fails as collecting its identifiers does, or with the first of
them that is refused, and otherwise compares them with its document. -/
theorem result_evaluate (category : Category) :
    (evaluate matcher disk layout documents category).result =
      (Collect.ofCategory disk layout category).result.bind fun identifiers =>
        (matcher.accept identifiers).map fun _ =>
          resultOf layout documents category identifiers := by
  simp only [evaluate, Traced.result_bind, Traced.result_ofResult, Matcher.missing_eq]
  cases (Collect.ofCategory disk layout category).result with
  | error fault => rfl
  | ok identifiers =>
    simp only [Except.bind]
    cases matcher.accept identifiers <;> rfl

/-- One turn of the loop over the categories. -/
theorem result_evaluateAll_cons (mode : Mode) (category : Category) (rest : List Category) :
    (evaluateAll matcher disk layout documents mode (category :: rest)).result =
      (evaluate matcher disk layout documents category).result.bind fun result =>
        if !result.passed && mode == .failFast then .ok [result]
        else (evaluateAll matcher disk layout documents mode rest).result.map (result :: ·) := by
  simp only [evaluateAll, Traced.result_bind]
  cases (evaluate matcher disk layout documents category).result with
  | error fault => rfl
  | ok result =>
    show Traced.result _ = _
    split
    · next stop => simp [stop, Except.bind]
    · next goOn =>
      simp only [Except.bind, goOn]
      exact Traced.result_bind_pure _ _

/-- The report of a check is that of its results. -/
theorem result_run (mode : Mode) :
    (run matcher disk layout documents mode).result =
      (evaluateAll matcher disk layout documents mode Category.order).result.map reportOf := by
  simp only [run, Traced.result_bind]
  cases (evaluateAll matcher disk layout documents mode Category.order).result <;> rfl

variable {matcher disk layout documents} {categories : List Category}
  {results : List CategoryResult}

/-- No category, no result. -/
theorem eq_nil_of_evaluateAll {mode : Mode}
    (h : (evaluateAll matcher disk layout documents mode []).result = .ok results) : results = [] :=
  (Except.ok.inj h).symm

/-- What a check that stops at the first gap found: the head category, and behind
it nothing more when that has gaps. -/
theorem evaluateAll_failFast_cons_ok {category : Category} {rest : List Category}
    (h : (evaluateAll matcher disk layout documents .failFast (category :: rest)).result =
      .ok results) :
    ∃ result, (evaluate matcher disk layout documents category).result = .ok result ∧
      (result.passed = false ∧ results = [result] ∨
        result.passed = true ∧ ∃ more,
          (evaluateAll matcher disk layout documents .failFast rest).result = .ok more ∧
            results = result :: more) := by
  rw [result_evaluateAll_cons] at h
  obtain ⟨result, he, h⟩ := bind_eq_ok_iff.mp h
  refine ⟨result, he, ?_⟩
  cases hp : result.passed with
  | false =>
    rw [hp] at h
    exact Or.inl ⟨rfl, (Except.ok.inj h).symm⟩
  | true =>
    rw [hp] at h
    obtain ⟨more, hrest, hresults⟩ := map_eq_ok_iff.mp h
    exact Or.inr ⟨rfl, more, hrest, hresults.symm⟩

/-- What a check that goes on found: the head category and all behind it. -/
theorem evaluateAll_keepGoing_cons_ok {category : Category} {rest : List Category}
    (h : (evaluateAll matcher disk layout documents .keepGoing (category :: rest)).result =
      .ok results) :
    ∃ result more, (evaluate matcher disk layout documents category).result = .ok result ∧
      (evaluateAll matcher disk layout documents .keepGoing rest).result = .ok more ∧
        results = result :: more := by
  rw [result_evaluateAll_cons] at h
  obtain ⟨result, he, h⟩ := bind_eq_ok_iff.mp h
  have hgo : (!result.passed && Mode.keepGoing == .failFast) = false := Bool.and_false _
  rw [hgo] at h
  obtain ⟨more, hrest, hresults⟩ := map_eq_ok_iff.mp h
  exact ⟨result, more, he, hrest, hresults.symm⟩

/-- A category evaluates when its identifiers can be collected and none of them is refused,
to the result that they make. -/
theorem evaluate_ok_iff {category : Category} {result : CategoryResult} :
    (evaluate matcher disk layout documents category).result = .ok result ↔
      ∃ identifiers, (Collect.ofCategory disk layout category).result = .ok identifiers ∧
        matcher.Accepts identifiers ∧
          resultOf layout documents category identifiers = result := by
  simp only [result_evaluate, bind_eq_ok_iff, map_eq_ok_iff, ← Matcher.accept_ok_iff]
  exact ⟨fun ⟨identifiers, h, _, haccept, hresult⟩ => ⟨identifiers, h, haccept, hresult⟩,
    fun ⟨identifiers, h, haccept, hresult⟩ => ⟨identifiers, h, _, haccept, hresult⟩⟩

/-- The result of a category names it. -/
theorem category_of_evaluate {category : Category} {result : CategoryResult}
    (h : (evaluate matcher disk layout documents category).result = .ok result) :
    result.category = category := by
  obtain ⟨identifiers, -, -, rfl⟩ := evaluate_ok_iff.mp h
  rfl

/-- When each category can be collected and no identifier is refused, a check that goes on
returns the results that their identifiers make. -/
theorem evaluateAll_keepGoing_of_collected {identifiers : Category → List String}
    (h : ∀ category ∈ categories,
      (Collect.ofCategory disk layout category).result = .ok (identifiers category))
    (haccepts : ∀ category ∈ categories, matcher.Accepts (identifiers category))
    (documents : Documents) :
    (evaluateAll matcher disk layout documents .keepGoing categories).result =
      .ok (categories.map fun category =>
        resultOf layout documents category (identifiers category)) := by
  induction categories with
  | nil => rfl
  | cons category rest ih =>
    obtain ⟨hcategory, hrest⟩ := List.forall_mem_cons.mp h
    obtain ⟨haccept, haccepts⟩ := List.forall_mem_cons.mp haccepts
    rw [result_evaluateAll_cons, evaluate_ok_iff.mpr ⟨_, hcategory, haccept, rfl⟩,
      ih hrest haccepts]
    simp [Except.bind, Except.map]

/-- A check that goes on returns a result for each category, in order. -/
theorem evaluateAll_keepGoing_categories
    (h : (evaluateAll matcher disk layout documents .keepGoing categories).result = .ok results) :
    results.map CategoryResult.category = categories := by
  induction categories generalizing results with
  | nil =>
    obtain rfl := eq_nil_of_evaluateAll h
    rfl
  | cons category rest ih =>
    obtain ⟨result, more, he, hrest, rfl⟩ := evaluateAll_keepGoing_cons_ok h
    rw [List.map_cons, category_of_evaluate he, ih hrest]

/-! ## Either mode -/

/-- A report says that the check passed when none of its results misses anything. -/
theorem status_reportOf_iff (results : List CategoryResult) :
    (reportOf results).status = .passed ↔ ∀ result ∈ results, result.missing = [] := by
  simp only [reportOf, ← CategoryResult.passed_iff, ← List.all_eq_true]
  cases results.all CategoryResult.passed <;> simp

/-- **Each result is made of the collected identifiers of its category**, of which none is
refused. -/
theorem exists_collected_of_mem {mode : Mode}
    (h : (evaluateAll matcher disk layout documents mode categories).result = .ok results)
    {result : CategoryResult} (hmem : result ∈ results) :
    ∃ category identifiers, (Collect.ofCategory disk layout category).result = .ok identifiers ∧
      matcher.Accepts identifiers ∧
        resultOf layout documents category identifiers = result := by
  induction categories generalizing results with
  | nil =>
    obtain rfl := eq_nil_of_evaluateAll h
    exact absurd hmem List.not_mem_nil
  | cons category rest ih =>
    -- whatever the mode, the first result is that of the head and the others come of the rest
    obtain ⟨first, he, hothers⟩ : ∃ first,
        (evaluate matcher disk layout documents category).result = .ok first ∧
          (result = first ∨ ∃ more,
            (evaluateAll matcher disk layout documents mode rest).result = .ok more ∧
              result ∈ more) := by
      cases mode with
      | failFast =>
        obtain ⟨first, he, ⟨-, rfl⟩ | ⟨-, more, hrest, rfl⟩⟩ := evaluateAll_failFast_cons_ok h
        · exact ⟨first, he, Or.inl (List.mem_singleton.mp hmem)⟩
        · exact ⟨first, he, (List.mem_cons.mp hmem).imp_right fun hmore => ⟨more, hrest, hmore⟩⟩
      | keepGoing =>
        obtain ⟨first, more, he, hrest, rfl⟩ := evaluateAll_keepGoing_cons_ok h
        exact ⟨first, he, (List.mem_cons.mp hmem).imp_right fun hmore => ⟨more, hrest, hmore⟩⟩
    rcases hothers with rfl | ⟨more, hrest, hmore⟩
    · obtain ⟨identifiers, hcollect, haccepts, hresult⟩ := evaluate_ok_iff.mp he
      exact ⟨category, identifiers, hcollect, haccepts, hresult⟩
    · exact ih hrest hmore

/-- **A check passes exactly when each of its categories does**, whether or not
it goes on behind a gap. -/
theorem evaluateAll_passes_iff (mode : Mode) (categories : List Category) :
    (∃ results, (evaluateAll matcher disk layout documents mode categories).result = .ok results ∧
        results.all CategoryResult.passed = true) ↔
      ∀ category ∈ categories, ∃ result,
        (evaluate matcher disk layout documents category).result = .ok result ∧
          result.passed = true := by
  induction categories with
  | nil => simp [evaluateAll]
  | cons category rest ih =>
    rw [List.forall_mem_cons, ← ih]
    constructor
    · rintro ⟨results, h, hall⟩
      cases mode with
      | failFast =>
        obtain ⟨result, he, ⟨hp, rfl⟩ | ⟨hp, more, hrest, rfl⟩⟩ := evaluateAll_failFast_cons_ok h
        · simp [hp] at hall
        · rw [List.all_cons, hp, Bool.true_and] at hall
          exact ⟨⟨result, he, hp⟩, more, hrest, hall⟩
      | keepGoing =>
        obtain ⟨result, more, he, hrest, rfl⟩ := evaluateAll_keepGoing_cons_ok h
        rw [List.all_cons, Bool.and_eq_true] at hall
        exact ⟨⟨result, he, hall.1⟩, more, hrest, hall.2⟩
    · rintro ⟨⟨result, he, hp⟩, more, hrest, hall⟩
      refine ⟨result :: more, ?_, by rw [List.all_cons, hp, hall]; rfl⟩
      rw [result_evaluateAll_cons, he, hrest]
      simp [Except.bind, Except.map, hp]

/-! ## The first gap -/

/-- Results up to the first one with gaps, that one included. -/
def uptoGap (results : List CategoryResult) : List CategoryResult :=
  results.takeWhile CategoryResult.passed ++ (results.dropWhile CategoryResult.passed).take 1

theorem uptoGap_cons_of_passed {result : CategoryResult} (h : result.passed = true)
    (rest : List CategoryResult) : uptoGap (result :: rest) = result :: uptoGap rest := by
  simp [uptoGap, h]

theorem uptoGap_cons_of_gap {result : CategoryResult} (h : result.passed = false)
    (rest : List CategoryResult) : uptoGap (result :: rest) = [result] := by
  simp [uptoGap, h]

/-- Cutting behind the first gap does not hide that there is one. -/
theorem all_passed_uptoGap (results : List CategoryResult) :
    (uptoGap results).all CategoryResult.passed = results.all CategoryResult.passed := by
  induction results with
  | nil => rfl
  | cons result rest ih =>
    cases h : result.passed with
    | false => simp [uptoGap_cons_of_gap h, h]
    | true => rw [uptoGap_cons_of_passed h, List.all_cons, List.all_cons, ih]

/-- So both lists make the same status. -/
theorem status_reportOf_uptoGap (results : List CategoryResult) :
    (reportOf (uptoGap results)).status = (reportOf results).status := by
  simp only [reportOf, all_passed_uptoGap]

/-! ## The two modes beside each other -/

/-- When a check that goes on succeeds, one that stops succeeds with the same
results up to the first gap. -/
theorem evaluateAll_failFast_of_keepGoing
    (h : (evaluateAll matcher disk layout documents .keepGoing categories).result = .ok results) :
    (evaluateAll matcher disk layout documents .failFast categories).result =
      .ok (uptoGap results) := by
  induction categories generalizing results with
  | nil =>
    obtain rfl := eq_nil_of_evaluateAll h
    rfl
  | cons category rest ih =>
    obtain ⟨result, more, he, hrest, rfl⟩ := evaluateAll_keepGoing_cons_ok h
    rw [result_evaluateAll_cons, he]
    cases hp : result.passed with
    | false => simp [Except.bind, hp, uptoGap_cons_of_gap hp]
    | true => simp [Except.bind, Except.map, hp, ih hrest, uptoGap_cons_of_passed hp]

/-- When a check that stops at the first gap fails, one that goes on fails at the
same place: no gap lies before it. -/
theorem evaluateAll_keepGoing_of_failFast_error {fault : Fault}
    (h : (evaluateAll matcher disk layout documents .failFast categories).result = .error fault) :
    (evaluateAll matcher disk layout documents .keepGoing categories).result = .error fault := by
  induction categories with
  | nil => simp [evaluateAll] at h
  | cons category rest ih =>
    rw [result_evaluateAll_cons] at h ⊢
    cases he : (evaluate matcher disk layout documents category).result with
    | error other =>
      obtain rfl : other = fault := by simpa [he, Except.bind] using h
      rfl
    | ok result =>
      cases hp : result.passed with
      | false => simp [he, hp, Except.bind] at h
      | true =>
        cases hrest : (evaluateAll matcher disk layout documents .failFast rest).result with
        | ok more => simp [he, hp, hrest, Except.bind, Except.map] at h
        | error other =>
          obtain rfl : other = fault := by
            simpa [he, hp, hrest, Except.bind, Except.map] using h
          simp [Except.bind, Except.map, ih hrest]

/-! ## What a check that stops at the first gap returns -/

/-- The categories of the results are those asked for, in order, up to where the
check stopped. -/
theorem evaluateAll_failFast_categories
    (h : (evaluateAll matcher disk layout documents .failFast categories).result = .ok results) :
    results.map CategoryResult.category <+: categories := by
  induction categories generalizing results with
  | nil =>
    obtain rfl := eq_nil_of_evaluateAll h
    exact List.prefix_rfl
  | cons category rest ih =>
    obtain ⟨result, he, ⟨-, rfl⟩ | ⟨-, more, hrest, rfl⟩⟩ := evaluateAll_failFast_cons_ok h
    · exact ⟨rest, by simp [category_of_evaluate he]⟩
    · exact List.cons_prefix_cons.mpr ⟨category_of_evaluate he, ih hrest⟩

/-- A check that found no gap evaluated every category. -/
theorem categories_of_evaluateAll_failFast_passed
    (h : (evaluateAll matcher disk layout documents .failFast categories).result = .ok results)
    (hall : results.all CategoryResult.passed = true) :
    results.map CategoryResult.category = categories := by
  induction categories generalizing results with
  | nil =>
    obtain rfl := eq_nil_of_evaluateAll h
    rfl
  | cons category rest ih =>
    obtain ⟨result, he, ⟨hp, rfl⟩ | ⟨hp, more, hrest, rfl⟩⟩ := evaluateAll_failFast_cons_ok h
    · simp [hp] at hall
    · rw [List.all_cons, hp, Bool.true_and] at hall
      rw [List.map_cons, category_of_evaluate he, ih hrest hall]

/-- A gap ends the results. -/
theorem passed_of_mem_dropLast
    (h : (evaluateAll matcher disk layout documents .failFast categories).result = .ok results) :
    ∀ result ∈ results.dropLast, result.passed = true := by
  induction categories generalizing results with
  | nil =>
    obtain rfl := eq_nil_of_evaluateAll h
    simp
  | cons category rest ih =>
    obtain ⟨result, -, ⟨-, rfl⟩ | ⟨hp, more, hrest, rfl⟩⟩ := evaluateAll_failFast_cons_ok h
    · simp
    · cases more with
      | nil => simp
      | cons next more =>
        rw [List.dropLast_cons_cons, List.forall_mem_cons]
        exact ⟨hp, ih hrest⟩

end Check
end DocCoverage
