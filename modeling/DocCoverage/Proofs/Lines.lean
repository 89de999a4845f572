import DocCoverage.Proofs.Channels

/-! # Reading printed lines back

What is printed for people is made of lines, each ended by a line feed, and nothing in them is
escaped.  Cut at its line feeds, a text falls into the pieces of its lines
(`Text.pieces_ended`); so the lines are found again exactly when none of them has a line feed
of its own (`Text.pieces_ended_iff`).  Identifiers are names of files and texts of overlays,
and paths of documents are texts of overlays, so each of them may have one.

Where none has, the lines tell all that is printed.  A title begins with another letter than
a bulleted line, so the lines of a failing check fall into its results with gaps
(`Report.readBack_text`).  The labels of the categories differ and have no tab, so a line of an
inventory falls into a category and an identifier at its first tab (`Inventory.rowsOf_printed`).
Where one has, two checks that miss different identifiers may print the same text
(`Program.line_feeds_mislead`). -/

namespace DocCoverage

/-! ## Lines in a text -/

namespace Text

/-- The text of some lines, each ended by a line feed. -/
def ended (lines : List String) : String := String.join (lines.map (· ++ "\n"))

/-- A text cut at its line feeds. -/
def pieces (text : String) : List String := (text.toList.splitOn '\n').map String.ofList

theorem ended_append (lines more : List String) : ended (lines ++ more) = ended lines ++ ended more := by
  simp [ended]

theorem ended_flatMap {α : Type} (items : List α) (lines : α → List String) :
    ended (items.flatMap lines) = String.join (items.map fun item => ended (lines item)) := by
  induction items with
  | nil => rfl
  | cons item items ih => rw [List.flatMap_cons, ended_append, ih, List.map_cons, String.join_cons]

/-- A line feed divides the pieces before it from those behind it. -/
theorem pieces_append (line rest : String) :
    pieces (line ++ "\n" ++ rest) = pieces line ++ pieces rest := by
  have htext : (line ++ "\n" ++ rest).toList = line.toList ++ '\n' :: rest.toList := by simp
  rw [pieces, htext, List.splitOn_append_cons_self, List.map_append]
  rfl

/-- **The pieces of a text are those of its lines**, and an empty one behind the last line
feed. -/
theorem pieces_ended (lines : List String) : pieces (ended lines) = lines.flatMap pieces ++ [""] := by
  induction lines with
  | nil => rfl
  | cons line lines ih =>
    have hcons : ended (line :: lines) = line ++ "\n" ++ ended lines := by simp [ended]
    rw [hcons, pieces_append, ih, List.flatMap_cons, List.append_assoc]

theorem pieces_ne_nil (text : String) : pieces text ≠ [] := by
  rw [pieces, Ne, List.map_eq_nil_iff]
  exact List.splitOn_ne_nil _ _

theorem pieces_eq_singleton_iff {line : String} : pieces line = [line] ↔ '\n' ∉ line.toList := by
  constructor
  · intro h hmem
    obtain ⟨before, behind, hline⟩ := List.append_of_mem hmem
    have hbefore := List.length_pos_iff.mpr (List.splitOn_ne_nil '\n' before)
    have hbehind := List.length_pos_iff.mpr (List.splitOn_ne_nil '\n' behind)
    have hlength := congrArg List.length h
    rw [pieces, hline, List.splitOn_append_cons_self, List.length_map, List.length_append,
      List.length_singleton] at hlength
    omega
  · intro h
    rw [pieces, List.splitOn_eq_singleton h, List.map_singleton, String.ofList_toList]

/-- Lines are no more than their pieces. -/
theorem length_le_flatMap_pieces (lines : List String) :
    lines.length ≤ (lines.flatMap pieces).length := by
  induction lines with
  | nil => exact Nat.le_refl 0
  | cons line lines ih =>
    have hline := List.length_pos_iff.mpr (pieces_ne_nil line)
    rw [List.flatMap_cons, List.length_append, List.length_cons]
    omega

theorem flatMap_pieces_eq_iff {lines : List String} :
    lines.flatMap pieces = lines ↔ ∀ line ∈ lines, '\n' ∉ line.toList := by
  induction lines with
  | nil => simp
  | cons line lines ih =>
    rw [List.flatMap_cons, List.forall_mem_cons, ← ih, ← pieces_eq_singleton_iff]
    constructor
    · intro h
      -- the line has one piece, since the others have one each at least
      have hrest := length_le_flatMap_pieces lines
      have htotal := congrArg List.length h
      rw [List.length_append, List.length_cons] at htotal
      have hline := List.length_pos_iff.mpr (pieces_ne_nil line)
      obtain ⟨piece, hpiece⟩ := List.length_eq_one_iff.mp (show (pieces line).length = 1 by omega)
      rw [hpiece, List.singleton_append, List.cons.injEq] at h
      obtain ⟨rfl, hlines⟩ := h
      exact ⟨hpiece, hlines⟩
    · rintro ⟨hline, hlines⟩
      rw [hline, hlines, List.singleton_append]

/-- **Lines are found again exactly when none of them has a line feed of its own.** -/
theorem pieces_ended_iff {lines : List String} :
    pieces (ended lines) = lines ++ [""] ↔ ∀ line ∈ lines, '\n' ∉ line.toList := by
  rw [pieces_ended, List.append_left_inj, flatMap_pieces_eq_iff]

end Text

/-! ## The lines of a report -/

/-- The line of a missing identifier. -/
def bulleted (identifier : String) : String := "- " ++ identifier

/-- The identifier of a bulleted line. -/
def identifierOf? (line : String) : Option String :=
  match line.toList with
  | '-' :: ' ' :: name => some (String.ofList name)
  | _ => none

theorem identifierOf?_bulleted (identifier : String) :
    identifierOf? (bulleted identifier) = some identifier := by
  have hline : (bulleted identifier).toList = '-' :: ' ' :: identifier.toList := by simp [bulleted]
  simp only [identifierOf?, hline, String.ofList_toList]

theorem identifierOf?_title (category : Category) (path : Path) :
    identifierOf? (category.title path) = none := by
  have hline : ∃ rest, (category.title path).toList = 'M' :: rest := by simp [Category.title]
  obtain ⟨rest, hrest⟩ := hline
  simp [identifierOf?, hrest]

/-- Reads lines from the last one on: the identifiers at their beginning, and each title with
those behind it. -/
def readGroups : List String → List String × List (String × List String)
  | [] => ([], [])
  | line :: rest =>
    let (identifiers, groups) := readGroups rest
    match identifierOf? line with
    | some identifier => (identifier :: identifiers, groups)
    | none => ([], (line, identifiers) :: groups)

theorem readGroups_bulleted (identifiers rest : List String) :
    readGroups (identifiers.map bulleted ++ rest) =
      (identifiers ++ (readGroups rest).1, (readGroups rest).2) := by
  induction identifiers with
  | nil => rfl
  | cons identifier identifiers ih =>
    rw [List.map_cons, List.cons_append, readGroups, ih, identifierOf?_bulleted]
    rfl

namespace CategoryResult

/-- The lines of a result: its title, and a line for each missing identifier. -/
def lines (result : CategoryResult) : List String := result.title :: result.missing.map bulleted

theorem text_eq_ended (result : CategoryResult) : result.text = Text.ended result.lines := by
  simp [text, lines, Text.ended, bulleted, List.map_map, Function.comp_def]

theorem lineFree_iff (result : CategoryResult) :
    (∀ line ∈ result.lines, '\n' ∉ line.toList) ↔
      '\n' ∉ result.title.toList ∧ ∀ identifier ∈ result.missing, '\n' ∉ identifier.toList := by
  simp [lines, bulleted]

end CategoryResult

namespace Report

/-- What a report says for people: the titles of its results with gaps, each with what is
missing. -/
def gaps (report : Report) : List (String × List String) :=
  report.failures.map fun result => (result.title, result.missing)

/-- The lines of a report that did not pass. -/
def lines (report : Report) : List String := report.failures.flatMap CategoryResult.lines

/-- Nothing that the lines of a report show has a line feed. -/
def LineFree (report : Report) : Prop :=
  ∀ result ∈ report.failures,
    '\n' ∉ result.title.toList ∧ ∀ identifier ∈ result.missing, '\n' ∉ identifier.toList

/-- Reads the text of a report that did not pass. -/
def readBack (text : String) : List (String × List String) :=
  (readGroups (Text.pieces text).dropLast).2

variable {report : Report}

theorem text_eq_ended (h : report.status ≠ .passed) : report.text = Text.ended report.lines := by
  rw [text_of_failed h, lines, Text.ended_flatMap]
  exact congrArg String.join (List.map_congr_left fun result _ => result.text_eq_ended)

theorem lineFree_iff : report.LineFree ↔ ∀ line ∈ report.lines, '\n' ∉ line.toList := by
  rw [lines, List.forall_mem_flatMap]
  exact forall₂_congr fun result _ => result.lineFree_iff.symm

/-- The titles and the missing identifiers are read back from the lines of some results. -/
theorem readGroups_lines {results : List CategoryResult}
    (htitles : ∀ result ∈ results, identifierOf? result.title = none) :
    readGroups (results.flatMap CategoryResult.lines) =
      ([], results.map fun result => (result.title, result.missing)) := by
  induction results with
  | nil => rfl
  | cons result rest ih =>
    obtain ⟨htitle, hrest⟩ := List.forall_mem_cons.mp htitles
    rw [List.flatMap_cons, CategoryResult.lines, List.cons_append, readGroups, readGroups_bulleted,
      ih hrest, htitle, List.append_nil]
    rfl

/-- **The text of a check that failed tells what is missing**, if nothing in it has a line
feed of its own. -/
theorem readBack_text (hconsistent : report.Consistent) (hfailed : report.status ≠ .passed)
    (hfree : report.LineFree) : readBack report.text = report.gaps := by
  have htitles : ∀ result ∈ report.failures, identifierOf? result.title = none := by
    intro result hmem
    obtain ⟨path, htitle⟩ := hconsistent.titles result (List.mem_filter.mp hmem).1
    rw [htitle]
    exact identifierOf?_title _ _
  rw [readBack, text_eq_ended hfailed, Text.pieces_ended_iff.mpr (lineFree_iff.mp hfree),
    List.dropLast_concat, lines, readGroups_lines htitles]
  rfl

end Report

/-! ## The lines of an inventory -/

/-- The category of a label. -/
def Category.ofLabel? (label : String) : Option Category :=
  order.find? fun category => category.label == label

theorem Category.ofLabel?_label (category : Category) : ofLabel? category.label = some category := by
  cases category <;> decide

theorem Category.tab_notMem_label (category : Category) : '\t' ∉ category.label.toList := by
  cases category <;> decide

namespace Inventory

/-- The row of a line: its category before the first tab, and its identifier behind it. -/
def rowOf? (line : String) : Option (Category × String) :=
  match line.toList.dropWhile (· != '\t') with
  | [] => none
  | _ :: identifier => do
    let category ← Category.ofLabel? (String.ofList (line.toList.takeWhile (· != '\t')))
    return (category, String.ofList identifier)

/-- Reads the text of an inventory. -/
def readBack? (text : String) : Option (List (Category × String)) :=
  (Text.pieces text).dropLast.mapM rowOf?

theorem rowOf?_rowLine (row : Category × String) : rowOf? (Program.rowLine row) = some row := by
  obtain ⟨category, identifier⟩ := row
  have hlabel : ∀ c ∈ category.label.toList, (c != '\t') = true := by
    rintro c hc
    rw [bne_iff_ne]
    rintro rfl
    exact category.tab_notMem_label hc
  have hline : (Program.rowLine (category, identifier)).toList =
      category.label.toList ++ '\t' :: identifier.toList := by
    simp [Program.rowLine]
  rw [rowOf?, hline, List.dropWhile_append_of_pos hlabel, List.takeWhile_append_of_pos hlabel]
  simp [Category.ofLabel?_label]

theorem mapM_rowOf? (rows : List (Category × String)) :
    (rows.map Program.rowLine).mapM rowOf? = some rows := by
  induction rows with
  | nil => rfl
  | cons row rows ih => simp [rowOf?_rowLine, ih]

end Inventory

/-! ## What is printed -/

/-- The line feeds of a title are those of its path. -/
theorem Category.lineFeed_mem_title_iff (category : Category) (path : Path) :
    '\n' ∈ (category.title path).toList ↔ '\n' ∈ path.display.toList := by
  cases category <;> simp [title, label]

namespace Program

/-- The line feeds of a row are those of its identifier. -/
theorem lineFeed_mem_rowLine_iff (row : Category × String) :
    '\n' ∈ (rowLine row).toList ↔ '\n' ∈ row.2.toList := by
  obtain ⟨category, identifier⟩ := row
  cases category <;> simp [rowLine, Category.label]

/-- What the text for people of a failing check tells of its report.  Its pieces are those of a
title and a line for each missing identifier; it is cut into just these lines if and only if
neither the path of such a document nor a missing identifier has a line feed, and then it can
be read back. -/
structure ReportLines (layout : Layout) (report : Report) (text : String) : Prop where
  failures_ne : report.failures ≠ []
  pieces_eq : Text.pieces text = report.lines.flatMap Text.pieces ++ [""]
  pieces_eq_lines_iff : Text.pieces text = (report.failures.flatMap fun result =>
      result.title :: result.missing.map fun identifier => "- " ++ identifier) ++ [""] ↔
    report.LineFree
  lineFree_iff : report.LineFree ↔ ∀ result ∈ report.failures,
    '\n' ∉ (layout.documentPath result.category.document).display.toList ∧
      ∀ identifier ∈ result.missing, '\n' ∉ identifier.toList
  readBack_eq : report.LineFree → Report.readBack text = report.gaps

/-- What the text for people of an inventory tells of its rows: it is cut into a line for each
of them if and only if no identifier has a line feed, and then it can be read back. -/
structure InventoryLines (inventory : Inventory) (text : String) : Prop where
  pieces_eq : Text.pieces text = (inventory.rows.map rowLine).flatMap Text.pieces ++ [""]
  pieces_eq_lines_iff :
    Text.pieces text = (inventory.rows.map fun row => row.1.label ++ "\t" ++ row.2) ++ [""] ↔
      ∀ row ∈ inventory.rows, '\n' ∉ row.2.toList
  readBack_eq : (∀ row ∈ inventory.rows, '\n' ∉ row.2.toList) →
    Inventory.readBack? text = some inventory.rows

/-- A check for people ends with gaps: it returns a report and prints a text. -/
structure FailsWith (matcher : Matcher) (disk : Disk) (layout : Layout) (keepGoing : Bool)
    (report : Report) (text : String) : Prop where
  checked : ∃ documents, (Documents.load disk layout).result = .ok documents ∧
    (Check.run matcher disk layout documents (modeOf keepGoing)).result = .ok report
  printed : (check matcher disk layout false keepGoing).result = .ok ⟨failure, text⟩

namespace FailsWith

variable {matcher : Matcher} {disk : Disk} {layout : Layout} {keepGoing : Bool} {report : Report}
  {text : String}

theorem printedReport_eq (h : FailsWith matcher disk layout keepGoing report text) :
    printedReport false report = ⟨failure, text⟩ := by
  obtain ⟨documents, hload, hrun⟩ := h.checked
  exact Except.ok.inj
    ((check_ok_iff.mpr ⟨documents, report, hload, hrun, rfl⟩).symm.trans h.printed)

theorem text_eq (h : FailsWith matcher disk layout keepGoing report text) : text = report.text :=
  (congrArg Printed.stdout h.printedReport_eq).symm

theorem status_ne (h : FailsWith matcher disk layout keepGoing report text) :
    report.status ≠ .passed := by
  rw [Ne, ← exit_printedReport_iff false report, h.printedReport_eq]
  show ¬failure = success
  decide

theorem consistent (h : FailsWith matcher disk layout keepGoing report text) : report.Consistent := by
  obtain ⟨documents, -, hrun⟩ := h.checked
  exact Check.consistent_of_run hrun

/-- The titles are those of the configured documents. -/
theorem title_eq (h : FailsWith matcher disk layout keepGoing report text) {result : CategoryResult}
    (hmem : result ∈ report.results) :
    result.title = result.category.title (layout.documentPath result.category.document) := by
  obtain ⟨documents, -, hrun⟩ := h.checked
  obtain ⟨results, hresults, rfl⟩ := Check.run_ok_iff.mp hrun
  obtain ⟨category, identifiers, -, -, rfl⟩ := Check.exists_collected_of_mem hresults hmem
  rfl

theorem text_eq_ended (h : FailsWith matcher disk layout keepGoing report text) :
    text = Text.ended report.lines := by
  rw [h.text_eq, Report.text_eq_ended h.status_ne]

theorem readBack_eq (h : FailsWith matcher disk layout keepGoing report text)
    (hfree : report.LineFree) : Report.readBack text = report.gaps := by
  rw [h.text_eq]
  exact Report.readBack_text h.consistent h.status_ne hfree

/-- The text of a failing check tells its report. -/
theorem reportLines (h : FailsWith matcher disk layout keepGoing report text) :
    ReportLines layout report text where
  failures_ne := mt h.consistent.failures_eq_nil_iff.mp h.status_ne
  pieces_eq := by rw [h.text_eq_ended, Text.pieces_ended]
  pieces_eq_lines_iff := by
    rw [Report.lineFree_iff, h.text_eq_ended]
    exact Text.pieces_ended_iff
  lineFree_iff := by
    refine forall₂_congr fun result hmem => and_congr_left' (not_congr ?_)
    rw [h.title_eq (List.mem_filter.mp hmem).1, Category.lineFeed_mem_title_iff]
  readBack_eq := h.readBack_eq

end FailsWith

/-- A check for people that ends with another exit code than success ends with gaps. -/
theorem exists_failsWith {matcher : Matcher} {disk : Disk} {layout : Layout} {keepGoing : Bool}
    {printed : Printed} (h : (check matcher disk layout false keepGoing).result = .ok printed)
    (hexit : printed.exit ≠ success) :
    ∃ report, FailsWith matcher disk layout keepGoing report printed.stdout := by
  obtain ⟨documents, report, hload, hrun, rfl⟩ := check_ok_iff.mp h
  refine ⟨report, ⟨documents, hload, hrun⟩, ?_⟩
  have hfailure : (printedReport false report).exit = failure := by
    cases hpassed : report.passed with
    | true => simp [printedReport, hpassed] at hexit
    | false => simp [printedReport, hpassed]
  rw [h, ← hfailure]

/-- The text of rows tells the rows. -/
theorem inventoryLines (inventory : Inventory) :
    InventoryLines inventory (Text.ended (inventory.rows.map rowLine)) := by
  have hlines : (∀ line ∈ inventory.rows.map rowLine, '\n' ∉ line.toList) ↔
      ∀ row ∈ inventory.rows, '\n' ∉ row.2.toList := by
    rw [List.forall_mem_map]
    exact forall₂_congr fun row _ => not_congr (lineFeed_mem_rowLine_iff row)
  refine ⟨Text.pieces_ended _, ?_, fun hfree => ?_⟩
  · rw [← hlines]
    exact Text.pieces_ended_iff
  · rw [Inventory.readBack?, Text.pieces_ended_iff.mpr (hlines.mpr hfree), List.dropLast_concat]
    exact Inventory.mapM_rowOf? _

/-- **Printed lines can be read back unless they have line feeds.**  A check for people that
ends with gaps prints, for each result with gaps in order, its title and a line for each
missing identifier, and nothing else.  Cut at its line feeds, the text is made of exactly
these lines if and only if neither the path of such a document nor a missing identifier has
a line feed; then its titles and missing identifiers are read back from it, so that two such
checks that print the same text miss the same.  An inventory for people prints a line for
each row; the text is made of exactly these lines if and only if no identifier has a line
feed, and then the rows are read back from it. -/
theorem lines_read_back_unless_line_feeds (matcher : Matcher) (disk : Disk) (layout : Layout) :
    (∀ keepGoing printed, (check matcher disk layout false keepGoing).result = .ok printed →
      printed.exit ≠ success →
        ∃ report, FailsWith matcher disk layout keepGoing report printed.stdout) ∧
    (∀ keepGoing report text, FailsWith matcher disk layout keepGoing report text →
      ReportLines layout report text) ∧
    (∀ keepGoing report other layout' keepGoing' report' text,
      FailsWith matcher disk layout keepGoing report text →
      FailsWith matcher other layout' keepGoing' report' text →
        report.LineFree → report'.LineFree → report.gaps = report'.gaps) ∧
    ∀ inventory, (Inventory.collect disk layout).result = .ok inventory →
      ∃ text, (Program.inventory disk layout false).result = .ok ⟨success, text⟩ ∧
        InventoryLines inventory text := by
  refine ⟨fun keepGoing printed => exists_failsWith, fun keepGoing report text h => h.reportLines,
    ?_, ?_⟩
  · intro keepGoing report other layout' keepGoing' report' text h h' hfree hfree'
    exact (h.readBack_eq hfree).symm.trans (h'.readBack_eq hfree')
  · intro inventory hcollect
    refine ⟨Text.ended (inventory.rows.map rowLine), ?_, inventoryLines inventory⟩
    rw [Program.inventory, Traced.result_bind_pure, hcollect, Text.ended, List.map_map]
    rfl

/-- The check of empty documents fails, and its one missing controller is read back. -/
theorem readBack_undocumented :
    FailsWith .standard undocumented.disk (.standard (.ofString ".")) false undocumentedReport
        undocumentedReport.text ∧
      undocumentedReport.LineFree ∧
      Report.readBack undocumentedReport.text =
        [("Missing controllers in docs/Api-Doc.md:", ["WidgetController"])] := by
  have hprinted : undocumentedReport.printed false = undocumentedReport.text := by
    rw [Report.printed, if_neg Bool.false_ne_true]
  have hfails : FailsWith .standard undocumented.disk (.standard (.ofString ".")) false
      undocumentedReport undocumentedReport.text := by
    refine ⟨⟨_, load_undocumented, run_undocumented⟩, ?_⟩
    rw [← hprinted]
    exact check_undocumented false
  have hfree : undocumentedReport.LineFree := by
    simp [Report.LineFree, undocumentedReport, Report.failures, CategoryResult.passed]
  obtain ⟨-, hread, -⟩ :=
    lines_read_back_unless_line_feeds .standard undocumented.disk (.standard (.ofString "."))
  exact ⟨hfails, hfree, (hread _ _ _ hfails).readBack_eq hfree⟩

/-- What a check that goes on reports of pinned commands that nothing mentions. -/
def unmentionedReport (names : List String) : Report where
  status := .failed
  results :=
    [⟨.controllers, "Missing controllers in docs/Api-Doc.md:", "docs/Api-Doc.md", 0, []⟩,
      ⟨.policies, "Missing policies in docs/Api-Doc.md:", "docs/Api-Doc.md", 0, []⟩,
      ⟨.criticalCommands, "Missing critical commands in docs/Application-Doc.md:",
        "docs/Application-Doc.md", names.length, names⟩]

/-- A check that goes on fails with that report if the overlay pins these commands and the
documents, which are empty, mention none of them. -/
theorem failsWith_pinned {overlay text : String} {names : List String}
    (hcollect : (Collect.ofCategory (.pinningBy overlay) (.pinning names) .criticalCommands).result =
      .ok names)
    (haccepts : Matcher.standard.Accepts names)
    (hreport : Check.reportOf (Category.order.map fun category => Check.resultOf (.pinning names)
      ⟨"", ""⟩ category ((Inventory.mk [] [] names).identifiers category)) =
        unmentionedReport names)
    (hprinted : printedReport false (unmentionedReport names) = ⟨failure, text⟩) :
    FailsWith .standard (.pinningBy overlay) (.pinning names) true (unmentionedReport names)
      text := by
  have hinventory : (Inventory.collect (.pinningBy overlay) (.pinning names)).result =
      .ok ⟨[], [], names⟩ := Inventory.collect_of_empty_policies rfl rfl hcollect
  have haccept : ∀ category,
      Matcher.standard.Accepts ((Inventory.mk [] [] names).identifiers category) := by
    intro category
    cases category with
    | controllers => exact List.forall_mem_nil _
    | policies => exact List.forall_mem_nil _
    | criticalCommands => exact haccepts
  have hrun := Check.run_keepGoing_of_inventory hinventory haccept ⟨"", ""⟩
  rw [hreport] at hrun
  have hload : (Documents.load (.pinningBy overlay) (.pinning names)).result = .ok ⟨"", ""⟩ := rfl
  exact ⟨⟨_, hload, hrun⟩, check_ok_iff.mpr ⟨_, _, hload, hrun, hprinted⟩⟩

/-- **A line feed in an identifier misleads.**  An overlay that pins one command of two lines,
the second of which looks like the line of another command, and an overlay that pins these two
commands make a check print the same text. -/
theorem line_feeds_mislead :
    (Layout.load (.pinningBy "critical_manual_commands = [\"PingCommand\\n- PongCommand\"]\n")
        (.ofString ".") none).result = .ok (.pinning ["PingCommand\n- PongCommand"]) ∧
      (Layout.load (.pinningBy "critical_manual_commands = [\"PingCommand\", \"PongCommand\"]\n")
        (.ofString ".") none).result = .ok (.pinning ["PingCommand", "PongCommand"]) ∧
      FailsWith .standard
        (.pinningBy "critical_manual_commands = [\"PingCommand\\n- PongCommand\"]\n")
        (.pinning ["PingCommand\n- PongCommand"]) true
        (unmentionedReport ["PingCommand\n- PongCommand"])
        "Missing critical commands in docs/Application-Doc.md:\n- PingCommand\n- PongCommand\n" ∧
      FailsWith .standard
        (.pinningBy "critical_manual_commands = [\"PingCommand\", \"PongCommand\"]\n")
        (.pinning ["PingCommand", "PongCommand"]) true
        (unmentionedReport ["PingCommand", "PongCommand"])
        "Missing critical commands in docs/Application-Doc.md:\n- PingCommand\n- PongCommand\n" ∧
      (unmentionedReport ["PingCommand\n- PongCommand"]).gaps ≠
        (unmentionedReport ["PingCommand", "PongCommand"]).gaps := by
  refine ⟨rfl, rfl, failsWith_pinned rfl ?_ rfl ?_, failsWith_pinned rfl ?_ rfl ?_, ?_⟩
  · decide +kernel
  · decide +kernel
  · decide +kernel
  · decide +kernel
  · decide

end Program
end DocCoverage
