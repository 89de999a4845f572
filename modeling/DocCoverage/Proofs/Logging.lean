import DocCoverage.Proofs.CommandLine.Requests
import DocCoverage.Proofs.FirstFault
import DocCoverage.Proofs.LogSetUp

/-! # What part the log has in the result

A run reports its events whether or not anybody wants to see them; a filter then picks
those that are shown, and the form of the log says how.  So two runs that differ by their
filters and by that form take the same steps.  They print the same text, end with the same
exit code and the same fault, and show parts of one list of records.

But the filter has to be set up first.  Under a setting for which that fails, a run ends with
an exit code of its own and prints nothing, whatever it would have found.  So two settings
give the same result exactly when the log can be set up under both or under neither
(`Program.results_agree_iff`).

The longest of these lists is the one under `trace`, which admits every event
(`Filter.shows_trace`).  The form of the log is an option of its own: it can be given before
any arguments that do not have it, and changes nothing else that they mean
(`Invocation.read_logJson_cons`). -/

namespace DocCoverage

/-! ## The option for the form of the log -/

namespace Invocation

/-- The request with the option for the form of the log before all others. -/
def Request.logging : Request → Request
  | bare before => bare (.flag .logJson :: before)
  | check before behind => check (.flag .logJson :: before) behind
  | inventory before behind => inventory (.flag .logJson :: before) behind

namespace Request

variable {request : Request}

theorem before_logging : request.logging.before = .flag .logJson :: request.before := by
  cases request <;> rfl

theorem behind_logging : request.logging.behind = request.behind := by
  cases request <;> rfl

theorem wellFormed_logging (hwell : request.WellFormed) (hnew : ¬request.Raises .logJson) :
    request.logging.WellFormed := by
  have hadmits : Side.before.Admits (.flag .logJson :: request.before) := by
    constructor
    · refine List.nodup_cons.mpr ⟨?_, hwell.before.nodup⟩
      intro hmem
      exact hnew (Or.inl (Options.flag_mem_kinds.mp hmem))
    · intro hmem
      exact hwell.before.keepGoing (by simpa using hmem)
  cases request with
  | bare before => exact hadmits
  | check before behind => exact ⟨hadmits, hwell.2⟩
  | inventory before behind => exact ⟨hadmits, hwell.2⟩

theorem spelled_logging {args : List String} (h : request.Spelled args) :
    request.logging.Spelled ("--log-json" :: args) := by
  cases h with
  | bare h hending => exact .bare (.cons (.flag .logJson) h) hending
  | check h hbehind hending => exact .check (.cons (.flag .logJson) h) hbehind hending
  | inventory h hbehind hending => exact .inventory (.cons (.flag .logJson) h) hbehind hending

/-- The option changes nothing else that the request means. -/
theorem invocation_logging :
    request.logging.invocation = { request.invocation with logJson := true } := by
  have hraised : request.logging.Raises .logJson := by
    rw [Raises, before_logging]
    exact Or.inl List.mem_cons_self
  have hjson : request.logging.Raises .json ↔ request.Raises .json := by
    rw [Raises, Raises, before_logging, behind_logging]
    simp
  have hvalue : ∀ slot, request.logging.value? slot = request.value? slot := by
    intro slot
    rw [value?, value?, before_logging, behind_logging]
    rfl
  have hcommand : request.logging.command = request.command := by
    cases request <;> rfl
  simp only [invocation, hraised, hjson, hvalue, hcommand, decide_true]

end Request

/-- **The form of the log can be asked for** before any arguments that do not ask for it. -/
theorem read_logJson_cons {args : List String} {invocation : Invocation}
    (h : read args = .ok invocation) (hplain : invocation.logJson = false) :
    read ("--log-json" :: args) = .ok { invocation with logJson := true } := by
  obtain ⟨request, hwell, hspelled, rfl⟩ := request_of_read h
  rw [← Request.invocation_logging]
  refine read_of_request (Request.wellFormed_logging hwell ?_) (Request.spelled_logging hspelled)
  exact of_decide_eq_false hplain

end Invocation

/-! ## What a filter lets through -/

theorem Level.detail_le (level : Level) : level.detail ≤ Level.trace.detail := by
  cases level <;> decide

/-- A filter of one level admits the events of that level and of all that are graver. -/
theorem Filter.shows_atLevel (level : Level) (event : Event) :
    (atLevel level).shows event = decide (event.record.level.detail ≤ level.detail) := by
  rfl

theorem Filter.ofSetting?_trace : ofSetting? (some "trace") = some (atLevel .trace) := by decide

/-- **The filter `trace` shows every event.** -/
theorem Filter.shows_trace (event : Event) : (atLevel .trace).shows event = true := by
  rw [shows_atLevel]
  exact decide_eq_true event.record.level.detail_le

namespace Program

/-- The records that a run shows under a log setting; none if no filter can be set up. -/
def shown (matcher : Matcher) (disk : Disk) (invocation : Invocation) (setting : Option String) :
    List Record :=
  match Filter.ofSetting? setting with
  | none => []
  | some filter => ((invoke matcher disk invocation).events.filter filter.shows).map Event.record

/-- A record in the form of the log. -/
def formed (logJson : Bool) (record : Record) : LogEntry :=
  if logJson then .record record else .line record.line

/-- What closes a log: the report of the fault, if there is one. -/
def closing (complaint : String → String) : Except Fault Printed → List LogEntry
  | .ok _ => []
  | .error fault => (fault.report complaint).map .line

section
variable (libraries : Libraries) (disk : Disk)

/-- A log is what is shown, in its form, and the fault. -/
theorem log_run {args : List String} {invocation : Invocation}
    (hread : Invocation.read args = .ok invocation) {setting : Option String}
    (hlog : Filter.SetsUp setting) :
    (run libraries disk args setting).log =
      (shown libraries.matcher disk invocation setting).map (formed invocation.logJson) ++
        closing libraries.complaint (invoke libraries.matcher disk invocation).result := by
  obtain ⟨filter, hfilter⟩ := hlog
  simp only [run, hread, hfilter]
  rw [shown, hfilter, List.map_map]
  cases hresult : (invoke libraries.matcher disk invocation).result <;>
    simp only [logOf, hresult] <;> rfl

end

section
variable (matcher : Matcher) (disk : Disk)

/-- The steps of a run do not depend on the form of the log. -/
theorem invoke_logJson (invocation : Invocation) (logJson : Bool) :
    invoke matcher disk { invocation with logJson := logJson } = invoke matcher disk invocation :=
  rfl

theorem shown_trace (invocation : Invocation) :
    shown matcher disk invocation (some "trace") =
      (invoke matcher disk invocation).events.map Event.record := by
  rw [shown, Filter.ofSetting?_trace]
  simp only [List.filter_eq_self.mpr fun event _ => Filter.shows_trace event]

theorem shown_sublist_trace (invocation : Invocation) (setting : Option String) :
    (shown matcher disk invocation setting).Sublist
      (shown matcher disk invocation (some "trace")) := by
  rw [shown_trace, shown]
  cases Filter.ofSetting? setting with
  | none => exact List.nil_sublist _
  | some filter => exact List.filter_sublist.map _

/-- A run whose log can be set up ends with one of two exit codes. -/
theorem exitOf_invoke (invocation : Invocation) :
    exitOf (invoke matcher disk invocation).result = success ∨
      exitOf (invoke matcher disk invocation).result = failure := by
  rw [invoke, Traced.result_bind]
  cases (Layout.load disk (.ofString invocation.repo)
      (invocation.config.map .ofString)).result with
  | error fault => exact Or.inr rfl
  | ok layout =>
    show exitOf (perform matcher disk layout invocation).result = _ ∨
      exitOf (perform matcher disk layout invocation).result = _
    by_cases hcheck : invocation.command = some .inventory
    · rw [perform, hcheck, inventory, Traced.result_bind_pure]
      cases (Inventory.collect disk layout).result with
      | error fault => exact Or.inr rfl
      | ok inventory => exact Or.inl rfl
    · obtain ⟨keepGoing, hp⟩ := perform_of_ne_inventory hcheck matcher disk layout
      rw [hp]
      exact exitOf_check matcher disk layout invocation.json keepGoing

end

/-- **The log has a part in the result exactly when it cannot be set up.**  Take accepted
arguments, others that mean the same but for the form of the log, and any two log settings.
The exit codes are the same exactly when the log can be set up under both settings or under
neither; under one for which it cannot be, the run ends with exit code 101 and prints nothing.
If it can be set up under both, the printed texts are the same as well, and so is the fault, if
there is one; each log is made of the records that its setting shows, in its form, and ends
with the same report of the fault.  Whatever the setting, the records that it shows, with all
that they say, are a part of those under `trace`, which shows every event of the run, in the
same order.  The option for the form of the log can be put before any accepted arguments that
do not have it. -/
theorem results_agree_iff (libraries : Libraries) (disk : Disk) {args args' : List String}
    {invocation : Invocation} {logJson : Bool} (hread : Invocation.read args = .ok invocation)
    (hread' : Invocation.read args' = .ok { invocation with logJson := logJson })
    (setting setting' : Option String) :
    ((run libraries disk args setting).exit = (run libraries disk args' setting').exit ↔
      (Filter.SetsUp setting ↔ Filter.SetsUp setting')) ∧
    (¬Filter.SetsUp setting → run libraries disk args setting = ⟨101, "", []⟩) ∧
    (Filter.SetsUp setting → Filter.SetsUp setting' →
      (run libraries disk args setting).stdout = (run libraries disk args' setting').stdout ∧
      (invoke libraries.matcher disk invocation).result =
        (invoke libraries.matcher disk { invocation with logJson := logJson }).result ∧
      ∃ ending, ending = closing libraries.complaint
          (invoke libraries.matcher disk invocation).result ∧
        (run libraries disk args setting).log =
          (shown libraries.matcher disk invocation setting).map (formed invocation.logJson) ++
            ending ∧
        (run libraries disk args' setting').log =
          (shown libraries.matcher disk invocation setting').map (formed logJson) ++ ending) ∧
    (shown libraries.matcher disk invocation setting).Sublist
      (shown libraries.matcher disk invocation (some "trace")) ∧
    shown libraries.matcher disk invocation (some "trace") =
      (invoke libraries.matcher disk invocation).events.map Event.record ∧
    (invocation.logJson = false →
      Invocation.read ("--log-json" :: args) = .ok { invocation with logJson := true }) := by
  refine ⟨?_, run_of_torn libraries disk hread, ?_, shown_sublist_trace _ disk invocation setting,
    shown_trace _ disk invocation, Invocation.read_logJson_cons hread⟩
  · have hcode : exitOf (invoke libraries.matcher disk invocation).result ≠ crash := by
      rcases exitOf_invoke libraries.matcher disk invocation with h | h <;> rw [h] <;> decide
    by_cases hlog : Filter.SetsUp setting <;> by_cases hlog' : Filter.SetsUp setting'
    · rw [exit_run libraries disk hread hlog, exit_run libraries disk hread' hlog']
      exact iff_of_true rfl (iff_of_true hlog hlog')
    · rw [exit_run libraries disk hread hlog, run_of_torn libraries disk hread' hlog']
      simp [hlog, hlog', hcode]
    · rw [run_of_torn libraries disk hread hlog, exit_run libraries disk hread' hlog',
        invoke_logJson]
      simp [hlog, hlog', hcode.symm]
    · rw [run_of_torn libraries disk hread hlog, run_of_torn libraries disk hread' hlog']
      simp [hlog, hlog']
  · intro hlog hlog'
    exact ⟨stdout_congr libraries hread hread' (iff_of_true hlog hlog') rfl, rfl, _, rfl,
      log_run libraries disk hread hlog, log_run libraries disk hread' hlog'⟩

/-- A run with a fault has the same fault whether its log is silent or shows all in the other
form. -/
theorem results_agree_damaged :
    (run .standard damaged.disk ["check"] (some "off")).exit =
        (run .standard damaged.disk ["--log-json", "check"] (some "trace")).exit ∧
      (run .standard damaged.disk ["check"] (some "off")).stdout =
        (run .standard damaged.disk ["--log-json", "check"] (some "trace")).stdout := by
  have hoff : Filter.SetsUp (some "off") := ⟨_, rfl⟩
  have htrace : Filter.SetsUp (some "trace") := ⟨_, Filter.ofSetting?_trace⟩
  obtain ⟨hexit, -, hsame, -⟩ := @results_agree_iff .standard damaged.disk ["check"]
    ["--log-json", "check"] ⟨false, false, ".", none, some (.check false)⟩ true rfl rfl
    (some "off") (some "trace")
  exact ⟨hexit.mpr (iff_of_true hoff htrace), (hsame hoff htrace).1⟩

/-- **A log setting can take the result away.**  The documents of a disk cover all that is
expected, and a check says so without a log setting.  Under one that begins with a blank of two
bytes it ends with another exit code and prints nothing. -/
theorem result_lost_documented :
    (run .standard documented ["check"] none).exit = 0 ∧
      run .standard documented ["check"] (some "\u00a0a=off") = ⟨101, "", []⟩ := by
  have hread : Invocation.read ["check"] =
      .ok ⟨false, false, ".", none, some (.check false)⟩ := rfl
  constructor
  · have hload : (Layout.load documented (.ofString ".") none).result =
        .ok (.standard (.ofString ".")) := rfl
    rw [exit_run .standard documented hread ⟨_, rfl⟩, result_invoke hload]
    exact (exitOf_check_iff_covered _ documented _ false false).mpr covered_documented
  · refine run_of_torn .standard documented hread ?_
    rintro ⟨filter, hfilter⟩
    have hnone : Filter.ofSetting? (some "\u00a0a=off") = none := by decide
    rw [hnone] at hfilter
    cases hfilter

end Program
end DocCoverage
