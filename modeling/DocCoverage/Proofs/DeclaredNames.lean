import DocCoverage.Proofs.Inputs
import DocCoverage.Proofs.Rendering
import DocCoverage.Proofs.Words

/-! # A source mentions the names that it declares

The scan for declarations and the search for mentions have their own idea of a name each: for
the one it is what stands between the opening words and the blanks or the equals sign, for
the other it is what begins and ends where a word does.  They agree.  The opening words end in
a space, and what follows a declared name is a blank or the equals sign, so the name is a
longest run of word characters (`wordRun_of_mem_all`).  A source therefore mentions every name
that it declares, and a document with the same text lacks none of its policies, as far as they
can be looked for: the length of a name is limited only there, and a source can declare one that
is refused (`declared_and_refused`). -/

namespace DocCoverage

open Text

namespace Declaration

/-- What the scan finds stands in the source as it is written. -/
theorem exists_written_of_mem_all {s : List Char} {d : Declaration} (h : d ∈ all s) :
    ∃ before behind, s = before ++ (d.written ++ behind) := by
  fun_induction all s with
  | case1 s first rest hread ih =>
    obtain ⟨-, rfl⟩ := read?_eq_some_iff.mp hread
    rcases List.mem_cons.mp h with rfl | h
    · exact ⟨[], rest, rfl⟩
    · obtain ⟨before, behind, rfl⟩ := ih h
      exact ⟨first.written ++ before, behind, by simp⟩
  | case2 => exact absurd h List.not_mem_nil
  | case3 c rest hread ih =>
    obtain ⟨before, behind, rfl⟩ := ih h
    exact ⟨c :: before, behind, rfl⟩

/-- **A declared name is a word of its source**: no part of a word stands beside it. -/
theorem wordRun_of_mem_all {s : List Char} {d : Declaration} (h : d ∈ all s) :
    WordRun s d.name := by
  obtain ⟨before, behind, rfl⟩ := exists_written_of_mem_all h
  have hd := wellFormed_of_mem_all h
  refine ⟨hd.name_ne, hd.name_word, before ++ opening,
    d.before ++ '=' :: (d.after ++ '"' :: (d.value ++ '"' :: ';' :: behind)), ?_, ?_, ?_⟩
  · simp [written]
  · have hspace : opening.getLast? = some ' ' := by decide
    rw [List.getLast?_append, hspace, Option.some_or, isWordAt_some]
    decide
  · exact isWordAt_eq_false_iff.mpr (isWord_head?_of_blank hd.before_blank _)

end Declaration

theorem wordRun_of_mem_declaredNames {source beginning name : String}
    (h : name ∈ declaredNames source beginning) : WordRun source.toList name.toList := by
  obtain ⟨⟨d, hd, hname⟩, -⟩ := mem_declaredNames.mp h
  rw [← hname]
  exact Declaration.wordRun_of_mem_all hd

/-- **A source mentions what it declares.** -/
theorem mentions_of_mem_declaredNames {source beginning name : String}
    (h : name ∈ declaredNames source beginning) : mentions source name = true := by
  rw [(isPlainWord_of_mem_declaredNames h).mentions_iff, mem_words_iff]
  exact wordRun_of_mem_declaredNames h

/-- A document with the text of a source lacks none of the names that the source declares. -/
theorem unmentioned_declaredNames (source beginning : String) :
    unmentioned (declaredNames source beginning) source = [] := by
  rw [unmentioned, List.filter_eq_nil_iff]
  intro name hname
  rw [mentions_of_mem_declaredNames hname]
  decide

/-- The policies are those that the policies file declares. -/
theorem Collect.policies_of_readText {disk : Disk} {layout : Layout} {text : String}
    (hsource : disk.readText (layout.resolve layout.policiesFile) = .ok text) :
    (ofCategory disk layout .policies).result =
      .ok (declaredNames text layout.policyBeginning) := by
  show (policies disk layout).result = _
  rw [result_policies, hsource]
  rfl

/-- In front of a document that has the text of the policies file the policies are looked for,
and if none of them is refused, none is missing. -/
theorem Check.evaluate_policies_of_same_text (matcher : Matcher) {disk : Disk} {layout : Layout}
    {documents : Documents}
    (hsource : disk.readText (layout.resolve layout.policiesFile) = .ok documents.api) :
    (matcher.Accepts (declaredNames documents.api layout.policyBeginning) →
      ∃ result, (evaluate matcher disk layout documents .policies).result = .ok result ∧
        result.checked = (declaredNames documents.api layout.policyBeginning).length ∧
        result.missing = []) ∧
    ∀ refusal, matcher.firstRefusal? (declaredNames documents.api layout.policyBeginning) =
        some refusal →
      (evaluate matcher disk layout documents .policies).result = .error (.pattern refusal) := by
  have hcollect := Collect.policies_of_readText hsource
  constructor
  · intro haccepts
    refine ⟨_, evaluate_ok_iff.mpr ⟨_, hcollect, haccepts, rfl⟩, rfl, ?_⟩
    exact unmentioned_declaredNames documents.api layout.policyBeginning
  · intro refusal hrefused
    rw [result_evaluate, hcollect, Except.bind, map_eq_error_iff]
    exact Matcher.accept_error_iff.mpr ⟨refusal, hrefused, rfl⟩

/-- **Declared names are words of their source, and are found there.**  Each name that a source
declares with a given beginning has that beginning and is a longest run of word characters of
the source, so a search finds it there unless it is refused.  When the document of the policies
has the text of the policies file, the policies are therefore evaluated and none of them is
missing, whatever the tree holds elsewhere, if none is refused; otherwise their evaluation fails
with the first that is. -/
theorem declared_names_are_found (matcher : Matcher) :
    (∀ source beginning : String, ∀ name ∈ declaredNames source beginning,
      WordRun source.toList name.toList ∧ beginning.toList <+: name.toList ∧
        (matcher.finds source name = .ok true ↔ matcher.refusal? name = none) ∧
        ∀ refusal, matcher.refusal? name = some refusal →
          matcher.finds source name = .error (.pattern refusal)) ∧
    ∀ (disk : Disk) (layout : Layout) (documents : Documents) (text : String),
      disk.readText (layout.resolve layout.apiDoc) = .ok text →
      disk.readText (layout.resolve layout.policiesFile) = .ok text →
      (documents.api = text ∨ (Documents.load disk layout).result = .ok documents) →
      (matcher.Accepts (declaredNames text layout.policyBeginning) →
        ∃ result, (Check.evaluate matcher disk layout documents .policies).result = .ok result ∧
          result.checked = (declaredNames text layout.policyBeginning).length ∧
          result.missing = []) ∧
      ∀ refusal, matcher.firstRefusal? (declaredNames text layout.policyBeginning) =
          some refusal →
        (Check.evaluate matcher disk layout documents .policies).result =
          .error (.pattern refusal) := by
  constructor
  · intro source beginning name hname
    refine ⟨wordRun_of_mem_declaredNames hname, (mem_declaredNames.mp hname).2, ?_,
      fun refusal hrefused => Matcher.finds_of_refused hrefused source⟩
    rw [Matcher.finds_true_iff]
    exact and_iff_left (mentions_of_mem_declaredNames hname)
  · intro disk layout documents text hdoc hsource hloaded
    have htext : documents.api = text := by
      rcases hloaded with h | h
      · exact h
      · have hread := (Documents.load_ok_iff.mp h).1
        exact Except.ok.inj (hread.symm.trans hdoc)
    subst htext
    exact Check.evaluate_policies_of_same_text matcher hsource

/-- A disk on which every file has the same text. -/
def Disk.filledWith (text : String) : Disk where
  leadsSomewhere _ := false
  readText _ := .ok text
  entries _ := .error .notFound

/-- A source with one declaration. -/
def sourceOf (d : Declaration) : String :=
  String.ofList (Declaration.rendered [([], d)] ['\n'])

/-- It declares the name, and no other one. -/
theorem declaredNames_sourceOf {d : Declaration} (hd : d.WellFormed) {beginning : String}
    (hbeginning : beginning.toList <+: d.name) :
    declaredNames (sourceOf d) beginning = [String.ofList d.name] := by
  have hgap : ¬Declaration.opening <:+: [] := by decide +kernel
  have hlast : ¬Declaration.opening <:+: ['\n'] := by decide +kernel
  have hwritten : ∀ part ∈ [([], d)], part.2.WellFormed ∧ ¬Declaration.opening <:+: part.1 :=
    List.forall_mem_singleton.mpr ⟨hd, hgap⟩
  have hall := (Declaration.divided_rendered hwritten hlast).all_eq
  refine Identifiers.eq_of_ascending (Identifiers.ascending_ofList _) (List.pairwise_singleton _ _)
    fun name => ?_
  rw [mem_declaredNames, sourceOf, String.toList_ofList, hall, List.mem_singleton]
  constructor
  · rintro ⟨⟨other, hother, hname⟩, -⟩
    obtain rfl : other = d := List.mem_singleton.mp hother
    rw [hname, String.ofList_toList]
  · rintro rfl
    rw [String.toList_ofList]
    exact ⟨⟨d, List.mem_singleton_self _, rfl⟩, hbeginning⟩

/-- A source with one policy, which seems to declare another one in its value. -/
def editSource : String := sourceOf Declaration.editPolicy

/-- The policy of that source is found in it, and passes when the source is its own
document. -/
theorem editPolicy_found :
    "CanEdit" ∈ declaredNames editSource "Can" ∧
      Matcher.standard.finds editSource "CanEdit" = .ok true ∧
      (Documents.load (.filledWith editSource) (.standard (.ofString "."))).result =
        .ok ⟨editSource, editSource⟩ ∧
      ∃ result, (Check.evaluate .standard (.filledWith editSource) (.standard (.ofString "."))
        ⟨editSource, editSource⟩ .policies).result = .ok result ∧ result.missing = [] := by
  have hnames : declaredNames editSource "Can" = ["CanEdit"] :=
    declaredNames_sourceOf Declaration.editPolicy_wellFormed (by decide +kernel)
  have hmem : "CanEdit" ∈ declaredNames editSource "Can" := by
    rw [hnames]
    exact List.mem_singleton_self _
  have haccepts : Matcher.standard.Accepts (declaredNames editSource "Can") := by
    rw [hnames]
    decide +kernel
  obtain ⟨hfound, hcheck⟩ := declared_names_are_found .standard
  obtain ⟨-, -, hfinds, -⟩ := hfound editSource "Can" "CanEdit" hmem
  obtain ⟨hpasses, -⟩ := hcheck (.filledWith editSource) (.standard (.ofString "."))
    ⟨editSource, editSource⟩ editSource rfl rfl (.inr rfl)
  obtain ⟨result, hresult, -, hmissing⟩ := hpasses haccepts
  exact ⟨hmem, hfinds.mpr (haccepts _ hmem), rfl, result, hresult, hmissing⟩

/-- A declaration of a name with a value of one letter. -/
def Declaration.plain (name : String) : Declaration where
  name := name.toList
  before := []
  after := []
  value := ['x']

theorem Declaration.plain_wellFormed {name : String} (h : IsPlainWord name) :
    (plain name).WellFormed where
  name_ne := h.ne
  name_word := h.word
  before_blank := List.forall_mem_nil _
  after_blank := List.forall_mem_nil _
  value_ne := List.cons_ne_nil _ _
  value_plain := by simp [plain]

/-- A source and its declared name, with what a check makes of the source as its own
document when the name is refused. -/
theorem refused_of_declared {name refusal : String} (h : IsPlainWord name) (matcher : Matcher)
    (hrefused : matcher.refusal? name = some refusal) :
    name ∈ declaredNames (sourceOf (.plain name)) "" ∧
      matcher.finds (sourceOf (.plain name)) name = .error (.pattern refusal) ∧
      (Check.evaluate matcher (.filledWith (sourceOf (.plain name)))
        { Layout.standard (.ofString ".") with policyBeginning := "" }
        ⟨sourceOf (.plain name), sourceOf (.plain name)⟩ .policies).result =
          .error (.pattern refusal) := by
  have hnames : declaredNames (sourceOf (.plain name)) "" = [name] := by
    have hbeginning : "".toList <+: (Declaration.plain name).name := List.nil_prefix
    rw [declaredNames_sourceOf (Declaration.plain_wellFormed h) hbeginning, Declaration.plain,
      String.ofList_toList]
  refine ⟨?_, Matcher.finds_of_refused hrefused _, ?_⟩
  · rw [hnames]
    exact List.mem_singleton_self _
  · refine (@Check.evaluate_policies_of_same_text matcher (.filledWith (sourceOf (.plain name)))
      { Layout.standard (.ofString ".") with policyBeginning := "" } ⟨_, _⟩ rfl).2 refusal ?_
    show matcher.firstRefusal? (declaredNames (sourceOf (.plain name)) "") = some refusal
    rw [hnames]
    simp only [Matcher.firstRefusal?, List.findSome?_cons, hrefused]

/-- **A declared name may be refused.**  A source declares the enormous word and mentions it, but
the search for it fails, and so do the policies in front of a document with the same text. -/
theorem declared_and_refused :
    enormous ∈ declaredNames (sourceOf (.plain enormous)) "" ∧
      Matcher.standard.finds (sourceOf (.plain enormous)) enormous =
        .error (.pattern "Compiled regex exceeds size limit of 10485760 bytes.") ∧
      (Check.evaluate .standard (.filledWith (sourceOf (.plain enormous)))
        { Layout.standard (.ofString ".") with policyBeginning := "" }
        ⟨sourceOf (.plain enormous), sourceOf (.plain enormous)⟩ .policies).result =
          .error (.pattern "Compiled regex exceeds size limit of 10485760 bytes.") :=
  refused_of_declared isPlainWord_enormous .standard Matcher.standard_refuses_enormous

end DocCoverage
