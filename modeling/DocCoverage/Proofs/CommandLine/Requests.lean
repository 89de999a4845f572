import DocCoverage.Proofs.CommandLine.Reading

/-! # Which arguments are read, and as what

The reader of arguments accepts the spellings of well-formed requests and nothing else, and
what it reads is what the request means (`read_ok_iff_request`).  Both readers of options
run as `ReadsOptions` says; what they have stored is `optionsOf` the options of their side,
and `assemble` makes of the two sides what the request means (`assemble_bare`,
`assemble_check`, `assemble_inventory`). -/

namespace DocCoverage
namespace Invocation

/-! ## Two sides put together -/

theorem decide_raises (request : Request) (raised : Flag) :
    decide (request.Raises raised) =
      (decide (.flag raised ∈ request.before) || decide (.flag raised ∈ request.behind)) :=
  Bool.decide_or _ _

theorem assemble_bare (before : List Item) :
    assemble (optionsOf before) none = (Request.bare before).invocation := by
  have hnothing : ∀ raised : Flag, decide (.flag raised ∈ (Request.bare before).behind) = false :=
    fun raised => decide_eq_false List.not_mem_nil
  rw [Request.invocation, decide_raises, decide_raises, hnothing, hnothing, Bool.or_false,
    Bool.or_false]
  rfl

theorem assemble_check (before behind : List Item) :
    assemble (optionsOf before) (some (.check, optionsOf behind)) =
      (Request.check before behind).invocation := by
  rw [Request.invocation, decide_raises, decide_raises]
  rfl

theorem assemble_inventory (before behind : List Item) :
    assemble (optionsOf before) (some (.inventory, optionsOf behind)) =
      (Request.inventory before behind).invocation := by
  rw [Request.invocation, decide_raises, decide_raises]
  rfl

/-! ## Requests and their arguments -/

/-- A side that is opened by a subcommand, and the subcommand. -/
theorem sideOf?_eq_some_iff {arg : String} {side : Side} :
    sideOf? arg = some side ↔
      (arg = "check" ∧ side = .check) ∨ (arg = "inventory" ∧ side = .inventory) := by
  unfold sideOf?
  split
  · simp [eq_comm]
  · simp [eq_comm]
  · next hcheck hinventory =>
    constructor
    · exact nofun
    · rintro (⟨h, -⟩ | ⟨h, -⟩)
      · exact absurd h hcheck
      · exact absurd h hinventory

theorem readBehind_ok_iff {side : Side} {args : List String} {o : Options} :
    readBehind side {} .nothing args = .ok o ↔
      ∃ items body ending, args = body ++ ending ∧ Spells items body ∧ side.Admits items ∧
        Request.Ending ending ∧ o = optionsOf items :=
  (readsOptions_behind side).run_start

/-- What is read is a request that the arguments spell. -/
theorem request_of_read {args : List String} {invocation : Invocation}
    (h : read args = .ok invocation) :
    ∃ request : Request, request.WellFormed ∧ request.Spelled args ∧
      request.invocation = invocation := by
  obtain ⟨⟨o, behind⟩, hbefore, h⟩ := bind_eq_ok_iff.mp h
  obtain rfl : assemble o behind = invocation := Except.ok.inj h
  obtain ⟨before, body, rest, rfl, hspells, hadmits, hstops⟩ :=
    readsOptions_before.run_start.mp hbefore
  rcases hstops with ⟨hending, hresult⟩ | ⟨arg, more, side, o', rfl, hside, hbehind, hresult⟩
  · cases hresult
    exact ⟨.bare before, hadmits, .bare hspells hending, (assemble_bare before).symm⟩
  · cases hresult
    obtain ⟨behind, body', ending, rfl, hspells', hadmits', hending, rfl⟩ :=
      readBehind_ok_iff.mp hbehind
    rcases sideOf?_eq_some_iff.mp hside with ⟨rfl, rfl⟩ | ⟨rfl, rfl⟩
    · exact ⟨.check before behind, ⟨hadmits, hadmits'⟩, .check hspells hspells' hending,
        (assemble_check before behind).symm⟩
    · exact ⟨.inventory before behind, ⟨hadmits, hadmits'⟩, .inventory hspells hspells' hending,
        (assemble_inventory before behind).symm⟩

/-- Options before a subcommand, and a subcommand with its options, are read. -/
theorem read_subcommand {before behind : List Item} {body args : List String} {arg : String}
    {side : Side} (hspells : Spells before body) (hadmits : Side.before.Admits before)
    (hside : sideOf? arg = some side)
    (hbehind : readBehind side {} .nothing args = .ok (optionsOf behind)) :
    read (body ++ arg :: args) =
      .ok (assemble (optionsOf before) (some (side, optionsOf behind))) := by
  have hbefore := readsOptions_before.run_start.mpr
    ⟨before, body, arg :: args, rfl, hspells, hadmits,
      Or.inr ⟨arg, args, side, optionsOf behind, rfl, hside, hbehind, rfl⟩⟩
  exact bind_eq_ok_iff.mpr ⟨_, hbefore, rfl⟩

/-- A request is read as what it means. -/
theorem read_of_request {args : List String} {request : Request} (hwell : request.WellFormed)
    (hspelled : request.Spelled args) : read args = .ok request.invocation := by
  cases hspelled with
  | @bare before body ending hspells hending =>
    have hbefore := readsOptions_before.run_start.mpr
      ⟨before, body, ending, rfl, hspells, hwell, Or.inl ⟨hending, rfl⟩⟩
    rw [← assemble_bare]
    exact bind_eq_ok_iff.mpr ⟨_, hbefore, rfl⟩
  | @check before behind body body' ending hspells hspells' hending =>
    rw [← assemble_check]
    exact read_subcommand hspells hwell.1 rfl
      (readBehind_ok_iff.mpr ⟨behind, body', ending, rfl, hspells', hwell.2, hending, rfl⟩)
  | @inventory before behind body body' ending hspells hspells' hending =>
    rw [← assemble_inventory]
    exact read_subcommand hspells hwell.1 rfl
      (readBehind_ok_iff.mpr ⟨behind, body', ending, rfl, hspells', hwell.2, hending, rfl⟩)

/-- What is refused is a misuse, or it asks for help or the version. -/
theorem exit_or_asked (refusal : Refusal) :
    refusal.exit = 2 ∨ refusal = .help ∨ refusal = .version := by
  cases refusal <;> decide

/-- **The grammar of the arguments.**  Arguments are read if and only if they spell a
well-formed request, and then as what it means; all others are a misuse or ask for help or
the version.  On a side the options may be in any order, and an option means the same on
either side of the subcommand. -/
theorem read_ok_iff_request :
    (∀ args invocation, read args = .ok invocation ↔
      ∃ request : Request, request.WellFormed ∧ request.Spelled args ∧
        request.invocation = invocation) ∧
    (∀ args, (¬∃ request : Request, request.WellFormed ∧ request.Spelled args) →
      ∃ refusal, read args = .error refusal ∧
        (refusal.exit = 2 ∨ refusal = .help ∨ refusal = .version)) ∧
    (∀ request request' : Request, request.WellFormed → request.Permuted request' →
      request'.WellFormed ∧ ∀ args args', request.Spelled args → request'.Spelled args' →
        read args' = read args) ∧
    ∀ request request' : Request, request.WellFormed → request'.WellFormed →
      request.Moved request' → ∀ args args', request.Spelled args → request'.Spelled args' →
        read args' = read args := by
  refine ⟨?_, ?_, ?_, ?_⟩
  · intro args invocation
    refine ⟨request_of_read, ?_⟩
    rintro ⟨request, hwell, hspelled, rfl⟩
    exact read_of_request hwell hspelled
  · intro args hnone
    cases hread : read args with
    | error refusal => exact ⟨refusal, rfl, exit_or_asked refusal⟩
    | ok invocation =>
      obtain ⟨request, hwell, hspelled, -⟩ := request_of_read hread
      exact absurd ⟨request, hwell, hspelled⟩ hnone
  · intro request request' hwell hpermuted
    have hwell' := hpermuted.wellFormed hwell
    refine ⟨hwell', ?_⟩
    intro args args' hspelled hspelled'
    rw [read_of_request hwell hspelled, read_of_request hwell' hspelled',
      Request.invocation_eq_of_perm hwell hpermuted]
  · intro request request' hwell hwell' hmoved args args' hspelled hspelled'
    rw [read_of_request hwell hspelled, read_of_request hwell' hspelled',
      Request.invocation_eq_of_moved hwell hwell' hmoved]

/-- A request with a repository before `check` that is named like it, and another behind it
that begins with a dash. -/
def twoRepositories : Request :=
  .check [.value .repo "check", .flag .json] [.value .repo "-x", .flag .keepGoing]

/-- The same request in another order. -/
def reordered : Request :=
  .check [.flag .json, .value .repo "check"] [.flag .keepGoing, .value .repo "-x"]

/-- The same request with an option on the other side. -/
def jsonBehind : Request :=
  .check [.value .repo "check"] [.flag .json, .value .repo "-x", .flag .keepGoing]

theorem twoRepositories_wellFormed : twoRepositories.WellFormed :=
  ⟨⟨by decide, by decide⟩, ⟨by decide, by decide⟩⟩

theorem jsonBehind_wellFormed : jsonBehind.WellFormed :=
  ⟨⟨by decide, by decide⟩, ⟨by decide, by decide⟩⟩

theorem twoRepositories_spelled : twoRepositories.Spelled
    ["--repo", "check", "--json", "check", "--repo=-x", "--keep-going", "--"] :=
  .check (.cons (.apart (by decide) (by decide)) (.cons (.flag .json) .nil))
    (.cons (.joined (by decide)) (.cons (.flag .keepGoing) .nil)) (Or.inr rfl)

theorem reordered_spelled : reordered.Spelled
    ["--json", "--repo=check", "check", "--keep-going", "--repo=-x"] :=
  .check (.cons (.flag .json) (.cons (.joined (by decide)) .nil))
    (.cons (.flag .keepGoing) (.cons (.joined (by decide)) .nil)) (Or.inl rfl)

theorem jsonBehind_spelled : jsonBehind.Spelled
    ["--repo=check", "check", "--json", "--repo=-x", "--keep-going"] :=
  .check (.cons (.joined (by decide)) .nil)
    (.cons (.flag .json) (.cons (.joined (by decide)) (.cons (.flag .keepGoing) .nil)))
    (Or.inl rfl)

/-- A value may be named like the subcommand behind it.  An option where a value is expected
is refused. -/
theorem read_twoRepositories :
    read ["--repo", "check", "--json", "check", "--repo=-x", "--keep-going", "--"] =
      .ok ⟨true, false, "-x", none, some (.check true)⟩ ∧
    (∃ refusal, read ["check", "--repo", "--json"] = .error refusal ∧
      (refusal.exit = 2 ∨ refusal = .help ∨ refusal = .version)) ∧
    read ["--json", "--repo=check", "check", "--keep-going", "--repo=-x"] =
      read ["--repo", "check", "--json", "check", "--repo=-x", "--keep-going", "--"] ∧
    read ["--repo=check", "check", "--json", "--repo=-x", "--keep-going"] =
      read ["--repo", "check", "--json", "check", "--repo=-x", "--keep-going", "--"] := by
  obtain ⟨hread, hrefused, hpermuted, hmoved⟩ := read_ok_iff_request
  refine ⟨?_, ?_, ?_, ?_⟩
  · exact (hread _ _).mpr ⟨_, twoRepositories_wellFormed, twoRepositories_spelled, by decide⟩
  · refine hrefused _ ?_
    rintro ⟨request, hwell, hspelled⟩
    cases (hread _ _).mpr ⟨request, hwell, hspelled, rfl⟩
  · exact (hpermuted twoRepositories reordered twoRepositories_wellFormed
      (.check (.swap ..) (.swap ..))).2 _ _ twoRepositories_spelled reordered_spelled
  · exact hmoved twoRepositories jsonBehind twoRepositories_wellFormed jsonBehind_wellFormed
      (.check (.swap ..) (.refl _)) _ _ twoRepositories_spelled jsonBehind_spelled

end Invocation
end DocCoverage
