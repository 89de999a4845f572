import DocCoverage.Invocation

/-! # Arguments without and with a subcommand

Reading arguments that name no subcommand ends behind the last option, with at
most one value still to be stored (`readBefore_resume`).  A subcommand that is
appended is therefore read as one, unless `--` has ended the options before it. -/

namespace DocCoverage
namespace Invocation

/-- Only two dashes end the options. -/
theorem eq_of_shapeOf_rest {side : Side} {arg : String} (h : shapeOf side arg = .rest) :
    arg = "--" := by
  have hlong : ∀ name value, longShape side name value ≠ .rest := by
    intro name value
    unfold longShape
    split <;> (try split) <;> simp
  unfold shapeOf at h
  split at h
  · next hlist => exact String.toList_injective hlist
  · split at h
    · exact absurd h (hlong _ _)
    · exact absurd h (hlong _ _)
  · simp at h
  · split at h <;> simp at h
  · simp at h
  · simp at h

/-- A plain argument that no option awaits is a subcommand or refused. -/
theorem readBefore_plain (o : Options) {pending : Pending} {arg : String}
    (hs : shapeOf .before arg = .plain) (hpending : ∀ slot, pending ≠ .awaited slot)
    (args : List String) :
    readBefore o pending (arg :: args) =
      match sideOf? arg with
      | some side => (readBehind side {} .nothing args).bind fun behind =>
          (o.settle pending).map fun o => (o, some (side, behind))
      | none => .error (if arg = "help" then readHelp args else .invalidSubcommand) := by
  cases pending with
  | awaited slot => exact absurd rfl (hpending slot)
  | nothing =>
    simp only [readBefore, hs]
    cases sideOf? arg with
    | none => rfl
    | some side => cases readBehind side {} .nothing args <;> rfl
  | given slot value =>
    simp only [readBefore, hs]
    cases sideOf? arg with
    | none => rfl
    | some side =>
      cases readBehind side {} .nothing args with
      | error refusal => rfl
      | ok behind => cases o.settle (.given slot value) <;> rfl

/-- An argument before any subcommand is read on its own, whatever follows it; or the
arguments are refused or name a subcommand there. -/
theorem readBefore_cons (o : Options) (pending : Pending) {arg : String} (hrest : arg ≠ "--") :
    (∃ o₁ pending₁, ∀ args, readBefore o pending (arg :: args) = readBefore o₁ pending₁ args) ∨
      ∀ args o', readBefore o pending (arg :: args) ≠ .ok (o', none) := by
  have hoption : ∀ shape, (∀ args, readBefore o pending (arg :: args) =
        (option o pending shape).bind fun next => readBefore next.1 next.2 args) →
      (∃ o₁ pending₁, ∀ args, readBefore o pending (arg :: args) = readBefore o₁ pending₁ args) ∨
        ∀ args o', readBefore o pending (arg :: args) ≠ .ok (o', none) := by
    intro shape hread
    cases ho : option o pending shape with
    | error refusal => exact Or.inr fun args o' => by simp [hread, ho, Except.bind]
    | ok next => exact Or.inl ⟨next.1, next.2, fun args => by rw [hread, ho]; rfl⟩
  cases hs : shapeOf .before arg with
  | rest => exact absurd (eq_of_shapeOf_rest hs) hrest
  | plain =>
    -- a value that is awaited is read like an option; anything else must be a subcommand
    by_cases hpending : ∃ slot, pending = .awaited slot
    · obtain ⟨slot, rfl⟩ := hpending
      exact Or.inl ⟨o, .given slot arg, fun args => by simp only [readBefore, hs]⟩
    · refine Or.inr fun args o' => ?_
      rw [readBefore_plain o hs (fun slot h => hpending ⟨slot, h⟩)]
      cases sideOf? arg with
      | none => simp
      | some side =>
        dsimp only
        cases readBehind side {} .nothing args with
        | error refusal => simp [Except.bind]
        | ok behind => cases o.settle pending <;> simp [Except.bind, Except.map]
  | flag flag value => exact hoption _ fun args => by simp only [readBefore, hs]; rfl
  | slot slot value => exact hoption _ fun args => by simp only [readBefore, hs]; rfl
  | help value => exact hoption _ fun args => by simp only [readBefore, hs]; rfl
  | version value => exact hoption _ fun args => by simp only [readBefore, hs]; rfl
  | unknown => exact hoption _ fun args => by simp only [readBefore, hs]; rfl

/-- Arguments that name no subcommand are read up to their end; whatever is appended
is read from there. -/
theorem readBefore_resume {o o' : Options} {pending : Pending} {args : List String}
    (h : readBefore o pending args = .ok (o', none)) (hrest : "--" ∉ args) :
    ∃ o₁ pending₁, o₁.settle pending₁ = .ok o' ∧
      ∀ more, readBefore o pending (args ++ more) = readBefore o₁ pending₁ more := by
  induction args generalizing o pending with
  | nil =>
    refine ⟨o, pending, ?_, fun more => rfl⟩
    cases hs : o.settle pending with
    | error refusal => simp [readBefore, hs, bind, Except.bind] at h
    | ok settled => simpa [readBefore, hs, bind, Except.bind, pure, Except.pure] using h
  | cons arg args ih =>
    obtain ⟨hne, hmem⟩ : "--" ≠ arg ∧ "--" ∉ args := by simpa using hrest
    rcases readBefore_cons o pending (Ne.symm hne) with ⟨o₁, pending₁, hread⟩ | hread
    · rw [hread] at h
      obtain ⟨o₂, pending₂, hsettle, hmore⟩ := ih h hmem
      exact ⟨o₂, pending₂, hsettle, fun more => by rw [← hmore, ← hread]; rfl⟩
    · exact absurd h (hread args o')

/-- Arguments without a subcommand ask for the same run when `check` is appended, and
for the check that goes on when its option is appended too. -/
theorem read_append_check {globals : List String} {invocation : Invocation}
    (hread : read globals = .ok invocation) (hcommand : invocation.command = none)
    (hrest : "--" ∉ globals) :
    read (globals ++ ["check"]) = .ok { invocation with command := some (.check false) } ∧
      read (globals ++ ["check", "--keep-going"]) =
        .ok { invocation with command := some (.check true) } := by
  cases hbefore : readBefore {} .nothing globals with
  | error refusal => simp [read, hbefore, bind, Except.bind] at hread
  | ok result =>
    obtain ⟨o, behind⟩ := result
    obtain rfl : assemble o behind = invocation := by
      simpa [read, hbefore, bind, Except.bind, pure, Except.pure] using hread
    obtain rfl : behind = none := by
      cases behind with
      | none => rfl
      | some behind => cases hcommand
    obtain ⟨o₁, pending₁, hsettle, hmore⟩ := readBefore_resume hbefore hrest
    -- the value that is still pending is given, or it could not have been stored
    have hpending : ∀ slot, pending₁ ≠ .awaited slot := by
      rintro slot rfl
      cases hsettle
    have hcheck : ∀ args behind, readBehind .check {} .nothing args = .ok behind →
        read (globals ++ "check" :: args) = .ok (assemble o (some (.check, behind))) := by
      intro args behind hbehind
      have hplain : readBefore o₁ pending₁ ("check" :: args) =
          .ok (o, some (.check, behind)) := by
        rw [readBefore_plain o₁ rfl hpending args]
        show (readBehind .check {} .nothing args).bind _ = _
        rw [hbehind]
        show (o₁.settle pending₁).map _ = _
        rw [hsettle]
        rfl
      rw [read, hmore, hplain]
      rfl
    refine ⟨?_, ?_⟩
    · rw [hcheck [] {} rfl]
      simp [assemble]
    · rw [hcheck ["--keep-going"] { keepGoing := true } rfl]
      simp [assemble]

end Invocation
end DocCoverage
