import DocCoverage.Matcher
import DocCoverage.Proofs.Results

/-! # What a matcher makes of identifiers

A matcher looks for identifiers one after the other.  Whether it refuses one depends on the
identifier alone and not on the text, so the search comes apart into two questions: whether
any of the identifiers is refused (`Matcher.accept`), and which of them the text does not
mention (`unmentioned`).  What is missing is the answer to the second question if that to the
first is no, and otherwise the first identifier that is refused ends the search
(`Matcher.missing_eq`).

The engine of the program refuses what is too long, and nothing else
(`Matcher.refusal?_upTo_eq_none_iff`).  So there are identifiers that it refuses and that are
mentioned wherever they stand, such as `enormous`. -/

namespace DocCoverage

/-- The identifiers that the text does not mention, in the given order and as often as given. -/
def unmentioned (identifiers : List String) (text : String) : List String :=
  identifiers.filter fun identifier => !mentions text identifier

theorem unmentioned_eq_nil_iff {identifiers : List String} {text : String} :
    unmentioned identifiers text = [] ↔
      ∀ identifier ∈ identifiers, mentions text identifier = true := by
  simp [unmentioned]

namespace Matcher

variable (matcher : Matcher)

/-- None of the identifiers is refused. -/
def Accepts (identifiers : List String) : Prop :=
  ∀ identifier ∈ identifiers, matcher.refusal? identifier = none

instance (identifiers : List String) : Decidable (matcher.Accepts identifiers) :=
  inferInstanceAs (Decidable (∀ identifier ∈ identifiers, matcher.refusal? identifier = none))

/-- The words in which the first of the identifiers is refused that is. -/
def firstRefusal? (identifiers : List String) : Option String :=
  identifiers.findSome? matcher.refusal?

/-- Fails if one of the identifiers is refused, with the first that is. -/
def accept (identifiers : List String) : Except Fault Unit :=
  match matcher.firstRefusal? identifiers with
  | none => .ok ()
  | some refusal => .error (.pattern refusal)

variable {matcher}

theorem firstRefusal?_eq_none_iff {identifiers : List String} :
    matcher.firstRefusal? identifiers = none ↔ matcher.Accepts identifiers :=
  List.findSome?_eq_none_iff

theorem accept_cons_of_accepted {identifier : String} (h : matcher.refusal? identifier = none)
    (rest : List String) : matcher.accept (identifier :: rest) = matcher.accept rest := by
  simp only [accept, firstRefusal?, List.findSome?_cons, h]

theorem accept_cons_of_refused {identifier refusal : String}
    (h : matcher.refusal? identifier = some refusal) (rest : List String) :
    matcher.accept (identifier :: rest) = .error (.pattern refusal) := by
  simp only [accept, firstRefusal?, List.findSome?_cons, h]

theorem accept_ok_iff {identifiers : List String} :
    matcher.accept identifiers = .ok () ↔ matcher.Accepts identifiers := by
  rw [← firstRefusal?_eq_none_iff, accept]
  cases matcher.firstRefusal? identifiers <;> simp

theorem accept_error_iff {identifiers : List String} {fault : Fault} :
    matcher.accept identifiers = .error fault ↔
      ∃ refusal, matcher.firstRefusal? identifiers = some refusal ∧ fault = .pattern refusal := by
  rw [accept]
  cases matcher.firstRefusal? identifiers <;> simp [eq_comm]

/-- A refusal is that of one of the identifiers. -/
theorem exists_refused {identifiers : List String} {refusal : String}
    (h : matcher.firstRefusal? identifiers = some refusal) :
    ∃ identifier ∈ identifiers, matcher.refusal? identifier = some refusal :=
  List.exists_of_findSome?_eq_some h

/-! ## One identifier -/

theorem finds_of_accepted {identifier : String} (h : matcher.refusal? identifier = none)
    (text : String) : matcher.finds text identifier = .ok (mentions text identifier) := by
  rw [finds, h]

theorem finds_of_refused {identifier refusal : String}
    (h : matcher.refusal? identifier = some refusal) (text : String) :
    matcher.finds text identifier = .error (.pattern refusal) := by
  rw [finds, h]

/-- An identifier is found when it is accepted and mentioned. -/
theorem finds_true_iff {text identifier : String} :
    matcher.finds text identifier = .ok true ↔
      matcher.refusal? identifier = none ∧ mentions text identifier = true := by
  rw [finds]
  cases matcher.refusal? identifier <;> simp

theorem finds_error_iff {text identifier : String} {fault : Fault} :
    matcher.finds text identifier = .error fault ↔
      ∃ refusal, matcher.refusal? identifier = some refusal ∧ fault = .pattern refusal := by
  rw [finds]
  cases matcher.refusal? identifier <;> simp [eq_comm]

/-! ## All of them -/

/-- **What is missing is what the text does not mention, if no identifier is refused.** -/
theorem missing_eq (text : String) (identifiers : List String) :
    matcher.missing text identifiers =
      (matcher.accept identifiers).map fun _ => unmentioned identifiers text := by
  induction identifiers with
  | nil => rfl
  | cons identifier rest ih =>
    rw [missing, ih]
    cases hrefusal : matcher.refusal? identifier with
    | some refusal =>
      rw [finds_of_refused hrefusal, accept_cons_of_refused hrefusal]
      rfl
    | none =>
      rw [finds_of_accepted hrefusal, accept_cons_of_accepted hrefusal]
      cases matcher.accept rest with
      | error fault => rfl
      | ok _ =>
        simp only [unmentioned, List.filter_cons]
        cases mentions text identifier <;> rfl

theorem missing_of_accepts {identifiers : List String} (h : matcher.Accepts identifiers)
    (text : String) : matcher.missing text identifiers = .ok (unmentioned identifiers text) := by
  rw [missing_eq, accept_ok_iff.mpr h]
  rfl

theorem missing_ok_iff {text : String} {identifiers missing : List String} :
    matcher.missing text identifiers = .ok missing ↔
      matcher.Accepts identifiers ∧ unmentioned identifiers text = missing := by
  rw [missing_eq, map_eq_ok_iff, ← accept_ok_iff]
  exact ⟨fun ⟨_, haccept, h⟩ => ⟨haccept, h⟩, fun ⟨haccept, h⟩ => ⟨_, haccept, h⟩⟩

theorem missing_error_iff {text : String} {identifiers : List String} {fault : Fault} :
    matcher.missing text identifiers = .error fault ↔ ∃ refusal,
      matcher.firstRefusal? identifiers = some refusal ∧ fault = .pattern refusal := by
  rw [missing_eq, map_eq_error_iff, accept_error_iff]

theorem missing_cons_of_refused {identifier refusal : String}
    (h : matcher.refusal? identifier = some refusal) (text : String) (rest : List String) :
    matcher.missing text (identifier :: rest) = .error (.pattern refusal) := by
  rw [missing_eq, accept_cons_of_refused h]
  rfl

/-! ## The engine of the program -/

/-- An engine with a limit accepts the identifiers within the limit. -/
theorem refusal?_upTo_eq_none_iff {longest : Nat} {identifier : String} :
    (upTo longest).refusal? identifier = none ↔ identifier.utf8ByteSize ≤ longest := by
  simp [upTo]

theorem refusal?_standard_of_lt {identifier : String} (h : 327671 < identifier.utf8ByteSize) :
    standard.refusal? identifier = some "Compiled regex exceeds size limit of 10485760 bytes." :=
  if_neg (Nat.not_le.mpr h)

end Matcher

/-- A word of one letter, again and again. -/
def letters (n : Nat) : String := String.ofList (List.replicate n 'a')

theorem utf8ByteSize_letters (n : Nat) : (letters n).utf8ByteSize = n := by
  induction n with
  | zero => rfl
  | succ n ih =>
    have hcons : letters (n + 1) = "a" ++ letters n := by
      rw [← String.toList_inj, String.toList_append]
      simp [letters, List.replicate_succ]
    have hletter : "a".utf8ByteSize = 1 := rfl
    rw [hcons, String.utf8ByteSize_append, hletter, ih, Nat.add_comm]

/-- A word that is too long for the engine of the program. -/
def enormous : String := letters 450000

/-- **The engine refuses it.** -/
theorem Matcher.standard_refuses_enormous : standard.refusal? enormous =
    some "Compiled regex exceeds size limit of 10485760 bytes." := by
  refine refusal?_standard_of_lt ?_
  rw [enormous, utf8ByteSize_letters]
  decide

end DocCoverage
