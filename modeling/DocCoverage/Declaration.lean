import DocCoverage.Identifiers
import DocCoverage.Text.Blank
import DocCoverage.Text.Word

/-!
Declarations of policy names. A source declares a name by `public const string NAME = "VALUE";`, with
any blanks, or none, around the equals sign. A source is scanned from its start; after a declaration
the scan goes on behind it, so the text of a value is never read as a declaration.
-/

namespace DocCoverage

open Text

/-- A declared name with all that its spelling leaves open: the blanks before and after the equals
sign, and the value. -/
structure Declaration where
  name : List Char
  before : List Char
  after : List Char
  value : List Char
deriving DecidableEq, Repr

namespace Declaration

/-- The words that open a declaration. -/
def opening : List Char := "public const string ".toList

/-- A declaration as it is written. -/
def written (d : Declaration) : List Char :=
  opening ++ d.name ++ d.before ++ '=' :: d.after ++ '"' :: d.value ++ ['"', ';']

/-- The name is a word, the gaps are blank, and the value is there and ends at the first quotation
mark. -/
structure WellFormed (d : Declaration) : Prop where
  name_ne : d.name ≠ []
  name_word : ∀ c ∈ d.name, isWord c = true
  before_blank : ∀ c ∈ d.before, isBlank c = true
  after_blank : ∀ c ∈ d.after, isBlank c = true
  value_ne : d.value ≠ []
  value_plain : '"' ∉ d.value

/-- What follows the given beginning of a text, if the text begins so. -/
def behind? : List Char → List Char → Option (List Char)
  | [], s => some s
  | _ :: _, [] => none
  | a :: beginning, b :: s => if a = b then behind? beginning s else none

/-- A text splits in one way only. -/
theorem behind?_eq_some_iff {beginning s rest : List Char} :
    behind? beginning s = some rest ↔ s = beginning ++ rest := by
  induction beginning generalizing s with
  | nil => simp [behind?, eq_comm]
  | cons a beginning ih =>
    cases s with
    | nil => simp [behind?]
    | cons b s =>
      simp only [behind?]
      split
      · next h => simp [ih, h]
      · next h => simp [Ne.symm h]

/-- Reads one declaration at the head of a text, and gives what follows it. No run of characters can
be taken shorter: a word character is no blank and neither is the equals sign, and a value holds no
quotation mark. -/
def read? (s : List Char) : Option (Declaration × List Char) := do
  let s ← behind? opening s
  let '=' :: t := (s.dropWhile isWord).dropWhile isBlank | none
  let '"' :: u := t.dropWhile isBlank | none
  let '"' :: ';' :: rest := u.dropWhile (· != '"') | none
  let d : Declaration := {
    name := s.takeWhile isWord
    before := (s.dropWhile isWord).takeWhile isBlank
    after := t.takeWhile isBlank
    value := u.takeWhile (· != '"') }
  if d.name = [] ∨ d.value = [] then none else some (d, rest)

/-- What is read is what is written there. -/
theorem eq_written_of_read? {s rest : List Char} {d : Declaration} (h : read? s = some (d, rest)) :
    s = d.written ++ rest := by
  simp only [read?, Option.bind_eq_bind, Option.bind_eq_some_iff] at h
  obtain ⟨s₁, h₁, h⟩ := h
  split at h
  · next t h₂ =>
    split at h
    · next u h₃ =>
      split at h
      · next r h₄ =>
        split at h
        · simp at h
        · simp only [Option.some.injEq, Prod.mk.injEq] at h
          obtain ⟨rfl, rfl⟩ := h
          have e₁ := List.takeWhile_append_dropWhile (p := isWord) (l := s₁)
          have e₂ := List.takeWhile_append_dropWhile (p := isBlank) (l := s₁.dropWhile isWord)
          have e₃ := List.takeWhile_append_dropWhile (p := isBlank) (l := t)
          have e₄ := List.takeWhile_append_dropWhile (p := (· != '"')) (l := u)
          rw [h₂] at e₂
          rw [h₃] at e₃
          rw [h₄] at e₄
          simp [behind?_eq_some_iff.mp h₁, written, e₁, e₂, e₃, e₄]
      · simp at h
    · simp at h
  · simp at h

/-- Reading a declaration leaves a shorter text. -/
theorem length_lt_of_read? {s rest : List Char} {d : Declaration}
    (h : read? s = some (d, rest)) : rest.length < s.length := by
  have e := congrArg List.length (eq_written_of_read? h)
  simp only [written, List.length_append, List.length_cons] at e
  omega

/-- The declarations of a source, in order: at each place the one that stands there, and then those
behind it; where none stands, those from the next place on. -/
def all (s : List Char) : List Declaration :=
  match _h : read? s with
  | some (d, rest) => d :: all rest
  | none =>
    match s with
    | [] => []
    | _ :: rest => all rest
termination_by s.length
decreasing_by
  · exact length_lt_of_read? (by assumption)
  · simp

end Declaration

/-- The declared names of a source that begin with `beginning`. -/
def declaredNames (source beginning : String) : List String :=
  Identifiers.ofList <|
    (Declaration.all source.toList).filterMap fun d =>
      if beginning.toList.isPrefixOf d.name then some (String.ofList d.name) else none

end DocCoverage
