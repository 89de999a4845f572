import DocCoverage.Proofs.Outcome
import DocCoverage.Proofs.Stems

/-! # Settings under which a log can be set up

The parts of a directive are found in its form, the text without the blanks at its ends, and
taken out of the text as it is written, at the same bytes.  Blanks behind the form move
nothing.  So a part can be torn only in a directive that begins with a blank: in any other one
the form is a beginning of the written text, both ends of a part are ends of characters
(`Directive.part_of_front`), and reading it gives a directive or finds that it has no form
(`Directive.untorn_read`).  A log can therefore be set up under every setting of which no
directive begins with a blank (`Filter.setsUp_of_no_blank`). -/

namespace DocCoverage

open Text

namespace Directive

theorem weight_append (s t : List Char) : weight (s ++ t) = weight s + weight t := by
  simp only [weight, String.ofList_append, encode_append, List.length_append]

/-- What stands between two characters of a text can be taken out of it. -/
theorem slice_append (before middle behind : List Char) :
    slice (before ++ (middle ++ behind)) (weight before) (weight before + weight middle) =
      .ok (String.ofList middle) := by
  have hbefore : ((encode (String.ofList (before ++ (middle ++ behind)))).take (weight before)) =
      encode (String.ofList before) := by
    rw [String.ofList_append, encode_append, weight]
    exact List.take_left
  have hmiddle : ((encode (String.ofList (before ++ (middle ++ behind)))).take
      (weight before + weight middle)).drop (weight before) = encode (String.ofList middle) := by
    rw [List.drop_take, String.ofList_append, encode_append, weight, List.drop_left,
      Nat.add_sub_cancel_left, String.ofList_append, encode_append, weight]
    exact List.take_left
  simp only [slice, hbefore, hmiddle, decode?_encode]

variable {written form : List Char}

/-- **Where the form is a beginning of the written text, no part of it is torn.** -/
theorem part_of_front (h : form <+: written) {first last : List Char} (hfirst : first <:+ form)
    (hlast : last <:+ first) : ∃ text, part written form first last = .ok text := by
  obtain ⟨tail, rfl⟩ := h
  obtain ⟨before, rfl⟩ := hfirst
  obtain ⟨middle, rfl⟩ := hlast
  refine ⟨String.ofList middle, ?_⟩
  have hstart : weight (before ++ (middle ++ last)) - weight (middle ++ last) = weight before := by
    rw [weight_append, Nat.add_sub_cancel]
  have hstop : weight (before ++ (middle ++ last)) - weight last =
      weight before + weight middle := by
    rw [weight_append, weight_append, ← Nat.add_assoc, Nat.add_sub_cancel]
  rw [part, hstart, hstop, List.append_assoc, List.append_assoc]
  exact slice_append before middle (last ++ tail)

theorem rest_of_front (h : form <+: written) {first : List Char} (hfirst : first <:+ form) :
    ∃ text, rest written form first = .ok text := by
  obtain ⟨tail, rfl⟩ := h
  obtain ⟨before, rfl⟩ := hfirst
  refine ⟨String.ofList (first ++ tail), ?_⟩
  have hstart : weight (before ++ first) - weight first = weight before := by
    rw [weight_append, Nat.add_sub_cancel]
  have hslice := slice_append before (first ++ tail) []
  rw [List.append_nil, ← weight_append] at hslice
  rw [rest, hstart, List.append_assoc]
  exact hslice

/-! ## Reading one directive -/

/-- A reading is not torn, and what it gives has a property. -/
def Untorn {α : Type} (p : α → Prop) : Except Flaw α → Prop
  | .ok a => p a
  | .error flaw => flaw = .unreadable

/-- One reading after the other. -/
theorem Untorn.bind {α β : Type} {p : α → Prop} {q : β → Prop} {outcome : Except Flaw α}
    {next : α → Except Flaw β} (h : Untorn p outcome) (hnext : ∀ a, p a → Untorn q (next a)) :
    Untorn q (outcome >>= next) := by
  rcases outcome with flaw | a
  · exact h
  · exact hnext a h

theorem untorn_of_exists {α : Type} {outcome : Except Flaw α} (h : ∃ a, outcome = .ok a) :
    Untorn (fun _ => True) outcome := by
  obtain ⟨a, rfl⟩ := h
  trivial

theorem untorn_readTest (field : String) : Untorn (fun _ => True) (readTest field) := by
  unfold readTest
  split <;> split <;> simp [Untorn]

theorem untorn_readLevel (h : form <+: written) {first : List Char} (hfirst : first <:+ form) :
    Untorn (fun _ => True) (readLevel written form first) := by
  unfold readLevel
  split
  · trivial
  · next level =>
    have hlevel := rest_of_front h ((List.suffix_cons '=' level).trans hfirst)
    refine (untorn_of_exists hlevel).bind fun name _ => ?_
    split
    · trivial
    · cases detail? name.toList with
      | none => rfl
      | some detail => trivial
  · rfl

/-- What stands behind a demand is an end of the form. -/
theorem untorn_readDemand (h : form <+: written) {inside : List Char}
    (hinside : inside <:+ form) :
    Untorn (fun read : Demand × List Char => read.2 <:+ form) (readDemand written form inside) := by
  have hdrop := List.dropWhile_suffix (fun c => c != ']' && c != '\x7b') (l := inside)
  unfold readDemand
  split
  · next behind heq =>
    rw [heq] at hdrop
    refine (untorn_of_exists (part_of_front h hinside hdrop)).bind fun _ _ => ?_
    exact (List.suffix_cons _ behind).trans (hdrop.trans hinside)
  · next field heq =>
    rw [heq] at hdrop
    have hfield : field <:+ form := (List.suffix_cons _ field).trans (hdrop.trans hinside)
    have hclose := List.dropWhile_suffix (fun c => c != '\x7d') (l := field)
    refine (untorn_of_exists (part_of_front h hinside hdrop)).bind fun span _ => ?_
    split
    · next closing heq' =>
      rw [heq'] at hclose
      refine (untorn_of_exists (part_of_front h hfield hclose)).bind fun name _ => ?_
      refine (untorn_readTest name).bind fun demand _ => ?_
      split
      · next behind =>
        exact (List.suffix_cons _ behind).trans
          ((List.suffix_cons _ _).trans (hclose.trans hfield))
      · rfl
    · rfl
  · rfl

/-- **A directive whose form is a beginning of it is not torn.** -/
theorem untorn_read (h : trimBlanks written <+: written) :
    Untorn (fun _ => True) (read written) := by
  have hdrop := List.dropWhile_suffix (fun c => c != '=' && c != '[') (l := trimBlanks written)
  unfold read
  simp only
  split
  · split
    · trivial
    · next inside heq =>
      rw [heq] at hdrop
      refine (untorn_of_exists (part_of_front h List.suffix_rfl hdrop)).bind fun target _ => ?_
      refine (untorn_readDemand h ((List.suffix_cons _ inside).trans hdrop)).bind
        fun ⟨demand, behind⟩ hbehind => ?_
      exact (untorn_readLevel h hbehind).bind fun detail _ => trivial
    · refine (untorn_of_exists (part_of_front h List.suffix_rfl hdrop)).bind fun target _ => ?_
      exact (untorn_readLevel h hdrop).bind fun detail _ => trivial
  · rfl

/-- A text that does not begin with a blank begins with its form. -/
theorem trimBlanks_prefix {written : List Char} (h : written.head?.any isBlank = false) :
    trimBlanks written <+: written := by
  have hkept : written.dropWhile isBlank = written := by
    cases written with
    | nil => rfl
    | cons c rest => exact List.dropWhile_cons_of_neg (by simpa using h)
  rw [trimBlanks, hkept, ← List.reverse_suffix, List.reverse_reverse]
  exact List.dropWhile_suffix _

end Directive

/-! ## Reading a filter -/

/-- Readings one after the other are not torn if none of them is. -/
theorem Directive.untorn_mapM {pieces : List (List Char)}
    (h : ∀ piece ∈ pieces, Untorn (fun _ => True) (read piece)) :
    Untorn (fun _ => True) (pieces.mapM read) := by
  induction pieces with
  | nil => trivial
  | cons piece rest ih =>
    obtain ⟨hpiece, hrest⟩ := List.forall_mem_cons.mp h
    rw [List.mapM_cons]
    exact hpiece.bind fun d _ => (ih hrest).bind fun more _ => trivial

/-- **A log can be set up if no directive begins with a blank.** -/
theorem Filter.setsUp_of_no_blank {written : String}
    (h : ∀ piece ∈ atCommas written.toList, piece.head?.any isBlank = false) :
    SetsUp (some written) := by
  rw [setsUp_iff]
  rintro _ ⟨⟩ htorn
  have huntorn : Directive.Untorn (fun _ => True) (read written) := by
    unfold read
    split
    · trivial
    · exact Directive.untorn_mapM fun piece hpiece =>
        Directive.untorn_read (Directive.trimBlanks_prefix (h piece (List.mem_filter.mp hpiece).1))
  rw [htorn] at huntorn
  cases huntorn

/-- A blank of two bytes at the beginning moves the end of the target into it. -/
example : Filter.ofSetting? (some "\u00a0a=off") = none := by decide

end DocCoverage
