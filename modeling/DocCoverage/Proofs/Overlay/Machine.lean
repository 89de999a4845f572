import DocCoverage.Overlay.Reader
import DocCoverage.Proofs.Overlay.Spelling

/-! # Reading what may be written

The reader goes through a text character by character; what it makes of the rest of a
text depends on the state alone (`Reading.outcome`).  Each rule for gaps, ends of lines
and the inside of strings is matched by an equation that takes the reader across what the
rule writes.  A character of a string is read in the same way on one line and on several, so
its equation is stated for both at once (`Reading.outcome_charSpelling`). -/

namespace DocCoverage.Overlay
namespace Reading

/-- What a text gives when it is read on from here to its end. -/
def outcome (reading : Reading) (rest : List Char) : Option (List Setting) :=
  (reading.run rest).bind finish

theorem outcome_nil (reading : Reading) : reading.outcome [] = reading.finish := rfl

/-- A text ends as a line break would end it. -/
theorem finish_eq {reading : Reading} (h : ∀ next, reading.state ≠ .carriage next) :
    reading.finish = (reading.step '\n').bind fun next =>
      if next.state = .lineStart then some next.settings else none := by
  rw [finish]
  split
  · next next hstate => exact absurd hstate (h next)
  · split
    · next given hfeed => rw [hfeed]; rfl
    · next hother =>
      cases hfeed : reading.step '\n' with
      | none => rfl
      | some next =>
        have hstate : next.state ≠ .lineStart := by
          intro hstate
          obtain ⟨given, state⟩ := next
          exact hother given (hstate ▸ hfeed)
        rw [Option.bind_some, if_neg hstate]

theorem outcome_cons (reading : Reading) (c : Char) (rest : List Char) :
    reading.outcome (c :: rest) = (reading.step c).bind fun next => next.outcome rest := by
  simp only [outcome, run, List.foldlM_cons]
  cases reading.step c <;> rfl

theorem outcome_of_step {reading next : Reading} {c : Char} (h : reading.step c = some next)
    (rest : List Char) : reading.outcome (c :: rest) = next.outcome rest := by
  rw [outcome_cons, h]
  rfl

/-! ## Characters -/

theorem isGap_iff {c : Char} : Overlay.isGap c = true ↔ c = ' ' ∨ c = '\t' := by
  simp [Overlay.isGap]

theorem isPlain_iff {c : Char} : isPlain c = true ↔ Printable c := by
  simp [isPlain, Printable]

theorem hexValue?_of_hexDigit {c : Char} {d : Nat} (h : HexDigit c d) :
    Text.hexValue? c = some d := by
  cases h with
  | digit h => revert h; revert d; decide
  | @lower n h => revert h; revert n; decide
  | @upper n h => revert h; revert n; decide

theorem charOf?_toNat (c : Char) : charOf? c.toNat = some c := by
  rw [charOf?, if_pos (show c.toNat.isValidChar from c.valid), Char.ofNat_toNat]

theorem escape?_of_mem_letters {c e : Char} (h : (c, e) ∈ letters) : escape? e = some c := by
  have hall : ∀ pair ∈ letters, escape? pair.2 = some pair.1 := by decide
  exact hall (c, e) h

/-! ## Gaps, comments and line breaks -/

variable {settings : List Setting}

/-- Where spaces and tabs may stand. -/
inductive AllowsGap : State → Prop
  | lineStart : AllowsGap .lineStart
  | afterKey (key : Key) : AllowsGap (.afterKey key)
  | beforeValue (key : Key) : AllowsGap (.beforeValue key)
  | items (before : List String) (ready : Bool) : AllowsGap (.items before ready)
  | lineEnd : AllowsGap .lineEnd

theorem step_gap {state : State} (h : AllowsGap state) {c : Char}
    (hc : Overlay.isGap c = true) :
    (⟨settings, state⟩ : Reading).step c = some ⟨settings, state⟩ := by
  cases h <;> simp [step, stepOutside, stepAfterKey, stepBeforeValue, stepItems, hc]

theorem outcome_gap {state : State} (h : AllowsGap state) {g : List Char} (hg : IsGap g)
    (rest : List Char) :
    (⟨settings, state⟩ : Reading).outcome (g ++ rest) =
      (⟨settings, state⟩ : Reading).outcome rest := by
  induction g with
  | nil => rfl
  | cons c g ih =>
    obtain ⟨hc, hg⟩ := List.forall_mem_cons.mp hg
    rw [List.cons_append, outcome_of_step (step_gap h (isGap_iff.mpr hc))]
    exact ih hg

/-- The three characters that end the text of a line. -/
theorem endLine?_cases {next after : State} {c : Char} (h : endLine? next c = some after) :
    c = '\n' ∧ after = next ∨ c = '\r' ∧ after = .carriage next ∨
      c = '#' ∧ after = .comment next := by
  simp only [endLine?] at h
  split at h
  · next hc => exact .inl ⟨hc, (Option.some.inj h).symm⟩
  · split at h
    · next hc => exact .inr (.inl ⟨hc, (Option.some.inj h).symm⟩)
    · split at h
      · next hc => exact .inr (.inr ⟨hc, (Option.some.inj h).symm⟩)
      · cases h

/-- What ends the line here leads to the state `next`. -/
def EndsLine (settings : List Setting) (state next : State) : Prop :=
  ∀ c after, endLine? next c = some after →
    (⟨settings, state⟩ : Reading).step c = some ⟨settings, after⟩

theorem endsLine_lineStart : EndsLine settings .lineStart .lineStart := by
  intro c after h
  rcases endLine?_cases h with ⟨rfl, rfl⟩ | ⟨rfl, rfl⟩ | ⟨rfl, rfl⟩ <;> rfl

theorem endsLine_lineEnd : EndsLine settings .lineEnd .lineStart := by
  intro c after h
  rcases endLine?_cases h with ⟨rfl, rfl⟩ | ⟨rfl, rfl⟩ | ⟨rfl, rfl⟩ <;> rfl

/-- A list of commands goes on behind the end of a line. -/
theorem endsLine_items (before : List String) (ready : Bool) :
    EndsLine settings (.items before ready) (.items before ready) := by
  intro c after h
  rcases endLine?_cases h with ⟨rfl, rfl⟩ | ⟨rfl, rfl⟩ | ⟨rfl, rfl⟩ <;> rfl

/-- A comment ends its line as a line break alone does.  A further sign of a comment is
part of it. -/
theorem endsLine_comment (next : State) : EndsLine settings (.comment next) next := by
  intro c after h
  rcases endLine?_cases h with ⟨rfl, rfl⟩ | ⟨rfl, rfl⟩ | ⟨rfl, rfl⟩ <;> rfl

theorem outcome_comment {next : State} {s : List Char} (hs : ∀ c ∈ s, Printable c)
    (rest : List Char) :
    (⟨settings, .comment next⟩ : Reading).outcome (s ++ rest) =
      (⟨settings, .comment next⟩ : Reading).outcome rest := by
  induction s with
  | nil => rfl
  | cons c s ih =>
    obtain ⟨hc, hs⟩ := List.forall_mem_cons.mp hs
    have hstep : (⟨settings, .comment next⟩ : Reading).step c =
        some ⟨settings, .comment next⟩ := by
      simp [step, stepOutside, isPlain_iff.mpr hc]
    rw [List.cons_append, outcome_of_step hstep]
    exact ih hs

theorem outcome_lineBreak {state next : State} (hends : EndsLine settings state next)
    {b : List Char} (hb : LineBreak b) (rest : List Char) :
    (⟨settings, state⟩ : Reading).outcome (b ++ rest) =
      (⟨settings, next⟩ : Reading).outcome rest := by
  cases hb with
  | lineFeed => exact outcome_of_step (hends '\n' next rfl) rest
  | both =>
    rw [List.cons_append, outcome_of_step (hends '\r' (.carriage next) rfl)]
    exact outcome_of_step rfl rest

/-- The rest of a line leads to the next one. -/
theorem outcome_lineRest {state next : State} (hends : EndsLine settings state next)
    {c b : List Char} (hc : Comment c) (hb : LineBreak b) (rest : List Char) :
    (⟨settings, state⟩ : Reading).outcome (c ++ b ++ rest) =
      (⟨settings, next⟩ : Reading).outcome rest := by
  cases hc with
  | absent => exact outcome_lineBreak hends hb rest
  | present hs =>
    rw [List.cons_append, List.cons_append, outcome_of_step (hends '#' (.comment next) rfl),
      List.append_assoc, outcome_comment hs]
    exact outcome_lineBreak (endsLine_comment next) hb rest

/-- The rest of the last line need not be ended. -/
theorem outcome_lastLine {state : State} (hends : EndsLine settings state .lineStart)
    (hstate : ∀ next, state ≠ .carriage next) {c : List Char} (hc : Comment c) :
    (⟨settings, state⟩ : Reading).outcome c = some settings := by
  have hfinish : ∀ state, EndsLine settings state .lineStart →
      (∀ next, state ≠ .carriage next) →
        (⟨settings, state⟩ : Reading).outcome [] = some settings := by
    intro state hends hstate
    rw [outcome_nil, finish_eq hstate, hends '\n' .lineStart rfl]
    rfl
  cases hc with
  | absent => exact hfinish state hends hstate
  | present hs =>
    have hrest := @outcome_comment settings .lineStart _ hs []
    rw [List.append_nil] at hrest
    rw [outcome_of_step (hends '#' (.comment .lineStart) rfl), hrest]
    exact hfinish _ (endsLine_comment .lineStart) (by simp)

/-! ## Strings -/

variable {quote : Quote} {site : Site} {read : List Char}

/-- In a string that has not been closed, on one line or on several. -/
abbrev inBody (settings : List Setting) (quote : Quote) (site : Site) (several : Bool)
    (read : List Char) : Reading := ⟨settings, .string quote site (body several) read⟩

/-- A string on its line that has not been closed. -/
abbrev inLine (settings : List Setting) (quote : Quote) (site : Site) (read : List Char) :
    Reading := ⟨settings, .string quote site .line read⟩

/-- In a string of several lines, behind so many marks. -/
abbrev inBlock (settings : List Setting) (quote : Quote) (site : Site) (marks : Nat)
    (read : List Char) : Reading := ⟨settings, .string quote site (.lines marks) read⟩

theorem ne_of_printable {c : Char} (h : Printable c) : c ≠ '\n' ∧ c ≠ '\r' := by
  constructor
  all_goals
    rintro rfl
    revert h
    decide

theorem step_inBody_plain {several : Bool} {c : Char} (h : Printable c)
    (hmark : c ≠ quote.mark) (hslash : quote = .double → c ≠ '\\') :
    (inBody settings quote site several read).step c =
      some (inBody settings quote site several (c :: read)) := by
  have hescape : ¬(c = '\\' ∧ quote = .double) := fun hc => hslash hc.2 hc.1
  obtain ⟨hfeed, hreturn⟩ := ne_of_printable h
  cases several with
  | false =>
    simp only [step, body, Bool.false_eq_true, if_false, stepInside, stepLine]
    rw [if_neg hmark, if_neg hescape, if_pos (isPlain_iff.mpr h)]
    rfl
  | true =>
    simp only [step, body, if_true, stepInside, stepLines]
    rw [if_neg hmark, if_neg (by decide), if_neg hescape, if_neg hfeed, if_neg hreturn,
      if_pos (isPlain_iff.mpr h)]
    rfl

theorem step_inBody_slash {several : Bool} :
    (inBody settings .double site several read).step '\\' =
      some ⟨settings, .string .double site (.escape several) read⟩ := by
  cases several <;> rfl

/-- In the number of a character, `k` digits long. -/
abbrev inCode (settings : List Setting) (site : Site) (several : Bool) (read : List Char)
    (k n : Nat) : Reading := ⟨settings, .string .double site (.code several k n) read⟩

theorem outcome_hexNumber {several : Bool} {s : List Char} {n k : Nat} (h : HexNumber s n)
    (hk : s.length < k) (rest : List Char) :
    (inCode settings site several read k 0).outcome (s ++ rest) =
      (inCode settings site several read (k - s.length) n).outcome rest := by
  -- a number grows at its end, so the digits before the last are read first
  induction h generalizing rest with
  | nil => rfl
  | @snoc s c n d hs hc ih =>
    rw [List.length_append, List.length_singleton] at hk
    rw [List.append_assoc, ih (by omega)]
    refine outcome_of_step ?_ rest
    simp only [step, stepInside, hexValue?_of_hexDigit hc]
    rw [if_neg (by omega), List.length_append, List.length_singleton]
    rfl

/-- The last digit completes the character. -/
theorem outcome_code {several : Bool} {s : List Char} {c : Char} {k : Nat}
    (h : HexNumber s c.toNat) (hlength : s.length = k) (hk : 0 < k) (rest : List Char) :
    (inCode settings site several read k 0).outcome (s ++ rest) =
      (inBody settings .double site several (c :: read)).outcome rest := by
  generalize hn : c.toNat = n at h
  cases h with
  | nil => simp at hlength; omega
  | @snoc s e n d hs he =>
    rw [List.length_append, List.length_singleton] at hlength
    rw [List.append_assoc, outcome_hexNumber hs (by omega)]
    refine outcome_of_step ?_ rest
    simp only [step, stepInside, hexValue?_of_hexDigit he]
    rw [if_pos (by omega), ← hn, charOf?_toNat]
    rfl

/-- A character between double quotes, however it is written. -/
theorem outcome_charSpelling {several : Bool} {c : Char} {s : List Char} (h : CharSpelling c s)
    (rest : List Char) :
    (inBody settings .double site several read).outcome (s ++ rest) =
      (inBody settings .double site several (c :: read)).outcome rest := by
  cases h with
  | plain h hquote hslash =>
    have hmark : c ≠ Quote.double.mark := hquote
    exact outcome_of_step (step_inBody_plain h hmark fun _ => hslash) rest
  | letter h =>
    rw [List.cons_append, outcome_of_step step_inBody_slash]
    refine outcome_of_step ?_ rest
    simp only [step, stepInside, escape?_of_mem_letters h]
  | short hlength h =>
    rw [List.cons_append, List.cons_append, outcome_of_step step_inBody_slash]
    exact outcome_code h hlength (by decide) rest
  | long hlength h =>
    rw [List.cons_append, List.cons_append, outcome_of_step step_inBody_slash]
    exact outcome_code h hlength (by decide) rest

theorem outcome_escaped {v s : List Char} (h : Escaped v s) (rest : List Char) :
    (inLine settings .double site read).outcome (s ++ rest) =
      (inLine settings .double site (v.reverse ++ read)).outcome rest := by
  induction h generalizing read with
  | nil => rfl
  | @cons c v s t hc hv ih =>
    have hchar : (inLine settings .double site read).outcome (s ++ (t ++ rest)) =
        (inLine settings .double site (c :: read)).outcome (t ++ rest) :=
      @outcome_charSpelling _ _ _ false _ _ hc _
    rw [List.append_assoc, hchar, ih]
    simp

theorem outcome_literal {v : List Char} (h : ∀ c ∈ v, Printable c ∧ c ≠ '\'')
    (rest : List Char) :
    (inLine settings .single site read).outcome (v ++ rest) =
      (inLine settings .single site (v.reverse ++ read)).outcome rest := by
  induction v generalizing read with
  | nil => rfl
  | cons c v ih =>
    obtain ⟨⟨hc, hmark⟩, hv⟩ := List.forall_mem_cons.mp h
    have hmark : c ≠ Quote.single.mark := hmark
    have hstep : (inLine settings .single site read).step c =
        some (inLine settings .single site (c :: read)) :=
      @step_inBody_plain _ _ _ _ false _ hc hmark (by simp)
    rw [List.cons_append, outcome_of_step hstep, ih hv]
    simp

/-- What stands between the marks of a string, in either kind of marks: it does not begin
with a mark, it is empty only for the empty text, and it leads to the text it means. -/
theorem exists_content {v q : List Char} (h : Quoted v q) :
    ∃ quote s, q = Quote.mark quote :: (s ++ [quote.mark]) ∧ s.head? ≠ some quote.mark ∧
      (s = [] → v = []) ∧
      ∀ settings site rest, (inLine settings quote site []).outcome (s ++ rest) =
        (inLine settings quote site v.reverse).outcome rest := by
  cases h with
  | basic h =>
    refine ⟨.double, _, rfl, head?_escaped h, ?_, ?_⟩
    · rintro rfl
      exact eq_nil_of_escaped_nil h
    · intro settings site rest
      rw [outcome_escaped h, List.append_nil]
  | literal h =>
    refine ⟨.single, v, rfl, ?_, id, ?_⟩
    · intro hv
      exact (h _ (List.mem_of_mem_head? hv)).2 rfl
    · intro settings site rest
      rw [outcome_literal h, List.append_nil]

end Reading
end DocCoverage.Overlay
