import DocCoverage.Proofs.Overlay.Entries
import DocCoverage.Proofs.Overlay.Machine

/-! # Reading strings

A string ends where the reader can tell that it does.  On one line that is its second mark,
unless nothing stands between the marks: then a third one would open a string of several lines.
On several lines the last of up to five marks in a row ends it, so here too the next character
decides (`outcome_closing`).  In between, every character is read as what it means, whatever
form the string has.  So each of the four forms leads to the text that it spells
(`outcome_string`), and what is then made of that text depends on where the string stands. -/

namespace DocCoverage.Overlay
namespace Reading

variable {settings : List Setting} {quote : Quote} {site : Site} {read : List Char}

/-! ## What may follow a string -/

/-- The text does not begin with a mark. -/
def NoMark (rest : List Char) : Prop := ∀ quote : Quote, rest.head? ≠ some quote.mark

theorem noMark_cons {c : Char} (h : ∀ quote : Quote, c ≠ quote.mark) (rest : List Char) :
    NoMark (c :: rest) := by
  intro quote hc
  exact h quote (Option.some.inj hc)

theorem noMark_append {s t : List Char} (hs : NoMark s) (ht : NoMark t) : NoMark (s ++ t) := by
  cases s with
  | nil => exact ht
  | cons c s => exact fun quote hc => hs quote hc

theorem noMark_nil : NoMark [] := by
  intro quote hc
  cases hc

theorem noMark_gap {g : List Char} (hg : IsGap g) : NoMark g := by
  intro quote hc
  have hmark : quote.mark ≠ ' ' ∧ quote.mark ≠ '\t' := by cases quote <;> decide
  rcases hg _ (List.mem_of_mem_head? hc) with h | h
  · exact hmark.1 h
  · exact hmark.2 h

theorem noMark_comment {c : List Char} (hc : Comment c) : NoMark c := by
  cases hc with
  | absent => exact noMark_nil
  | present h => exact noMark_cons (fun quote => by cases quote <;> decide) _

theorem noMark_lineBreak {b : List Char} (hb : LineBreak b) (rest : List Char) :
    NoMark (b ++ rest) := by
  cases hb with
  | lineFeed => exact noMark_cons (fun quote => by cases quote <;> decide) _
  | both => exact noMark_cons (fun quote => by cases quote <;> decide) _

theorem noMark_filler {f : List Char} (hf : Filler f) : NoMark f := by
  cases hf with
  | gap hg => exact noMark_gap hg
  | line hg hc hb hf =>
    rw [List.append_assoc]
    exact noMark_append (noMark_append (noMark_gap hg) (noMark_comment hc))
      (noMark_lineBreak hb _)

/-! ## Closing a string -/

/-- What is made of the text behind a string, when the string has been read so far. -/
def behind (settings : List Setting) (site : Site) (read rest : List Char) :
    Option (List Setting) :=
  (close settings site read).bind fun closed => closed.outcome rest

/-- Behind a value its line can end. -/
theorem state_of_give {setting : Setting} {given : Reading}
    (h : give settings setting = some given) : given.state = .lineEnd := by
  simp only [give] at h
  split at h
  · cases h
  · cases h
    rfl

/-- Behind a string the reader is outside of strings, and on a line that can end. -/
theorem closed_cases {site : Site} {closed : Reading}
    (h : close settings site read = some closed) :
    (∃ key, closed.state = .afterKey key) ∨ closed.state = .lineEnd ∨
      ∃ before, closed.state = .items before false := by
  cases site with
  | key =>
    obtain ⟨key, -, rfl⟩ := Option.map_eq_some_iff.mp h
    exact .inl ⟨key, rfl⟩
  | value setting => exact .inr (.inl (state_of_give h))
  | item before =>
    cases h
    exact .inr (.inr ⟨_, rfl⟩)

/-- The string is over unless another mark follows. -/
def AwaitsMark (reading : Reading) (quote : Quote) (site : Site) (read : List Char) : Prop :=
  ∀ c, c ≠ quote.mark → reading.step c =
    (close reading.settings site read).bind fun closed =>
      stepOutside closed.settings closed.state c

theorem awaitsMark_openedTwice :
    AwaitsMark ⟨settings, .string quote site (.opened 2) read⟩ quote site read := by
  intro c hc
  simp only [step, stepInside]
  rw [if_neg (by decide), if_neg hc]

theorem awaitsMark_inBlock {marks : Nat} (hmarks : 3 ≤ marks) :
    AwaitsMark (inBlock settings quote site marks read) quote site
      (List.replicate (marks - 3) quote.mark ++ read) := by
  intro c hc
  simp only [step, stepInside, stepLines]
  rw [if_neg hc, if_pos hmarks]

/-- **A string is over when no further mark follows.** -/
theorem outcome_closing {state : State} {text : List Char}
    (hawaits : AwaitsMark ⟨settings, state⟩ quote site text)
    (hstate : ∀ next, state ≠ .carriage next) {rest : List Char}
    (hrest : rest.head? ≠ some quote.mark) :
    (⟨settings, state⟩ : Reading).outcome rest = behind settings site text rest := by
  have hstep : ∀ c, c ≠ quote.mark → (⟨settings, state⟩ : Reading).step c =
      (close settings site text).bind fun closed => closed.step c := by
    intro c hc
    rw [hawaits c hc]
    cases hclosed : close settings site text with
    | none => rfl
    | some closed =>
      obtain ⟨given, after⟩ := closed
      rcases closed_cases hclosed with ⟨key, rfl⟩ | rfl | ⟨before, rfl⟩ <;> rfl
  cases rest with
  | nil =>
    rw [outcome_nil, finish_eq hstate, hstep '\n' (by cases quote <;> decide), behind,
      Option.bind_assoc]
    cases hclosed : close settings site text with
    | none => rfl
    | some closed =>
      have houtside : ∀ next, closed.state ≠ .carriage next := by
        rcases closed_cases hclosed with ⟨key, h⟩ | h | ⟨before, h⟩ <;> simp [h]
      exact (finish_eq houtside).symm
  | cons c rest =>
    have hc : c ≠ quote.mark := fun hc => hrest (congrArg some hc)
    rw [outcome_cons, hstep c hc, behind]
    cases close settings site text with
    | none => rfl
    | some closed => exact (outcome_cons closed c rest).symm

/-- A string between its marks is closed with the text it means. -/
theorem outcome_inLine_close (rest : List Char) :
    (inLine settings quote site read).outcome (quote.mark :: rest) =
      behind settings site read rest := by
  have hstep : (inLine settings quote site read).step quote.mark = close settings site read := by
    simp only [step, stepInside, stepLine, if_pos]
  rw [outcome_cons, hstep]
  rfl

/-! ## Strings of several lines -/

/-- Up to two marks in a row are part of the string when something else follows. -/
theorem step_unmarked {marks : Nat} (hmarks : marks ≤ 2) {c : Char} (hc : c ≠ quote.mark) :
    (inBlock settings quote site marks read).step c =
      (inBlock settings quote site 0 (List.replicate marks quote.mark ++ read)).step c := by
  simp only [step, stepInside, stepLines]
  rw [if_neg hc, if_neg hc, if_neg (show ¬3 ≤ marks by omega), if_neg (show ¬3 ≤ 0 by decide)]
  rfl

theorem outcome_unmarked {marks : Nat} (hmarks : marks ≤ 2) {c : Char} (hc : c ≠ quote.mark)
    (rest : List Char) :
    (inBlock settings quote site marks read).outcome (c :: rest) =
      (inBlock settings quote site 0 (List.replicate marks quote.mark ++ read)).outcome
        (c :: rest) := by
  rw [outcome_cons, outcome_cons, step_unmarked hmarks hc]

theorem outcome_marks {marks k : Nat} (hk : marks + k ≤ 5) (rest : List Char) :
    (inBlock settings quote site marks read).outcome (List.replicate k quote.mark ++ rest) =
      (inBlock settings quote site (marks + k) read).outcome rest := by
  induction k generalizing marks with
  | zero => rfl
  | succ k ih =>
    have hstep : (inBlock settings quote site marks read).step quote.mark =
        some (inBlock settings quote site (marks + 1) read) := by
      simp only [step, stepInside, stepLines, if_pos]
      rw [if_pos (by omega)]
    rw [List.replicate_succ, List.cons_append, outcome_of_step hstep, ih (by omega),
      show marks + 1 + k = marks + (k + 1) by omega]

/-- A piece of the string is read as what it means. -/
theorem outcome_content {v s : List Char} (h : Content quote v s) (rest : List Char) :
    (inBlock settings quote site 0 read).outcome (s ++ rest) =
      (inBlock settings quote site 0 (v.reverse ++ read)).outcome rest := by
  cases h with
  | escaped h => exact @outcome_charSpelling _ _ _ true _ _ h rest
  | @literal c h hmark =>
    have hmark : c ≠ Quote.single.mark := hmark
    exact outcome_of_step (@step_inBody_plain _ _ _ _ true _ h hmark (by simp)) rest
  | lineBreak hb =>
    cases hb with
    | lineFeed =>
      refine outcome_of_step ?_ rest
      cases quote <;> rfl
    | both =>
      have hreturn : (inBlock settings quote site 0 read).step '\r' =
          some ⟨settings, .carriage (.string quote site (.lines 0) ('\n' :: read))⟩ := by
        cases quote <;> rfl
      rw [List.cons_append, outcome_of_step hreturn]
      exact outcome_of_step rfl rest

/-- A piece of the string begins with another character than the mark. -/
theorem exists_cons_of_content {v s : List Char} (h : Content quote v s) :
    ∃ c t, s = c :: t ∧ c ≠ quote.mark := by
  cases h with
  | escaped h =>
    cases h with
    | plain h hquote hslash => exact ⟨_, _, rfl, hquote⟩
    | letter h => exact ⟨_, _, rfl, by decide⟩
    | short hlength h => exact ⟨_, _, rfl, by decide⟩
    | long hlength h => exact ⟨_, _, rfl, by decide⟩
  | literal h hmark => exact ⟨_, _, rfl, hmark⟩
  | lineBreak hb =>
    cases hb with
    | lineFeed => exact ⟨_, _, rfl, by cases quote <;> decide⟩
    | both => exact ⟨_, _, rfl, by cases quote <;> decide⟩

/-- Behind a backslash that joins lines. -/
abbrev inJoint (settings : List Setting) (site : Site) (broken : Bool) (read : List Char) :
    Reading := ⟨settings, .string .double site (.join broken) read⟩

theorem outcome_joint_gap {broken : Bool} {g : List Char} (hg : IsGap g) (rest : List Char) :
    (inJoint settings site broken read).outcome (g ++ rest) =
      (inJoint settings site broken read).outcome rest := by
  induction g with
  | nil => rfl
  | cons c g ih =>
    obtain ⟨hc, hg⟩ := List.forall_mem_cons.mp hg
    have hstep : (inJoint settings site broken read).step c =
        some (inJoint settings site broken read) := by
      simp only [step, stepInside, isGap_iff.mpr hc, if_true]
    rw [List.cons_append, outcome_of_step hstep]
    exact ih hg

theorem outcome_joint_break {broken : Bool} {b : List Char} (hb : LineBreak b)
    (rest : List Char) :
    (inJoint settings site broken read).outcome (b ++ rest) =
      (inJoint settings site true read).outcome rest := by
  cases hb with
  | lineFeed => exact outcome_of_step rfl rest
  | both =>
    have hreturn : (inJoint settings site broken read).step '\r' =
        some ⟨settings, .carriage (.string .double site (.join true) read)⟩ := rfl
    rw [List.cons_append, outcome_of_step hreturn]
    exact outcome_of_step rfl rest

/-- What is joined to the line goes on with the first character that is no blank. -/
theorem outcome_joint_solid {t : List Char} (hsolid : Solid t) (hne : t ≠ []) :
    (inJoint settings site true read).outcome t =
      (inBlock settings .double site 0 read).outcome t := by
  obtain ⟨c, t, rfl⟩ := List.exists_cons_of_ne_nil hne
  obtain ⟨hbreak, hspace, htab⟩ := hsolid
  have hgap : ¬Overlay.isGap c = true := by
    rw [isGap_iff]
    rintro (rfl | rfl)
    · exact hspace rfl
    · exact htab rfl
  have hfeed : c ≠ '\n' := fun hc => hbreak (.inl (congrArg some hc))
  have hreturn : c ≠ '\r' := fun hc => hbreak (.inr (congrArg some hc))
  have hstep : (inJoint settings site true read).step c =
      (inBlock settings .double site 0 read).step c := by
    simp only [step, stepInside]
    rw [if_neg hgap, if_neg hfeed, if_neg hreturn, if_pos trivial]
  rw [outcome_cons, outcome_cons, hstep]

theorem outcome_joint {broken : Bool} {j t : List Char} (hj : Joint j) (hsolid : Solid t)
    (hne : t ≠ []) :
    (inJoint settings site broken read).outcome (j ++ t) =
      (inBlock settings .double site 0 read).outcome t := by
  induction hj generalizing broken with
  | line hg hb hh =>
    rw [List.append_assoc, List.append_assoc, outcome_joint_gap hg, outcome_joint_break hb,
      outcome_joint_gap hh]
    exact outcome_joint_solid hsolid hne
  | more hg hb hj ih =>
    rw [List.append_assoc, List.append_assoc, outcome_joint_gap hg, outcome_joint_break hb]
    exact ih

/-- What a backslash joins begins with a blank or a line break. -/
theorem exists_cons_of_break {g b : List Char} (hg : IsGap g) (hb : LineBreak b)
    (s : List Char) :
    ∃ c t, g ++ (b ++ s) = c :: t ∧ (c = ' ' ∨ c = '\t' ∨ c = '\n' ∨ c = '\r') := by
  cases g with
  | nil =>
    cases hb with
    | lineFeed => exact ⟨_, _, rfl, by simp⟩
    | both => exact ⟨_, _, rfl, by simp⟩
  | cons c g =>
    obtain ⟨hc, -⟩ := List.forall_mem_cons.mp hg
    exact ⟨c, _, rfl, hc.elim .inl fun h => .inr (.inl h)⟩

theorem outcome_escape_joint {j t : List Char} (hj : Joint j) (hsolid : Solid t)
    (hne : t ≠ []) :
    (⟨settings, .string .double site (.escape true) read⟩ : Reading).outcome (j ++ t) =
      (inBlock settings .double site 0 read).outcome t := by
  have hfirst : ∃ c s, j = c :: s ∧ (c = ' ' ∨ c = '\t' ∨ c = '\n' ∨ c = '\r') := by
    cases hj with
    | line hg hb hh => exact exists_cons_of_break hg hb _
    | more hg hb hj => exact exists_cons_of_break hg hb _
  obtain ⟨c, s, rfl, hc⟩ := hfirst
  -- behind the backslash itself such a character is read as on the rest of its line
  have hstep : (⟨settings, .string .double site (.escape true) read⟩ : Reading).step c =
      (inJoint settings site false read).step c := by
    rcases hc with rfl | rfl | rfl | rfl <;> rfl
  rw [← @outcome_joint settings site read false _ t hj hsolid hne, List.cons_append,
    outcome_cons, outcome_cons, hstep]

theorem block_ne_nil {v s : List Char} (h : Block quote v s) : s ≠ [] := by
  cases h with
  | close hn => simp
  | content hn hs ht =>
    obtain ⟨c, t, rfl, -⟩ := exists_cons_of_content hs
    simp
  | join hn hquote hj hsolid ht => simp

/-- **A string of several lines is read as the text it means.** -/
theorem outcome_block {v s : List Char} (h : Block quote v s) {rest : List Char}
    (hrest : rest.head? ≠ some quote.mark) :
    (inBlock settings quote site 0 read).outcome (s ++ rest) =
      behind settings site (v.reverse ++ read) rest := by
  induction h generalizing read with
  | @close n hn =>
    have hmarks := @outcome_marks settings quote site read 0 (n + 3) (by omega) rest
    have hclosing : (inBlock settings quote site (0 + (n + 3)) read).outcome rest =
        behind settings site (List.replicate (0 + (n + 3) - 3) quote.mark ++ read) rest :=
      outcome_closing (awaitsMark_inBlock (by omega)) (by simp) hrest
    rw [hmarks, hclosing, List.reverse_replicate, show 0 + (n + 3) - 3 = n by omega]
  | @content n v s w t hn hs ht ih =>
    have hmarks := @outcome_marks settings quote site read 0 n (by omega) (s ++ (t ++ rest))
    obtain ⟨c, s, rfl, hc⟩ := exists_cons_of_content hs
    rw [List.append_assoc, List.append_assoc, hmarks, Nat.zero_add, List.cons_append,
      outcome_unmarked hn hc, ← List.cons_append, outcome_content hs, ih]
    simp
  | @join n j w t hn hquote hj hsolid ht ih =>
    subst hquote
    have hmarks := @outcome_marks settings .double site read 0 n (by omega)
      ('\\' :: (j ++ (t ++ rest)))
    have hne := block_ne_nil ht
    have hsolid : Solid (t ++ rest) := by
      obtain ⟨c, t, rfl⟩ := List.exists_cons_of_ne_nil hne
      exact hsolid
    have hslash : (inBlock settings .double site 0
        (List.replicate n Quote.double.mark ++ read)).step '\\' = some ⟨settings,
          .string .double site (.escape true) (List.replicate n Quote.double.mark ++ read)⟩ :=
      rfl
    rw [List.append_assoc, List.cons_append, List.append_assoc, hmarks, Nat.zero_add,
      outcome_unmarked hn (by decide), outcome_of_step hslash,
      outcome_escape_joint hj hsolid (by simp [hne]), ih]
    simp

/-! ## Strings of every form -/

variable {before : Reading}

/-- A string on one line, wherever a mark opens one as a value or in a list. -/
theorem outcome_quoted {v q : List Char} (hq : Quoted v q)
    (hopen : ∀ quote : Quote, before.step quote.mark =
      some ⟨settings, .string quote site (.opened 1) []⟩) {rest : List Char}
    (hrest : NoMark rest) : before.outcome (q ++ rest) = behind settings site v.reverse rest := by
  obtain ⟨quote, s, rfl, hmark, hempty, hcontent⟩ := exists_content hq
  rw [List.cons_append, outcome_of_step (hopen quote), List.append_assoc,
    List.singleton_append]
  cases s with
  | nil =>
    -- the second mark closes the string unless a third one follows
    rw [hempty rfl]
    have hstep : (⟨settings, .string quote site (.opened 1) []⟩ : Reading).step quote.mark =
        some ⟨settings, .string quote site (.opened 2) []⟩ := by
      simp [step, stepInside]
    rw [List.nil_append, outcome_of_step hstep]
    exact outcome_closing awaitsMark_openedTwice (by simp) (hrest quote)
  | cons c s =>
    have hc : c ≠ quote.mark := fun hc => hmark (congrArg some hc)
    have hstep : (⟨settings, .string quote site (.opened 1) []⟩ : Reading).step c =
        (inLine settings quote site []).step c := by
      simp only [step, stepInside]
      rw [if_pos trivial, if_neg hc]
    have hline : (⟨settings, .string quote site (.opened 1) []⟩ : Reading).outcome
        (c :: s ++ quote.mark :: rest) =
        (inLine settings quote site []).outcome (c :: s ++ quote.mark :: rest) := by
      rw [List.cons_append, outcome_cons, outcome_cons, hstep]
    rw [hline, hcontent]
    exact outcome_inLine_close rest

/-- Three marks open a string of several lines. -/
theorem outcome_openedThrice
    (hopen : before.step quote.mark = some ⟨settings, .string quote site (.opened 1) []⟩)
    (rest : List Char) :
    before.outcome (quote.mark :: quote.mark :: quote.mark :: rest) =
      (⟨settings, .string quote site .head []⟩ : Reading).outcome rest := by
  have hsecond : (⟨settings, .string quote site (.opened 1) []⟩ : Reading).step quote.mark =
      some ⟨settings, .string quote site (.opened 2) []⟩ := by
    simp [step, stepInside]
  have hthird : (⟨settings, .string quote site (.opened 2) []⟩ : Reading).step quote.mark =
      some ⟨settings, .string quote site .head []⟩ := by
    simp [step, stepInside]
  rw [outcome_of_step hopen, outcome_of_step hsecond, outcome_of_step hthird]

/-- **A string is read as the text it means**, wherever a mark opens one as a value or in
a list. -/
theorem outcome_string {v q : List Char} (hq : TextSpelling v q)
    (hopen : ∀ quote : Quote, before.step quote.mark =
      some ⟨settings, .string quote site (.opened 1) []⟩) {rest : List Char}
    (hrest : NoMark rest) : before.outcome (q ++ rest) = behind settings site v.reverse rest := by
  cases hq with
  | line h => exact outcome_quoted h hopen hrest
  | @block quote v s h hfirst =>
    obtain ⟨c, s, rfl⟩ := List.exists_cons_of_ne_nil (block_ne_nil h)
    have hfeed : c ≠ '\n' := fun hc => hfirst (.inl (congrArg some hc))
    have hreturn : c ≠ '\r' := fun hc => hfirst (.inr (congrArg some hc))
    have hstep : (⟨settings, .string quote site .head []⟩ : Reading).step c =
        (inBlock settings quote site 0 []).step c := by
      simp only [step, stepInside]
      rw [if_neg hfeed, if_neg hreturn]
    have hblock := @outcome_block settings quote site [] _ _ h rest (hrest quote)
    rw [List.append_nil] at hblock
    rw [← hblock]
    simp only [List.cons_append]
    rw [outcome_openedThrice (hopen quote), outcome_cons, outcome_cons, hstep]
  | @head quote b v s hb h =>
    have hblock := @outcome_block settings quote site [] _ _ h rest (hrest quote)
    rw [List.append_nil] at hblock
    rw [← hblock]
    simp only [List.cons_append]
    rw [outcome_openedThrice (hopen quote), List.append_assoc]
    cases hb with
    | lineFeed => exact outcome_of_step rfl _
    | both => exact (outcome_of_step rfl _).trans (outcome_of_step rfl _)

/-- A key as a string is on one line from its first mark on. -/
theorem outcome_keyString {v q : List Char} (hq : Quoted v q)
    (hopen : ∀ quote : Quote, before.step quote.mark = some (inLine settings quote .key []))
    (rest : List Char) : before.outcome (q ++ rest) = behind settings .key v.reverse rest := by
  obtain ⟨quote, s, rfl, -, -, hcontent⟩ := exists_content hq
  rw [List.cons_append, outcome_of_step (hopen quote), List.append_assoc,
    List.singleton_append, hcontent]
  exact outcome_inLine_close rest

end Reading
end DocCoverage.Overlay
