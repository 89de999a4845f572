import DocCoverage.Proofs.Json.Reader
import DocCoverage.Proofs.Overlay.Machine

/-! # Every JSON text is read as its value

Each rule of the grammar is matched by an equation that takes the reader across what the
rule spells.  From where a value must come, every text of a value leads to where that
value is complete (`outcome_value`), whatever is open around it.  Only a number does not
end by itself: the token behind it ends it, so the equations ask that no digit follows.

Hence every document is read as its value (`read?_of_document`), and no text is a document
of two values (`Document.unique`). -/

namespace DocCoverage
namespace Json

namespace Reading

variable {stack : List Frame}

theorem outcome_of_step {reading next : Reading} {c : Char} (h : reading.step c = some next)
    (rest : List Char) : reading.outcome (c :: rest) = next.outcome rest := by
  rw [outcome, h]
  rfl

/-! ## Blanks -/

theorem isBlank_iff {c : Char} :
    isBlank c = true ↔ c = ' ' ∨ c = '\t' ∨ c = '\n' ∨ c = '\r' := by
  simp [isBlank, or_assoc]

/-- Where blanks may stand. -/
inductive AllowsBlank : State → Prop
  | value : AllowsBlank .value
  | opened : AllowsBlank .opened
  | name (before : List (String × Json)) (empty : Bool) : AllowsBlank (.name before empty)
  | colon (before : List (String × Json)) (name : String) : AllowsBlank (.colon before name)
  | done (value : Json) : AllowsBlank (.done value)

theorem outcome_blank {state : State} (h : AllowsBlank state) {b : List Char} (hb : IsBlank b)
    (rest : List Char) :
    (⟨stack, state⟩ : Reading).outcome (b ++ rest) = (⟨stack, state⟩ : Reading).outcome rest := by
  induction b with
  | nil => rfl
  | cons c b ih =>
    obtain ⟨hc, hb⟩ := List.forall_mem_cons.mp hb
    have hstep : (⟨stack, state⟩ : Reading).step c = some ⟨stack, state⟩ := by
      cases h <;> simp [step, stepDone, isBlank_iff.mpr hc]
    rw [List.cons_append, outcome_of_step hstep]
    exact ih hb

/-! ## Strings -/

variable {site : Site} {read : List Char}

/-- In a string, between characters. -/
abbrev inString (stack : List Frame) (site : Site) (read : List Char) : Reading :=
  ⟨stack, .string site .plain read⟩

theorem escape?_of_mem_letters {c e : Char} (h : (c, e) ∈ letters) :
    e ≠ 'u' ∧ escape? e = some c := by
  have hall : ∀ pair ∈ letters, pair.2 ≠ 'u' ∧ escape? pair.2 = some pair.1 := by decide
  exact hall (c, e) h

/-- A code unit is read as its number. -/
theorem outcome_codeUnit {s : List Char} {n : Nat} (h : CodeUnit s n) (first : Option Nat)
    (rest : List Char) :
    (⟨stack, .string site (.code first 4 0) read⟩ : Reading).outcome (s ++ rest) =
      (unit? stack site read first n).bind fun next => next.outcome rest := by
  obtain ⟨ha, hb, hc, hd⟩ := h
  simp [outcome, step, stepString, ha, hb, hc, hd]

/-- **A character is read** in any of its spellings. -/
theorem outcome_char {c : Char} {s : List Char} (h : CharSpelling c s) (rest : List Char) :
    (inString stack site read).outcome (s ++ rest) =
      (inString stack site (c :: read)).outcome rest := by
  cases h with
  | plain h hquote hslash =>
    refine outcome_of_step ?_ rest
    simp only [step, stepString]
    rw [if_neg hquote, if_neg hslash, if_pos h]
  | @letter e h =>
    obtain ⟨hne, he⟩ := escape?_of_mem_letters h
    have hstep : (⟨stack, .string site .escape read⟩ : Reading).step e =
        some (inString stack site (c :: read)) := by
      simp [step, stepString, hne, he]
    exact (outcome_of_step rfl _).trans (outcome_of_step hstep rest)
  | unit h =>
    have hchar : ¬(0xd800 ≤ c.toNat ∧ c.toNat < 0xdc00) := by
      have hvalid : c.toNat < 0xd800 ∨ 0xdfff < c.toNat ∧ c.toNat < 0x110000 := c.valid
      omega
    have hunit : unit? stack site read none c.toNat = some (inString stack site (c :: read)) := by
      rw [unit?, if_neg hchar, Overlay.Reading.charOf?_toNat]
      rfl
    rw [List.cons_append, outcome_of_step rfl, List.cons_append, outcome_of_step rfl,
      outcome_codeUnit h, hunit]
    rfl
  | @pair s t high low hs ht hhigh hlow hc =>
    have hfirst : unit? stack site read none high =
        some ⟨stack, .string site (.slash high) read⟩ := if_pos hhigh
    have hsecond : unit? stack site read (some high) low =
        some (inString stack site (c :: read)) := by
      rw [unit?, if_pos hlow, ← hc, Overlay.Reading.charOf?_toNat]
      rfl
    rw [List.cons_append, outcome_of_step rfl, List.cons_append, outcome_of_step rfl,
      List.append_assoc, outcome_codeUnit hs, hfirst]
    show (⟨stack, .string site (.slash high) read⟩ : Reading).outcome _ = _
    rw [List.cons_append, outcome_of_step rfl, List.cons_append, outcome_of_step rfl,
      outcome_codeUnit ht, hsecond]
    rfl

theorem outcome_escaped {v s : List Char} (h : Escaped v s) (rest : List Char) :
    (inString stack site read).outcome (s ++ rest) =
      (inString stack site (v.reverse ++ read)).outcome rest := by
  induction h generalizing read with
  | nil => rfl
  | @cons c v s t hc hv ih =>
    rw [List.append_assoc, outcome_char hc, ih, List.reverse_cons, List.append_assoc]
    rfl

/-- A string is read to its end. -/
theorem outcome_quoted {v : String} {s : List Char} (h : Quoted v s) {opening : Reading}
    (hopen : opening.step '"' = some (inString stack site [])) (rest : List Char) :
    opening.outcome (s ++ rest) = (close stack site v.toList.reverse).outcome rest := by
  obtain ⟨h⟩ := h
  rw [List.cons_append, outcome_of_step hopen, List.append_assoc, outcome_escaped h,
    List.append_nil]
  exact outcome_of_step rfl rest

/-! ## Numbers -/

/-- No digit comes next. -/
def NoDigit (rest : List Char) : Prop := ∀ c, rest.head? = some c → digitValue? c = none

theorem noDigit_blank {b : List Char} (hb : IsBlank b) {rest : List Char} (h : NoDigit rest) :
    NoDigit (b ++ rest) := by
  cases b with
  | nil => exact h
  | cons c b =>
    rintro d ⟨rfl⟩
    rcases hb c (List.mem_cons_self ..) with rfl | rfl | rfl | rfl <;> decide

theorem digitValue?_digitChar : ∀ d, d < 10 → digitValue? d.digitChar = some d := by decide

/-- A digit opens a number. -/
theorem stepValue_digit {c : Char} {d : Nat} (h : digitValue? c = some d) :
    stepValue stack c = some ⟨stack, .number d⟩ := by
  have hne : ∀ token : Char, digitValue? token = none → c ≠ token := by
    rintro _ hnone rfl
    simp [hnone] at h
  simp only [stepValue]
  rw [if_neg (hne 't' (by decide)), if_neg (hne 'f' (by decide)), if_neg (hne '"' (by decide)),
    if_neg (hne '[' (by decide)), if_neg (hne '\x7b' (by decide)), h]
  rfl

theorem isBlank_digit {c : Char} {d : Nat} (h : digitValue? c = some d) : isBlank c = false := by
  cases hblank : isBlank c with
  | false => rfl
  | true => rcases isBlank_iff.mp hblank with rfl | rfl | rfl | rfl <;> cases h

/-- The digits of a number are read as the number, which more digits may yet change. -/
theorem outcome_decimal {n : Nat} {s : List Char} (h : Decimal n s) (rest : List Char) :
    (⟨stack, .value⟩ : Reading).outcome (s ++ rest) =
      (⟨stack, .number n⟩ : Reading).outcome rest := by
  induction h generalizing rest with
  | @digit d hd =>
    have hvalue := digitValue?_digitChar d hd
    refine outcome_of_step ?_ rest
    simp only [step, isBlank_digit hvalue]
    exact stepValue_digit hvalue
  | @snoc n d s hn h hd ih =>
    rw [List.append_assoc, ih]
    refine outcome_of_step ?_ rest
    simp only [step, digitValue?_digitChar d hd]
    exact if_neg (by omega)

theorem exists_cons_of_decimal {n : Nat} {s : List Char} (h : Decimal n s) :
    ∃ c t d, s = c :: t ∧ digitValue? c = some d := by
  induction h with
  | digit hd => exact ⟨_, [], _, rfl, digitValue?_digitChar _ hd⟩
  | snoc hn h hd ih =>
    obtain ⟨c, t, d, rfl, hc⟩ := ih
    exact ⟨c, _, d, rfl, hc⟩

/-- The token behind a number ends it. -/
theorem outcome_number {n : Nat} {rest : List Char} (h : NoDigit rest) :
    (⟨stack, .number n⟩ : Reading).outcome rest =
      (⟨stack, .done (.count n)⟩ : Reading).outcome rest := by
  cases rest with
  | nil => cases stack <;> rfl
  | cons c rest =>
    simp only [outcome, step, h c rfl]

/-! ## Values -/

/-- Neither a blank nor the end of a list begins a value. -/
theorem exists_cons_of_spells {value : Json} {s : List Char} (h : Spells value s) :
    ∃ c t, s = c :: t ∧ isBlank c = false ∧ c ≠ ']' := by
  cases h with
  | count h =>
    obtain ⟨c, t, d, rfl, hc⟩ := exists_cons_of_decimal h
    refine ⟨c, t, rfl, isBlank_digit hc, ?_⟩
    rintro rfl
    cases hc
  | text h =>
    obtain ⟨h⟩ := h
    exact ⟨_, _, rfl, by decide, by decide⟩
  | _ => exact ⟨_, _, rfl, by decide, by decide⟩

/-- The first item of a list is read as any other. -/
theorem outcome_opened {value : Json} {s : List Char} (h : Spells value s) (rest : List Char) :
    (⟨stack, .opened⟩ : Reading).outcome (s ++ rest) =
      (⟨.list [] :: stack, .value⟩ : Reading).outcome (s ++ rest) := by
  obtain ⟨c, t, rfl, hblank, hclose⟩ := exists_cons_of_spells h
  simp [outcome, step, hblank, hclose]

/-- A member of an object is read up to its value. -/
theorem outcome_name {before : List (String × Json)} (empty : Bool) {name : String}
    {b q g : List Char} (hb : IsBlank b) (hq : Quoted name q) (hg : IsBlank g)
    (rest : List Char) :
    (⟨stack, .name before empty⟩ : Reading).outcome (b ++ q ++ g ++ ':' :: rest) =
      (⟨.object before name :: stack, .value⟩ : Reading).outcome rest := by
  have hopen : (⟨stack, .name before empty⟩ : Reading).step '"' =
      some (inString stack (.name before) []) := rfl
  have hclose : close stack (.name before) name.toList.reverse =
      ⟨stack, .colon before name⟩ := by simp [close]
  rw [List.append_assoc, List.append_assoc, outcome_blank (.name before empty) hb,
    outcome_quoted hq hopen, hclose, outcome_blank (.colon before name) hg]
  exact outcome_of_step rfl rest

theorem noDigit_items {items : List Json} {t : List Char} (h : SpellsItems items t)
    (rest : List Char) : NoDigit (t ++ rest) := by
  cases h with
  | close hb =>
    rw [List.append_assoc]
    exact noDigit_blank hb (by rintro c ⟨rfl⟩; decide)
  | cons hb hg hs ht =>
    rw [List.append_assoc]
    exact noDigit_blank hb (by rintro c ⟨rfl⟩; decide)

theorem noDigit_members {members : List (String × Json)} {t : List Char}
    (h : SpellsMembers members t) (rest : List Char) : NoDigit (t ++ rest) := by
  cases h with
  | close hb =>
    rw [List.append_assoc]
    exact noDigit_blank hb (by rintro c ⟨rfl⟩; decide)
  | cons hb hs ht =>
    rw [List.append_assoc]
    exact noDigit_blank hb (by rintro c ⟨rfl⟩; decide)

mutual

/-- **A value is read** in any of its spellings, if no digit follows. -/
theorem outcome_value (stack : List Frame) : (value : Json) → {s rest : List Char} →
    Spells value s → NoDigit rest →
      (⟨stack, .value⟩ : Reading).outcome (s ++ rest) =
        (⟨stack, .done value⟩ : Reading).outcome rest
  | .flag true, _, rest, .yes, _ => rfl
  | .flag false, _, rest, .no, _ => rfl
  | .count n, _, _, .count h, hrest => by
    rw [outcome_decimal h, outcome_number hrest]
  | .text v, _, rest, .text h, _ => by
    rw [outcome_quoted h rfl]
    simp [close]
  | .list [], _, rest, .emptyList hb, _ => by
    rw [List.cons_append, outcome_of_step rfl, List.append_assoc, outcome_blank .opened hb]
    rfl
  | .list (item :: items), _, rest, .list hb hs ht, _ => by
    rw [List.cons_append, outcome_of_step rfl, List.append_assoc, List.append_assoc,
      outcome_blank .opened hb, outcome_opened hs,
      outcome_value _ item hs (noDigit_items ht rest)]
    exact outcome_items stack [] item items ht
  | .object [], _, rest, .emptyObject hb, _ => by
    rw [List.cons_append, outcome_of_step rfl, List.append_assoc,
      outcome_blank (.name [] true) hb]
    rfl
  | .object ((name, value) :: members), _, rest, .object (.named hb hq hg hh hs) ht, _ => by
    rw [List.cons_append, outcome_of_step rfl, List.append_assoc, List.append_assoc,
      List.cons_append, outcome_name true hb hq hg, List.append_assoc,
      outcome_blank .value hh, outcome_value _ value hs (noDigit_members ht rest)]
    exact outcome_members stack [] name value members ht

theorem outcome_items (stack : List Frame) (before : List Json) (item : Json) :
    (items : List Json) → {t rest : List Char} → SpellsItems items t →
      (⟨.list before :: stack, .done item⟩ : Reading).outcome (t ++ rest) =
        (⟨stack, .done (.list (before ++ item :: items))⟩ : Reading).outcome rest
  | [], _, rest, .close hb => by
    rw [List.append_assoc, outcome_blank (.done item) hb]
    rfl
  | next :: items, _, rest, .cons hb hg hs ht => by
    have hitems := @outcome_items stack (before ++ [item]) next items _ rest ht
    rw [List.append_assoc, outcome_blank (.done item) hb, List.cons_append, outcome_of_step rfl,
      List.append_assoc, List.append_assoc, outcome_blank .value hg,
      outcome_value _ next hs (noDigit_items ht rest), hitems, List.append_assoc]
    rfl

theorem outcome_members (stack : List Frame) (before : List (String × Json)) (name : String)
    (value : Json) : (members : List (String × Json)) → {t rest : List Char} →
      SpellsMembers members t →
      (⟨.object before name :: stack, .done value⟩ : Reading).outcome (t ++ rest) =
        (⟨stack, .done (.object (before ++ (name, value) :: members))⟩ : Reading).outcome rest
  | [], _, rest, .close hb => by
    rw [List.append_assoc, outcome_blank (.done value) hb]
    rfl
  | (next, item) :: members, _, rest, .cons hb (.named hc hq hg hh hs) ht => by
    have hmembers := @outcome_members stack (before ++ [(name, value)]) next item members _ rest ht
    rw [List.append_assoc, outcome_blank (.done value) hb, List.cons_append, outcome_of_step rfl,
      List.append_assoc, List.append_assoc, List.cons_append, outcome_name false hc hq hg,
      List.append_assoc, outcome_blank .value hh,
      outcome_value _ item hs (noDigit_members ht rest), hmembers, List.append_assoc]
    rfl

end

end Reading

/-- **Every document is read as its value.** -/
theorem read?_of_document {value : Json} {text : String} (h : Document value text.toList) :
    read? text = some value := by
  rw [read?]
  generalize text.toList = t at h
  obtain ⟨hb, hs, hg⟩ := h
  have hend : Reading.NoDigit [] := nofun
  have hrest := Reading.noDigit_blank hg hend
  rw [List.append_nil] at hrest
  rw [List.append_assoc, Reading.outcome_blank .value hb, Reading.outcome_value [] value hs hrest]
  have hblank := @Reading.outcome_blank [] _ (.done value) _ hg []
  rwa [List.append_nil] at hblank

/-- **A text has one value.** -/
theorem Document.unique {value other : Json} {text : List Char} (h : Document value text)
    (hother : Document other text) : value = other := by
  rw [← String.toList_ofList (l := text)] at h hother
  exact Option.some.inj ((read?_of_document h).symm.trans (read?_of_document hother))

end Json
end DocCoverage
