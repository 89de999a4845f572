import DocCoverage.Overlay.Key

/-! # How an overlay may be written

A list of settings has many texts: keys and strings in either kind of quotes,
characters as they are or escaped, a list of commands on one line or on several, and
gaps, comments and blank lines wherever TOML allows them.  `Spells` relates a list of
settings to all its texts, without saying how a text is read.  Each rule follows the
grammar of TOML 1.0 for the values that an overlay can have; strings stay on one line. -/

namespace DocCoverage.Overlay

/-! ## Between the words -/

/-- Spaces and tabs. -/
def IsGap (s : List Char) : Prop := ∀ c ∈ s, c = ' ' ∨ c = '\t'

instance : DecidablePred IsGap := fun s =>
  decidable_of_iff (s.all fun c => c = ' ' ∨ c = '\t') (by simp [IsGap])

/-- A character that may stand as it is: the tab, and all that are no control characters. -/
def Printable (c : Char) : Prop := c = '\t' ∨ 0x20 ≤ c.toNat ∧ c.toNat ≠ 0x7f

instance : DecidablePred Printable := fun c =>
  inferInstanceAs (Decidable (c = '\t' ∨ 0x20 ≤ c.toNat ∧ c.toNat ≠ 0x7f))

/-- A comment, or none. -/
inductive Comment : List Char → Prop
  | absent : Comment []
  | present {s : List Char} (h : ∀ c ∈ s, Printable c) : Comment ('#' :: s)

/-- The end of a line. -/
inductive LineBreak : List Char → Prop
  | lineFeed : LineBreak ['\n']
  | both : LineBreak ['\r', '\n']

/-- What may stand between the parts of a list: gaps, comments and line breaks. -/
inductive Filler : List Char → Prop
  | gap {g : List Char} (hg : IsGap g) : Filler g
  | line {g c b f : List Char} (hg : IsGap g) (hc : Comment c) (hb : LineBreak b)
      (hf : Filler f) : Filler (g ++ c ++ b ++ f)

/-! ## Strings -/

/-- A hexadecimal digit and its value. -/
inductive HexDigit : Char → Nat → Prop
  | digit {n : Nat} (h : n < 10) : HexDigit (Char.ofNat (0x30 + n)) n
  | lower {n : Nat} (h : n < 6) : HexDigit (Char.ofNat (0x61 + n)) (10 + n)
  | upper {n : Nat} (h : n < 6) : HexDigit (Char.ofNat (0x41 + n)) (10 + n)

/-- A hexadecimal number and its value. -/
inductive HexNumber : List Char → Nat → Prop
  | nil : HexNumber [] 0
  | snoc {s : List Char} {c : Char} {n d : Nat} (hs : HexNumber s n) (hc : HexDigit c d) :
      HexNumber (s ++ [c]) (n * 16 + d)

/-- The characters that a backslash and a letter stand for, with the letter. -/
def letters : List (Char × Char) :=
  [('"', '"'), ('\\', '\\'), ('\x08', 'b'), ('\t', 't'), ('\n', 'n'), ('\x0c', 'f'), ('\r', 'r')]

/-- How a character may be written between double quotes. -/
inductive CharSpelling : Char → List Char → Prop
  | plain {c : Char} (h : Printable c) (hquote : c ≠ '"') (hslash : c ≠ '\\') :
      CharSpelling c [c]
  | letter {c e : Char} (h : (c, e) ∈ letters) : CharSpelling c ['\\', e]
  | short {c : Char} {s : List Char} (hlength : s.length = 4) (h : HexNumber s c.toNat) :
      CharSpelling c ('\\' :: 'u' :: s)
  | long {c : Char} {s : List Char} (hlength : s.length = 8) (h : HexNumber s c.toNat) :
      CharSpelling c ('\\' :: 'U' :: s)

/-- How a text may be written between double quotes. -/
inductive Escaped : List Char → List Char → Prop
  | nil : Escaped [] []
  | cons {c : Char} {v s t : List Char} (hc : CharSpelling c s) (hv : Escaped v t) :
      Escaped (c :: v) (s ++ t)

/-- A mark between double quotes is written with a backslash. -/
theorem head?_escaped {v s : List Char} (h : Escaped v s) : s.head? ≠ some '"' := by
  cases h with
  | nil => simp
  | cons hc hv =>
    cases hc with
    | plain h hquote hslash => simpa using hquote
    | letter h => simp
    | short hlength h => simp
    | long hlength h => simp

theorem eq_nil_of_escaped_nil {v : List Char} (h : Escaped v []) : v = [] := by
  generalize hs : [] = s at h
  cases h with
  | nil => rfl
  | cons hc hv => cases hc <;> simp at hs

theorem escaped_plain {v : List Char} (h : ∀ c ∈ v, Printable c ∧ c ≠ '"' ∧ c ≠ '\\') :
    Escaped v v := by
  induction v with
  | nil => exact .nil
  | cons c v ih =>
    obtain ⟨⟨hc, hquote, hslash⟩, hv⟩ := List.forall_mem_cons.mp h
    exact .cons (.plain hc hquote hslash) (ih hv)

/-- A text as a string on one line: between double quotes, or as it is between single
ones. -/
inductive Quoted : List Char → List Char → Prop
  | basic {v s : List Char} (h : Escaped v s) : Quoted v ('"' :: (s ++ ['"']))
  | literal {v : List Char} (h : ∀ c ∈ v, Printable c ∧ c ≠ '\'') :
      Quoted v ('\'' :: (v ++ ['\'']))

/-! ## Settings -/

/-- The word under which a user gives each setting. -/
inductive KeyWord : Key → String → Prop
  | controllersDir : KeyWord (.text (.path .controllersDir)) "controllers_dir"
  | policiesFile : KeyWord (.text (.path .policiesFile)) "policies_file"
  | importsDir : KeyWord (.text (.path .importsDir)) "imports_dir"
  | reportsDir : KeyWord (.text (.path .reportsDir)) "reports_dir"
  | apiDoc : KeyWord (.text (.path .apiDoc)) "api_doc"
  | applicationDoc : KeyWord (.text (.path .applicationDoc)) "application_doc"
  | sourceExtension : KeyWord (.text .sourceExtension) "source_extension"
  | controllerBaseClass : KeyWord (.text .controllerBaseClass) "controller_base_class"
  | policyBeginning : KeyWord (.text .policyBeginning) "policy_prefix"
  | commands : KeyWord .commands "critical_manual_commands"

/-- A key as its word, bare or as a string. -/
inductive KeySpelling (key : Key) : List Char → Prop
  | bare {word : String} (hword : KeyWord key word) : KeySpelling key word.toList
  | quoted {word : String} {s : List Char} (hword : KeyWord key word)
      (h : Quoted word.toList s) : KeySpelling key s

/-- The rest of a list of commands, from behind its opening bracket or a comma on. -/
inductive Items : List String → List Char → Prop
  | close {f : List Char} (hf : Filler f) : Items [] (f ++ [']'])
  | last {name : String} {f s g : List Char} (hf : Filler f) (hs : Quoted name.toList s)
      (hg : Filler g) : Items [name] (f ++ s ++ g ++ [']'])
  | cons {name : String} {names : List String} {f s g t : List Char} (hf : Filler f)
      (hs : Quoted name.toList s) (hg : Filler g) (ht : Items names t) :
      Items (name :: names) (f ++ s ++ g ++ ',' :: t)

/-- The value of a setting. -/
inductive ValueSpelling : Setting → List Char → Prop
  | text {setting : TextSetting} {value : String} {s : List Char}
      (h : Quoted value.toList s) : ValueSpelling (.text setting value) s
  | commands {names : List String} {t : List Char} (h : Items names t) :
      ValueSpelling (.commands names) ('[' :: t)

/-- A setting as `key = value`. -/
inductive Assignment : Setting → List Char → Prop
  | intro {setting : Setting} {g k h i v : List Char} (hg : IsGap g)
      (hk : KeySpelling (keyOf setting) k) (hh : IsGap h) (hi : IsGap i)
      (hv : ValueSpelling setting v) : Assignment setting (g ++ k ++ h ++ '=' :: (i ++ v))

/-- A text that gives settings in order, a line for each, with blank lines and comments
around them.  The last line need not be ended. -/
inductive Spells : List Setting → List Char → Prop
  | done {g c : List Char} (hg : IsGap g) (hc : Comment c) : Spells [] (g ++ c)
  | last {setting : Setting} {a g c : List Char} (ha : Assignment setting a) (hg : IsGap g)
      (hc : Comment c) : Spells [setting] (a ++ g ++ c)
  | skip {given : List Setting} {g c b t : List Char} (hg : IsGap g) (hc : Comment c)
      (hb : LineBreak b) (ht : Spells given t) : Spells given (g ++ c ++ b ++ t)
  | give {setting : Setting} {given : List Setting} {a g c b t : List Char}
      (ha : Assignment setting a) (hg : IsGap g) (hc : Comment c) (hb : LineBreak b)
      (ht : Spells given t) : Spells (setting :: given) (a ++ g ++ c ++ b ++ t)

/-! ## Every list of settings can be written

A character that needs it, and every other one, has a number of eight digits. -/

theorem exists_hexDigit {d : Nat} (h : d < 16) : ∃ c, HexDigit c d := by
  by_cases hd : d < 10
  · exact ⟨_, .digit hd⟩
  · have hlower := @HexDigit.lower (d - 10) (by omega)
    rw [show 10 + (d - 10) = d by omega] at hlower
    exact ⟨_, hlower⟩

theorem exists_hexNumber {k n : Nat} (h : n < Nat.pow 16 k) :
    ∃ s, s.length = k ∧ HexNumber s n := by
  induction k generalizing n with
  | zero =>
    have hzero : n < 1 := h
    obtain rfl : n = 0 := by omega
    exact ⟨[], rfl, .nil⟩
  | succ k ih =>
    have hsplit : n < Nat.pow 16 k * 16 := h
    obtain ⟨s, hlength, hs⟩ := ih (Nat.div_lt_of_lt_mul (Nat.mul_comm .. ▸ hsplit))
    obtain ⟨c, hc⟩ := exists_hexDigit (Nat.mod_lt n (by decide : 0 < 16))
    have hnumber := HexNumber.snoc hs hc
    rw [Nat.div_add_mod'] at hnumber
    exact ⟨s ++ [c], by simp [hlength], hnumber⟩

theorem exists_charSpelling (c : Char) : ∃ s, CharSpelling c s := by
  have hvalid : c.toNat.isValidChar := c.valid
  have hbound : c.toNat < Nat.pow 16 8 := by
    show c.toNat < 4294967296
    rcases hvalid with h | ⟨-, h⟩ <;> omega
  obtain ⟨s, hlength, hs⟩ := exists_hexNumber hbound
  exact ⟨_, .long hlength hs⟩

theorem exists_escaped (v : List Char) : ∃ s, Escaped v s := by
  induction v with
  | nil => exact ⟨[], .nil⟩
  | cons c v ih =>
    obtain ⟨s, hs⟩ := exists_charSpelling c
    obtain ⟨t, ht⟩ := ih
    exact ⟨s ++ t, .cons hs ht⟩

theorem exists_quoted (v : List Char) : ∃ s, Quoted v s := by
  obtain ⟨s, hs⟩ := exists_escaped v
  exact ⟨_, .basic hs⟩

theorem isGap_nil : IsGap [] := by
  intro c hc
  cases hc

theorem exists_items (names : List String) : ∃ t, Items names t := by
  induction names with
  | nil => exact ⟨_, .close (.gap isGap_nil)⟩
  | cons name names ih =>
    obtain ⟨s, hs⟩ := exists_quoted name.toList
    obtain ⟨t, ht⟩ := ih
    exact ⟨_, .cons (.gap isGap_nil) hs (.gap isGap_nil) ht⟩

theorem keyWord_iff {key : Key} {word : String} : KeyWord key word ↔ word = key.name := by
  constructor
  · intro h
    cases h <;> rfl
  · rintro rfl
    rcases key with (setting | _ | _ | _) | _
    · cases setting <;> constructor
    all_goals constructor

theorem exists_assignment (setting : Setting) : ∃ a, Assignment setting a := by
  have hvalue : ∃ v, ValueSpelling setting v := by
    cases setting with
    | text setting value =>
      obtain ⟨s, hs⟩ := exists_quoted value.toList
      exact ⟨s, .text hs⟩
    | commands names =>
      obtain ⟨t, ht⟩ := exists_items names
      exact ⟨_, .commands ht⟩
  obtain ⟨v, hv⟩ := hvalue
  exact ⟨_, .intro isGap_nil (.bare (keyWord_iff.mpr rfl)) isGap_nil isGap_nil hv⟩

/-- Whatever the values are, and in whatever order they are given, there is a text. -/
theorem exists_spells (given : List Setting) : ∃ t, Spells given t := by
  induction given with
  | nil => exact ⟨_, .done isGap_nil .absent⟩
  | cons setting given ih =>
    obtain ⟨a, ha⟩ := exists_assignment setting
    obtain ⟨t, ht⟩ := ih
    exact ⟨_, .give ha isGap_nil .absent .lineFeed ht⟩

end DocCoverage.Overlay
