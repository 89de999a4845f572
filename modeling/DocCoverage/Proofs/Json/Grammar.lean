import DocCoverage.Json
import DocCoverage.Text.Hexadecimal

/-! # The JSON texts of a value

A value has many JSON texts: blanks may stand between any two tokens, and a character of
a string may be written as it is or escaped, beyond U+FFFF by two code units.  `Spells`
relates a value to all its texts, `Document` allows blanks around them; neither says how
a text is written or read.  Each rule follows the grammar of RFC 8259, for values without
null whose numbers are natural.

Both written forms are among the texts (`spells_written`), for the blanks they use are
JSON's and what they escape must be escaped. -/

namespace DocCoverage
namespace Json

open Text (hexValue?)

/-! ## Tokens -/

/-- Blanks, which mean nothing between tokens. -/
def IsBlank (s : List Char) : Prop := ∀ c ∈ s, c = ' ' ∨ c = '\t' ∨ c = '\n' ∨ c = '\r'

/-- Four hexadecimal digits and the number that they write. -/
inductive CodeUnit : List Char → Nat → Prop
  | digits {a b c d : Char} {k l m n : Nat} (ha : hexValue? a = some k)
      (hb : hexValue? b = some l) (hc : hexValue? c = some m) (hd : hexValue? d = some n) :
      CodeUnit [a, b, c, d] (((k * 16 + l) * 16 + m) * 16 + n)

/-- The characters that a backslash and a letter stand for, with the letter. -/
def letters : List (Char × Char) :=
  [('"', '"'), ('\\', '\\'), ('/', '/'), ('\x08', 'b'), ('\x0c', 'f'), ('\n', 'n'), ('\r', 'r'),
    ('\t', 't')]

/-- How a character may be written in a string. -/
inductive CharSpelling : Char → List Char → Prop
  | plain {c : Char} (h : 0x20 ≤ c.toNat) (hquote : c ≠ '"') (hslash : c ≠ '\\') :
      CharSpelling c [c]
  | letter {c e : Char} (h : (c, e) ∈ letters) : CharSpelling c ['\\', e]
  | unit {c : Char} {s : List Char} (h : CodeUnit s c.toNat) : CharSpelling c ('\\' :: 'u' :: s)
  | pair {c : Char} {s t : List Char} {high low : Nat} (hs : CodeUnit s high)
      (ht : CodeUnit t low) (hhigh : 0xd800 ≤ high ∧ high < 0xdc00)
      (hlow : 0xdc00 ≤ low ∧ low < 0xe000)
      (hc : c.toNat = 0x10000 + (high - 0xd800) * 0x400 + (low - 0xdc00)) :
      CharSpelling c ('\\' :: 'u' :: (s ++ '\\' :: 'u' :: t))

/-- How the characters of a string may be written, one after the other. -/
inductive Escaped : List Char → List Char → Prop
  | nil : Escaped [] []
  | cons {c : Char} {v s t : List Char} (hc : CharSpelling c s) (hv : Escaped v t) :
      Escaped (c :: v) (s ++ t)

/-- A string between its quotation marks. -/
inductive Quoted : String → List Char → Prop
  | marks {v : String} {s : List Char} (h : Escaped v.toList s) : Quoted v ('"' :: (s ++ ['"']))

/-- A natural number in decimal digits; a zero leads no other digit. -/
inductive Decimal : Nat → List Char → Prop
  | digit {d : Nat} (hd : d < 10) : Decimal d [d.digitChar]
  | snoc {n d : Nat} {s : List Char} (hn : 0 < n) (h : Decimal n s) (hd : d < 10) :
      Decimal (n * 10 + d) (s ++ [d.digitChar])

/-! ## Values -/

mutual

/-- A value and one of its texts, from its first token to its last. -/
inductive Spells : Json → List Char → Prop
  | yes : Spells (.flag true) ['t', 'r', 'u', 'e']
  | no : Spells (.flag false) ['f', 'a', 'l', 's', 'e']
  | count {n : Nat} {s : List Char} (h : Decimal n s) : Spells (.count n) s
  | text {v : String} {s : List Char} (h : Quoted v s) : Spells (.text v) s
  | emptyList {b : List Char} (hb : IsBlank b) : Spells (.list []) ('[' :: (b ++ [']']))
  | list {item : Json} {items : List Json} {b s t : List Char} (hb : IsBlank b)
      (hs : Spells item s) (ht : SpellsItems items t) :
      Spells (.list (item :: items)) ('[' :: (b ++ s ++ t))
  | emptyObject {b : List Char} (hb : IsBlank b) : Spells (.object []) ('\x7b' :: (b ++ ['\x7d']))
  | object {member : String × Json} {members : List (String × Json)} {s t : List Char}
      (hs : SpellsMember member s) (ht : SpellsMembers members t) :
      Spells (.object (member :: members)) ('\x7b' :: (s ++ t))

/-- The items of a list behind one of its items, and its end. -/
inductive SpellsItems : List Json → List Char → Prop
  | close {b : List Char} (hb : IsBlank b) : SpellsItems [] (b ++ [']'])
  | cons {item : Json} {items : List Json} {b g s t : List Char} (hb : IsBlank b)
      (hg : IsBlank g) (hs : Spells item s) (ht : SpellsItems items t) :
      SpellsItems (item :: items) (b ++ ',' :: (g ++ s ++ t))

/-- A member of an object, with the blanks before it. -/
inductive SpellsMember : String × Json → List Char → Prop
  | named {name : String} {value : Json} {b q g h s : List Char} (hb : IsBlank b)
      (hq : Quoted name q) (hg : IsBlank g) (hh : IsBlank h) (hs : Spells value s) :
      SpellsMember (name, value) (b ++ q ++ g ++ ':' :: (h ++ s))

/-- The members of an object behind one of its members, and its end. -/
inductive SpellsMembers : List (String × Json) → List Char → Prop
  | close {b : List Char} (hb : IsBlank b) : SpellsMembers [] (b ++ ['\x7d'])
  | cons {member : String × Json} {members : List (String × Json)} {b s t : List Char}
      (hb : IsBlank b) (hs : SpellsMember member s) (ht : SpellsMembers members t) :
      SpellsMembers (member :: members) (b ++ ',' :: (s ++ t))

end

/-- A whole text of a value: blanks may stand around it. -/
inductive Document : Json → List Char → Prop
  | around {value : Json} {b s g : List Char} (hb : IsBlank b) (hs : Spells value s)
      (hg : IsBlank g) : Document value (b ++ s ++ g)

/-! ## What is written is a text of the value -/

theorem isBlank_nil : IsBlank [] := nofun

theorem isBlank_newLine (level : Nat) : IsBlank (newLine level) := by
  intro c hc
  rcases List.mem_cons.mp hc with rfl | hc
  · exact Or.inr (Or.inr (Or.inl rfl))
  · exact Or.inl (List.eq_of_mem_replicate hc)

theorem hexValue?_hexDigit : ∀ n, n < 16 → hexValue? (hexDigit n) = some n := by decide

/-- Each character is written as JSON allows. -/
theorem charSpelling_escaped (c : Char) : CharSpelling c (escaped c) := by
  unfold escaped
  split
  · next h => exact .letter (by rw [h]; decide)
  split
  · next h => exact .letter (by rw [h]; decide)
  split
  · next h => exact .letter (by rw [h]; decide)
  split
  · next h => exact .letter (by rw [h]; decide)
  split
  · next h => exact .letter (by rw [h]; decide)
  split
  · next h => exact .letter (by rw [h]; decide)
  split
  · next h => exact .letter (by rw [h]; decide)
  split
  · next hcontrol =>
    have hhigh : hexValue? (hexDigit (c.toNat / 16)) = some (c.toNat / 16) :=
      hexValue?_hexDigit _ (by omega)
    have hlow : hexValue? (hexDigit (c.toNat % 16)) = some (c.toNat % 16) :=
      hexValue?_hexDigit _ (by omega)
    have hvalue : ((0 * 16 + 0) * 16 + c.toNat / 16) * 16 + c.toNat % 16 = c.toNat := by omega
    have hunit := CodeUnit.digits (show hexValue? '0' = some 0 from rfl)
      (show hexValue? '0' = some 0 from rfl) hhigh hlow
    rw [hvalue] at hunit
    exact .unit hunit
  · next hquote hslash _ _ _ _ _ hcontrol => exact .plain (by omega) hquote hslash

theorem escaped_flatMap (v : List Char) : Escaped v (v.flatMap escaped) := by
  induction v with
  | nil => exact .nil
  | cons c v ih => exact .cons (charSpelling_escaped c) ih

theorem quoted_quoted (v : String) : Quoted v (quoted v) := .marks (escaped_flatMap v.toList)

/-- Decimal digits of a number never begin with a zero that means nothing. -/
theorem decimal_toDigits (n : Nat) : Decimal n (Nat.toDigits 10 n) := by
  induction n using Nat.strongRecOn with
  | ind n ih =>
    by_cases hsmall : n < 10
    · rw [Nat.toDigits_of_lt_base hsmall]
      exact .digit hsmall
    · have hfront : 0 < n / 10 := by omega
      have hlast : n % 10 < 10 := by omega
      have hdigits := Nat.toDigits_append_toDigits (by decide : 1 < 10) hfront hlast
      rw [Nat.toDigits_of_lt_base hlast, Nat.div_add_mod] at hdigits
      have hsnoc := Decimal.snoc hfront (ih (n / 10) (by omega)) hlast
      rwa [hdigits, Nat.div_add_mod'] at hsnoc

theorem spellsMember_quoted {name : String} {value : Json} {b s : List Char} (hb : IsBlank b)
    (hs : Spells value s) : SpellsMember (name, value) (b ++ quoted name ++ ':' :: ' ' :: s) := by
  have hblank : IsBlank [' '] := by simp [IsBlank]
  have hmember := SpellsMember.named hb (quoted_quoted name) isBlank_nil hblank hs
  rwa [List.append_nil] at hmember

mutual

/-- **A value stands on its lines as one of its texts.** -/
theorem spells_written (level : Nat) : (value : Json) → Spells value (written level value)
  | .flag true => .yes
  | .flag false => .no
  | .count n => .count (decimal_toDigits n)
  | .text s => .text (quoted_quoted s)
  | .list [] => .emptyList isBlank_nil
  | .list (item :: rest) => by
    have hitem := spells_written (level + 1) item
    have hrest := spellsItems_written (level + 1) level rest
    simpa [written] using Spells.list (isBlank_newLine (level + 1)) hitem hrest
  | .object [] => .emptyObject isBlank_nil
  | .object ((name, value) :: rest) => by
    have hmember := @spellsMember_quoted name value _ _ (isBlank_newLine (level + 1))
      (spells_written (level + 1) value)
    have hrest := spellsMembers_written (level + 1) level rest
    simpa [written] using Spells.object hmember hrest

theorem spellsItems_written (level outer : Nat) : (items : List Json) →
    SpellsItems items (writtenItems level items ++ newLine outer ++ [']'])
  | [] => .close (isBlank_newLine outer)
  | item :: rest => by
    have hitem := spells_written level item
    have hrest := spellsItems_written level outer rest
    simpa [writtenItems] using SpellsItems.cons isBlank_nil (isBlank_newLine level) hitem hrest

theorem spellsMembers_written (level outer : Nat) : (members : List (String × Json)) →
    SpellsMembers members (writtenMembers level members ++ newLine outer ++ ['\x7d'])
  | [] => .close (isBlank_newLine outer)
  | (name, value) :: rest => by
    have hmember := @spellsMember_quoted name value _ _ (isBlank_newLine level)
      (spells_written level value)
    have hrest := spellsMembers_written level outer rest
    simpa [writtenMembers] using SpellsMembers.cons isBlank_nil hmember hrest

end

end Json
end DocCoverage
