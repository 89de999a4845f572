import DocCoverage.Identifiers
import DocCoverage.Proofs.Stems
import Mathlib.Algebra.Group.Nat.Defs

/-! # Texts in the order of their bytes

A set of identifiers is sorted by comparing texts, which is comparing their characters from
the left.  Programs that read the output may compare bytes instead, and characters are
spelled with one to four of them.  The order is the same (`Text.encode_lt_iff`): the first
byte of a character grows with the character and is the same only for characters of one
length (`Text.lead_lt_or`), and the bytes behind it are digits, the greatest first
(`Text.continued_lt`).  So where two texts differ first, their bytes differ first, and in
the same direction (`Text.utf8EncodeChar_lt`). -/

namespace DocCoverage.Text

/-! ## The bytes of a character -/

/-- How many bytes stand behind the first one of the character with a number. -/
def trailing (n : Nat) : Nat :=
  if n ≤ 0x7f then 0 else if n ≤ 0x7ff then 1 else if n ≤ 0xffff then 2 else 3

/-- The number of the first byte. -/
def lead (n : Nat) : Nat :=
  if n ≤ 0x7f then n
  else if n ≤ 0x7ff then n / 64 + 0xc0
  else if n ≤ 0xffff then n / 4096 + 0xe0
  else n / 262144 + 0xf0

/-- The last digits of a number to base 64, as bytes. -/
def continued : Nat → Nat → List UInt8
  | 0, _ => []
  | count + 1, n => UInt8.ofNat (n / 64 ^ count % 64 + 0x80) :: continued count n

theorem toNat_lt (c : Char) : c.toNat < 0x110000 := by
  rcases c.valid with h | ⟨-, h⟩
  · exact Nat.lt_trans h (by decide)
  · exact h

/-- A character is spelled by its first byte and by digits. -/
theorem utf8EncodeChar_eq (c : Char) : String.utf8EncodeChar c =
    UInt8.ofNat (lead c.toNat) :: continued (trailing c.toNat) c.toNat := by
  have hmax := toNat_lt c
  unfold String.utf8EncodeChar lead trailing
  simp only [Char.toNat_val]
  split
  · rfl
  · split
    · rw [Nat.mod_eq_of_lt (by omega)]
      simp [continued]
    · split
      · rw [Nat.mod_eq_of_lt (by omega : c.toNat / 4096 < 16)]
        simp [continued]
      · rw [Nat.mod_eq_of_lt (by omega : c.toNat / 262144 < 8)]
        simp [continued]

theorem lead_lt {n : Nat} (hmax : n < 0x110000) : lead n < 256 := by
  unfold lead
  repeat' split
  all_goals omega

/-- A greater character has a greater first byte or the same one.  If it is the same, there
are as many bytes behind it, and the digits that it stands for are the same. -/
theorem lead_lt_or {m n : Nat} (h : m < n) (hmax : n < 0x110000) :
    lead m < lead n ∨ lead m = lead n ∧ trailing m = trailing n ∧
      m / 64 ^ trailing n = n / 64 ^ trailing n := by
  unfold lead trailing
  -- one case for each pair of lengths; where they differ, so do the first bytes
  repeat' split
  all_goals omega

/-! ## Comparing bytes -/

/-- Bytes compare as their numbers do. -/
theorem ofNat_cons_lt {m n : Nat} (hm : m < 256) (hn : n < 256) {x y : List UInt8}
    (h : m < n ∨ m = n ∧ x < y) : UInt8.ofNat m :: x < UInt8.ofNat n :: y := by
  rcases h with h | ⟨rfl, h⟩
  · refine List.cons_lt_cons_iff.mpr (Or.inl ?_)
    rw [UInt8.lt_iff_toNat_lt, UInt8.toNat_ofNat', UInt8.toNat_ofNat']
    omega
  · exact List.cons_lt_cons_iff.mpr (Or.inr ⟨rfl, h⟩)

/-- **Digits compare as the numbers do** that have the same digits before them. -/
theorem continued_lt {count m n : Nat} (h : m < n) (hsame : m / 64 ^ count = n / 64 ^ count)
    (x y : List UInt8) : continued count m ++ x < continued count n ++ y := by
  induction count with
  | zero => simp at hsame; omega
  | succ count ih =>
    have hle : m / 64 ^ count ≤ n / 64 ^ count := Nat.div_le_div_right (Nat.le_of_lt h)
    rw [Nat.pow_succ, ← Nat.div_div_eq_div_mul, ← Nat.div_div_eq_div_mul] at hsame
    refine ofNat_cons_lt (by omega) (by omega) ?_
    -- either this digit decides, or a later one
    by_cases hdigit : m / 64 ^ count = n / 64 ^ count
    · exact Or.inr ⟨by rw [hdigit], ih hdigit⟩
    · exact Or.inl (by omega)

/-- **Where characters differ, their bytes differ first**, and in the same direction,
whatever follows. -/
theorem utf8EncodeChar_lt {c d : Char} (h : c < d) (x y : List UInt8) :
    String.utf8EncodeChar c ++ x < String.utf8EncodeChar d ++ y := by
  have hlt : c.toNat < d.toNat := h
  rw [utf8EncodeChar_eq, utf8EncodeChar_eq, List.cons_append, List.cons_append]
  refine ofNat_cons_lt (lead_lt (toNat_lt c)) (lead_lt (toNat_lt d)) ?_
  rcases lead_lt_or hlt (toNat_lt d) with hlead | ⟨hlead, htrailing, hsame⟩
  · exact Or.inl hlead
  · rw [htrailing]
    exact Or.inr ⟨hlead, continued_lt hlt hsame x y⟩

/-! ## Comparing texts -/

/-- What grows with a text compares as the text does. -/
theorem lt_iff_of_grows {α : Type} [LT α] [Std.Asymm (α := α) (· < ·)] {f : String → List α}
    (hgrows : ∀ {s t : String}, s < t → f s < f t) {s t : String} : f s < f t ↔ s < t := by
  refine ⟨fun h => Decidable.byContradiction fun hnot => ?_, hgrows⟩
  by_cases hst : s = t
  · rw [hst] at h
    exact List.lt_asymm h h
  · exact List.lt_asymm h (hgrows (Identifiers.lt_of_not_lt_of_ne hnot hst))

theorem flatMap_utf8EncodeChar_lt {cs ds : List Char} (h : cs < ds) :
    cs.flatMap String.utf8EncodeChar < ds.flatMap String.utf8EncodeChar := by
  induction h with
  | nil =>
    rw [List.flatMap_cons, utf8EncodeChar_eq]
    exact List.nil_lt_cons _ _
  | rel h => exact utf8EncodeChar_lt h _ _
  | cons _ ih => exact List.append_left_lt ih

/-- **Texts compare as their bytes do.** -/
theorem encode_lt_iff {s t : String} : encode s < encode t ↔ s < t := by
  refine lt_iff_of_grows fun h => ?_
  rw [encode_eq_flatMap, encode_eq_flatMap]
  exact flatMap_utf8EncodeChar_lt (String.lt_iff.mp h)

/-- Texts compare as the numbers of their characters do. -/
theorem codePoints_lt_iff {s t : String} :
    s.toList.map Char.toNat < t.toList.map Char.toNat ↔ s < t :=
  lt_iff_of_grows (f := fun s => s.toList.map Char.toNat)
    fun h => List.map_lt (fun _ _ hlt => hlt) (String.lt_iff.mp h)

/-- The first one would come last if units of two bytes were compared. -/
example : encode "\uFF5E" < encode "😀" := by decide

end DocCoverage.Text
