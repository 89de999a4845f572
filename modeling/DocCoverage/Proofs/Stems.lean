import DocCoverage.Path

/-! # Stems and extensions

A name that is cut at its last dot is the stem, a dot and the extension, and there is one
way only to write it so: the extension has no dot (`FileName.cutAtLastDot_eq_some_iff`).
A dot in first position does not count, so no stem is empty
(`FileName.stemAndExtension?_eq_some_iff`).

All this is about bytes.  In UTF-8 the byte of a dot stands for nothing but a dot
(`Text.dot_mem_encode_iff`), so the names with the stem and the extension of two texts are
the encodings of one text (`FileName.stemAndExtension?_encode_iff`). -/

namespace DocCoverage

/-! ## Texts and their bytes -/

namespace Text

/-- A text is encoded character by character. -/
theorem encode_eq_flatMap (s : String) : encode s = s.toList.flatMap String.utf8EncodeChar := by
  have hbytes : s.toByteArray = (s.toList.flatMap String.utf8EncodeChar).toByteArray :=
    String.utf8Encode_toList.symm
  rw [encode, String.toUTF8_eq_toByteArray, hbytes]
  simp

theorem encode_append (s t : String) : encode (s ++ t) = encode s ++ encode t := by
  simp [encode_eq_flatMap]

theorem encode_inj {s t : String} (h : encode s = encode t) : s = t := by
  have hdecode := congrArg decode? h
  rw [decode?_encode, decode?_encode] at hdecode
  exact Option.some.inj hdecode

theorem encode_eq_nil_iff {s : String} : encode s = [] ↔ s = "" := by
  refine ⟨fun h => encode_inj (h.trans ?_), ?_⟩
  · rfl
  · rintro rfl
    rfl

/-- A byte below 0x80 has the number of the character that it is part of: all bytes of
longer characters are greater. -/
theorem toNat_eq_of_mem_utf8EncodeChar {c : Char} {b : UInt8}
    (hmem : b ∈ String.utf8EncodeChar c) (hb : b.toNat < 0x80) : c.toNat = b.toNat := by
  have hnumber : c.val.toNat = c.toNat := rfl
  unfold String.utf8EncodeChar at hmem
  simp only [hnumber] at hmem
  split at hmem
  · obtain rfl := List.mem_singleton.mp hmem
    rw [UInt8.toNat_ofNat']
    omega
  · exfalso
    split at hmem
    · simp only [List.mem_cons, List.not_mem_nil, or_false] at hmem
      rcases hmem with rfl | rfl <;> rw [UInt8.toNat_ofNat'] at hb <;> omega
    · split at hmem
      · simp only [List.mem_cons, List.not_mem_nil, or_false] at hmem
        rcases hmem with rfl | rfl | rfl <;> rw [UInt8.toNat_ofNat'] at hb <;> omega
      · simp only [List.mem_cons, List.not_mem_nil, or_false] at hmem
        rcases hmem with rfl | rfl | rfl | rfl <;> rw [UInt8.toNat_ofNat'] at hb <;> omega

/-- **The byte of a dot stands for a dot.** -/
theorem dot_mem_encode_iff {s : String} : FileName.dot ∈ encode s ↔ '.' ∈ s.toList := by
  rw [encode_eq_flatMap, List.mem_flatMap]
  constructor
  · rintro ⟨c, hc, hdot⟩
    have hnumber : c.toNat = '.'.toNat := toNat_eq_of_mem_utf8EncodeChar hdot (by decide)
    obtain rfl : c = '.' := Char.toNat_inj.mp hnumber
    exact hc
  · intro hdot
    exact ⟨'.', hdot, by decide⟩

end Text

/-! ## Cutting a name -/

namespace FileName

/-- A name without a dot is not cut. -/
theorem cutAtLastDot_eq_none_iff {name : FileName} : cutAtLastDot name = none ↔ dot ∉ name := by
  induction name with
  | nil => simp [cutAtLastDot]
  | cons b rest ih =>
    rw [cutAtLastDot, List.mem_cons, not_or, ← ih]
    cases cutAtLastDot rest with
    | some cut => simp
    | none =>
      by_cases hdot : b = dot
      · simp [hdot]
      · simp [hdot, Ne.symm hdot]

/-- **A name is cut where no dot follows.** -/
theorem cutAtLastDot_eq_some_iff {name stem extension : FileName} :
    cutAtLastDot name = some (stem, extension) ↔
      name = stem ++ dot :: extension ∧ dot ∉ extension := by
  induction name generalizing stem with
  | nil => simp [cutAtLastDot]
  | cons b rest ih =>
    rw [cutAtLastDot]
    cases hcut : cutAtLastDot rest with
    | some cut =>
      obtain ⟨front, back⟩ := cut
      rw [hcut] at ih
      have hdot : dot ∈ rest := by
        refine Decidable.byContradiction fun hnone => ?_
        rw [cutAtLastDot_eq_none_iff.mpr hnone] at hcut
        cases hcut
      cases stem with
      | nil =>
        -- the last dot stands behind the first character
        refine iff_of_false (by simp) ?_
        rintro ⟨heq, hextension⟩
        obtain ⟨-, rfl⟩ := List.cons.inj heq
        exact hextension hdot
      | cons c stem => simpa [and_assoc] using and_congr_right fun _ => @ih stem
    | none =>
      have hrest : dot ∉ rest := cutAtLastDot_eq_none_iff.mp hcut
      cases stem with
      | nil =>
        by_cases hdot : b = dot
        · simp only [hdot, if_true, Option.some.injEq, Prod.mk.injEq, true_and, List.nil_append,
            List.cons.injEq]
          exact ⟨fun heq => heq ▸ ⟨rfl, hrest⟩, And.left⟩
        · simp [hdot]
      | cons c stem =>
        refine iff_of_false ?_ ?_
        · by_cases hdot : b = dot <;> simp [hdot]
        · rintro ⟨heq, -⟩
          obtain ⟨-, rfl⟩ := List.cons.inj heq
          exact hrest (by simp)

/-- The stem of a name is not empty. -/
theorem stemAndExtension?_eq_some_iff {name stem extension : FileName} :
    stemAndExtension? name = some (stem, extension) ↔
      name = stem ++ dot :: extension ∧ stem ≠ [] ∧ dot ∉ extension := by
  have hcut := @cutAtLastDot_eq_some_iff name stem extension
  rw [stemAndExtension?]
  split
  · next back hfirst =>
    refine iff_of_false (by simp) ?_
    rintro ⟨heq, hstem, hdot⟩
    have hother := hcut.mpr ⟨heq, hdot⟩
    rw [hfirst] at hother
    exact hstem (Prod.mk.inj (Option.some.inj hother)).1.symm
  · next hfirst =>
    rw [hcut]
    refine and_congr_right fun heq => (and_iff_right_of_imp fun hdot => ?_).symm
    rintro rfl
    exact hfirst _ (cutAtLastDot_eq_some_iff.mpr ⟨heq, hdot⟩)

/-- **A name is determined by its stem and its extension.** -/
theorem eq_of_stemAndExtension? {name other stem extension : FileName}
    (h : stemAndExtension? name = some (stem, extension))
    (h' : stemAndExtension? other = some (stem, extension)) : name = other := by
  rw [(stemAndExtension?_eq_some_iff.mp h).1, (stemAndExtension?_eq_some_iff.mp h').1]

/-- **The names with the stem and the extension of two texts.** -/
theorem stemAndExtension?_encode_iff {name : FileName} {stem extension : String} :
    stemAndExtension? name = some (Text.encode stem, Text.encode extension) ↔
      name = Text.encode (stem ++ "." ++ extension) ∧ stem ≠ "" ∧ '.' ∉ extension.toList := by
  have hdot : Text.encode "." = [dot] := by decide
  rw [stemAndExtension?_eq_some_iff, Text.encode_append, Text.encode_append, hdot,
    Text.dot_mem_encode_iff, Ne, Text.encode_eq_nil_iff]
  simp

/-- The stem of a name with an extension, if it is a text. -/
def textStem? (extension : String) (name : FileName) : Option String :=
  match stemAndExtension? name with
  | none => none
  | some (stem, found) => if found = Text.encode extension then Text.decode? stem else none

theorem textStem?_of_cut {name stem : FileName} {extension : String}
    (h : stemAndExtension? name = some (stem, Text.encode extension)) :
    textStem? extension name = Text.decode? stem := by
  simp [textStem?, h]

theorem textStem?_of_not_cut {name : FileName} {extension : String}
    (h : ∀ stem, stemAndExtension? name ≠ some (stem, Text.encode extension)) :
    textStem? extension name = none := by
  unfold textStem?
  split
  · rfl
  · next stem found hcut =>
    refine if_neg ?_
    rintro rfl
    exact h stem hcut

/-- A name has the stem that is put before the dot and the extension in it. -/
theorem textStem?_eq_some_iff {name : FileName} {stem extension : String} :
    textStem? extension name = some stem ↔
      stemAndExtension? name = some (Text.encode stem, Text.encode extension) := by
  constructor
  · intro h
    by_cases hcut : ∃ front, stemAndExtension? name = some (front, Text.encode extension)
    · obtain ⟨front, hcut⟩ := hcut
      rw [textStem?_of_cut hcut] at h
      rw [hcut, Text.eq_encode_of_decode? h]
    · rw [textStem?_of_not_cut (not_exists.mp hcut)] at h
      cases h
  · intro hcut
    rw [textStem?_of_cut hcut, Text.decode?_encode]

/-- Only the last dot counts, and one in first position does not. -/
example : stemAndExtension? (Text.encode "Ping.v2.cs") =
    some (Text.encode "Ping.v2", Text.encode "cs") := by decide

end FileName
end DocCoverage
