import DocCoverage.Mention

/-! # Where a text mentions an identifier

The search tries every place in turn and looks at two neighbours at each.  Seen from
outside it decides whether the text splits into a part before the identifier, the
identifier and a part behind it, with a boundary at both seams (`mentions_iff`).  All
that is said about mentions rests on this.  From it follow the two ways in which the
rest of a text matters: a neighbour of no word beside a part of the text, such as a line
feed, changes nothing for that part (`occurs_of_part`), and nothing that is mentioned
reaches across enough line feeds (`occurs_of_gap`). -/

namespace DocCoverage

open Text

/-- The text splits into `before`, the token and `behind`, with a boundary at both seams. -/
structure OccursBetween (token text before behind : List Char) : Prop where
  split : text = before ++ token ++ behind
  opens : isBoundary before.getLast? (token ++ behind).head? = true
  closes : isBoundary (before ++ token).getLast? behind.head? = true

/-- The token stands somewhere in the text with a boundary at both ends. -/
def Occurs (token text : List Char) : Prop :=
  ∃ before behind, OccursBetween token text before behind

/-- A character that has been read is the left neighbour of what follows. -/
theorem getLast?_cons_or (c : Char) (read : List Char) (left : Option Char) :
    (c :: read).getLast?.or left = read.getLast?.or (some c) := by
  rw [List.getLast?_cons]
  cases read.getLast? <;> rfl

theorem standsBounded_iff {token rest : List Char} {left : Option Char} :
    standsBounded token left rest = true ↔
      ∃ behind, rest = token ++ behind ∧ isBoundary left (token ++ behind).head? = true ∧
        isBoundary (token.getLast?.or left) behind.head? = true := by
  simp only [standsBounded, lastOr, Bool.and_eq_true, List.isPrefixOf_iff_prefix]
  constructor
  · rintro ⟨⟨⟨behind, rfl⟩, hopens⟩, hcloses⟩
    exact ⟨behind, rfl, hopens, by simpa using hcloses⟩
  · rintro ⟨behind, rfl, hopens, hcloses⟩
    exact ⟨⟨⟨behind, rfl⟩, hopens⟩, by simpa using hcloses⟩

/-- The search behind a left neighbour, as a split of what it searches. -/
theorem standsIn_iff {token rest : List Char} {left : Option Char} :
    standsIn token left rest = true ↔
      ∃ before behind, rest = before ++ token ++ behind ∧
        isBoundary (before.getLast?.or left) (token ++ behind).head? = true ∧
        isBoundary ((before ++ token).getLast?.or left) behind.head? = true := by
  induction rest generalizing left with
  | nil =>
    rw [standsIn, standsBounded_iff]
    constructor
    · rintro ⟨behind, hrest, hopens, hcloses⟩
      exact ⟨[], behind, hrest, hopens, hcloses⟩
    · rintro ⟨before, behind, hrest, hopens, hcloses⟩
      obtain ⟨rfl, rfl, rfl⟩ : before = [] ∧ token = [] ∧ behind = [] := by
        simpa using hrest.symm
      exact ⟨[], rfl, hopens, hcloses⟩
  | cons c rest ih =>
    rw [standsIn, Bool.or_eq_true, standsBounded_iff, ih]
    constructor
    · rintro (⟨behind, hrest, hopens, hcloses⟩ | ⟨before, behind, rfl, hopens, hcloses⟩)
      · exact ⟨[], behind, hrest, hopens, hcloses⟩
      · refine ⟨c :: before, behind, rfl, ?_, ?_⟩
        · rwa [getLast?_cons_or]
        · rwa [List.cons_append, getLast?_cons_or]
    · rintro ⟨before, behind, hrest, hopens, hcloses⟩
      cases before with
      | nil => exact Or.inl ⟨behind, hrest, hopens, hcloses⟩
      | cons d before =>
        obtain ⟨rfl, rfl⟩ : c = d ∧ rest = before ++ token ++ behind := by simpa using hrest
        rw [getLast?_cons_or] at hopens
        rw [List.cons_append, getLast?_cons_or] at hcloses
        exact Or.inr ⟨before, behind, rfl, hopens, hcloses⟩

/-- A text mentions an identifier exactly where the identifier occurs. -/
theorem mentions_iff {text identifier : String} :
    mentions text identifier = true ↔ Occurs identifier.toList text.toList := by
  rw [mentions, standsIn_iff]
  simp only [Option.or_none]
  constructor
  · rintro ⟨before, behind, hsplit, hopens, hcloses⟩
    exact ⟨before, behind, hsplit, hopens, hcloses⟩
  · rintro ⟨before, behind, hsplit, hopens, hcloses⟩
    exact ⟨before, behind, hsplit, hopens, hcloses⟩

/-! ## Places in a text -/

/-- A word begins or ends at a place of the text. -/
def boundaryAt (text : List Char) (n : Nat) : Bool :=
  isBoundary (text.take n).getLast? (text.drop n).head?

theorem boundaryAt_length (before behind : List Char) :
    boundaryAt (before ++ behind) before.length = isBoundary before.getLast? behind.head? := by
  simp [boundaryAt]

/-- The token stands at a place of the text, and begins and ends at a boundary. -/
structure OccursAt (token text : List Char) (n : Nat) : Prop where
  stands : token <+: text.drop n
  le : n ≤ text.length
  opens : boundaryAt text n = true
  closes : boundaryAt text (n + token.length) = true

/-- A token occurs where it begins and ends at a boundary. -/
theorem occurs_iff_occursAt {token text : List Char} :
    Occurs token text ↔ ∃ n, OccursAt token text n := by
  constructor
  · rintro ⟨before, behind, rfl, hopens, hcloses⟩
    refine ⟨before.length, ⟨behind, by simp⟩, by simp, ?_, ?_⟩
    · rw [List.append_assoc, boundaryAt_length]
      exact hopens
    · rw [← List.length_append, boundaryAt_length]
      exact hcloses
  · rintro ⟨n, ⟨behind, hsplit⟩, hn, hopens, hcloses⟩
    have htext : text = text.take n ++ (token ++ behind) := by
      rw [hsplit, List.take_append_drop]
    have hlength : (text.take n).length = n := List.length_take_of_le hn
    refine ⟨text.take n, behind, by rw [List.append_assoc]; exact htext, ?_, ?_⟩
    · rw [boundaryAt, ← hsplit] at hopens
      exact hopens
    · rw [htext, ← List.append_assoc] at hcloses
      have hplace : n + token.length = (text.take n ++ token).length := by
        rw [List.length_append, hlength]
      rwa [hplace, boundaryAt_length] at hcloses

theorem OccursAt.end_le {token text : List Char} {n : Nat} (h : OccursAt token text n) :
    n + token.length ≤ text.length := by
  have hlength := h.stands.length_le
  have hle := h.le
  rw [List.length_drop] at hlength
  omega

/-! ## Neighbours of no word

A neighbour that belongs to no word counts as the end of the text does.  So a part of a text
can be looked at by itself when its neighbours are of that kind. -/

/-- A neighbour of no word that is added on the right changes no boundary. -/
theorem boundaryAt_append_left {text behind : List Char} {n : Nat} (hn : n ≤ text.length)
    (hright : isWordAt behind.head? = false) :
    boundaryAt (text ++ behind) n = boundaryAt text n := by
  have hhead : isWordAt ((text.drop n).head?.or behind.head?) = isWordAt (text.drop n).head? := by
    cases (text.drop n).head? with
    | none => exact hright
    | some c => rfl
  rw [boundaryAt, boundaryAt, isBoundary, isBoundary, List.take_append_of_le_length hn,
    List.drop_append_of_le_length hn, List.head?_append, hhead]

/-- A neighbour of no word that is added on the left moves the boundaries, and that is all. -/
theorem boundaryAt_append_right {before text : List Char}
    (hleft : isWordAt before.getLast? = false) (n : Nat) :
    boundaryAt (before ++ text) (before.length + n) = boundaryAt text n := by
  have hlast : isWordAt ((text.take n).getLast?.or before.getLast?) =
      isWordAt (text.take n).getLast? := by
    cases (text.take n).getLast? with
    | none => exact hleft
    | some c => rfl
  rw [boundaryAt, boundaryAt, isBoundary, isBoundary, List.take_length_add_append,
    List.drop_length_add_append, List.getLast?_append, hlast]

/-- A token that ends in the first part of a text occurs there as it does in that part. -/
theorem occursAt_append_left {token left behind : List Char} {n : Nat}
    (hright : isWordAt behind.head? = false) (hend : n + token.length ≤ left.length) :
    OccursAt token (left ++ behind) n ↔ OccursAt token left n := by
  have hn : n ≤ left.length := by omega
  have hstands : token <+: (left ++ behind).drop n ↔ token <+: left.drop n := by
    rw [List.drop_append_of_le_length hn]
    constructor
    · intro h
      refine List.prefix_of_prefix_length_le h (List.prefix_append _ _) ?_
      rw [List.length_drop]
      omega
    · intro h
      exact h.trans (List.prefix_append _ _)
  constructor
  · rintro ⟨h, -, hopens, hcloses⟩
    rw [boundaryAt_append_left hn hright] at hopens
    rw [boundaryAt_append_left hend hright] at hcloses
    exact ⟨hstands.mp h, hn, hopens, hcloses⟩
  · rintro ⟨h, -, hopens, hcloses⟩
    rw [← boundaryAt_append_left hn hright] at hopens
    rw [← boundaryAt_append_left hend hright] at hcloses
    exact ⟨hstands.mpr h, by rw [List.length_append]; omega, hopens, hcloses⟩

/-- A token that begins in the last part of a text occurs there as it does in that part. -/
theorem occursAt_append_right {token before right : List Char}
    (hleft : isWordAt before.getLast? = false) (n : Nat) :
    OccursAt token (before ++ right) (before.length + n) ↔ OccursAt token right n := by
  constructor
  · rintro ⟨h, hn, hopens, hcloses⟩
    rw [List.drop_length_add_append] at h
    rw [List.length_append] at hn
    rw [boundaryAt_append_right hleft] at hopens
    rw [Nat.add_assoc, boundaryAt_append_right hleft] at hcloses
    exact ⟨h, by omega, hopens, hcloses⟩
  · rintro ⟨h, hn, hopens, hcloses⟩
    refine ⟨?_, by rw [List.length_append]; omega, ?_, ?_⟩
    · rwa [List.drop_length_add_append]
    · rwa [boundaryAt_append_right hleft]
    · rwa [Nat.add_assoc, boundaryAt_append_right hleft]

/-- **What occurs in a part occurs in the text** when the neighbours of the part belong to no
word. -/
theorem occurs_of_part {token before part behind : List Char}
    (hleft : isWordAt before.getLast? = false) (hright : isWordAt behind.head? = false)
    (h : Occurs token part) : Occurs token (before ++ part ++ behind) := by
  obtain ⟨n, hat⟩ := occurs_iff_occursAt.mp h
  have hpart := (occursAt_append_left hright hat.end_le).mpr hat
  rw [List.append_assoc, occurs_iff_occursAt]
  exact ⟨before.length + n, (occursAt_append_right hleft n).mpr hpart⟩

/-! ## Line feeds -/

@[simp] theorem isWord_lineFeed : isWord '\n' = false := by decide

/-- A neighbour that is a line feed, or none at all. -/
def Clear (neighbour : Option Char) : Prop := neighbour = none ∨ neighbour = some '\n'

theorem isWordAt_of_clear {neighbour : Option Char} (h : Clear neighbour) :
    isWordAt neighbour = false := by
  rcases h with rfl | rfl <;> rfl

/-- A part of the text with only a line feed or the text's end on either side. -/
def StandsAlone (text part : List Char) : Prop :=
  ∃ before behind, text = before ++ part ++ behind ∧ Clear before.getLast? ∧ Clear behind.head?

/-- What occurs in a part that stands alone occurs in the text: the neighbours that the
part lacks are line feeds, and count the same. -/
theorem occurs_of_alone {token text part : List Char} (halone : StandsAlone text part)
    (h : Occurs token part) : Occurs token text := by
  obtain ⟨before, behind, rfl, hleft, hright⟩ := halone
  exact occurs_of_part (isWordAt_of_clear hleft) (isWordAt_of_clear hright) h

/-- **Nothing reaches across a wide gap.**  A token that is shorter than a run of line
feeds and occurs in the text around it occurs on one of its sides: inside the run there
is no boundary, so the token would have to begin and end outside. -/
theorem occurs_of_gap {token left right : List Char} {k : Nat} (hk : token.length < k)
    (h : Occurs token (left ++ (List.replicate k '\n' ++ right))) :
    Occurs token left ∨ Occurs token right := by
  obtain ⟨n, hat⟩ := occurs_iff_occursAt.mp h
  have hinside : ∀ m, left.length < m → m < left.length + k →
      boundaryAt (left ++ (List.replicate k '\n' ++ right)) m = false := by
    intro m hlow hhigh
    obtain ⟨i, rfl⟩ : ∃ i, m = left.length + (i + 1) := ⟨m - left.length - 1, by omega⟩
    obtain ⟨j, rfl⟩ : ∃ j, k = (i + 1) + (j + 1) := ⟨k - i - 2, by omega⟩
    rw [← List.replicate_append_replicate, List.append_assoc, ← List.append_assoc left]
    have hplace : left.length + (i + 1) = (left ++ List.replicate (i + 1) '\n').length := by simp
    rw [hplace, boundaryAt_length, isBoundary, List.getLast?_append, List.head?_append,
      List.getLast?_replicate, List.head?_replicate]
    simp
  by_cases hbefore : n + token.length ≤ left.length
  · -- the token ends before the gap
    have hgap : isWordAt (List.replicate k '\n' ++ right).head? = false := by
      cases k with
      | zero => omega
      | succ k => exact isWord_lineFeed
    exact .inl (occurs_iff_occursAt.mpr ⟨n, (occursAt_append_left hgap hbefore).mp hat⟩)
  · by_cases hbehind : left.length + k ≤ n
    · -- the token begins behind the gap
      obtain ⟨m, rfl⟩ : ∃ m, n = (left ++ List.replicate k '\n').length + m :=
        ⟨n - (left.length + k), by simp; omega⟩
      have hgap : isWordAt (left ++ List.replicate k '\n').getLast? = false := by
        rw [List.getLast?_append, List.getLast?_replicate, if_neg (by omega)]
        exact isWord_lineFeed
      rw [← List.append_assoc] at hat
      exact .inr (occurs_iff_occursAt.mpr ⟨m, (occursAt_append_right hgap m).mp hat⟩)
    · -- one of its ends lies inside
      by_cases hend : n + token.length < left.length + k
      · have hcloses := hat.closes
        rw [hinside _ (by omega) hend] at hcloses
        cases hcloses
      · have hopens := hat.opens
        rw [hinside n (by omega) (by omega)] at hopens
        cases hopens

/-- The first and the last character belong to words. -/
def WordEnded (identifier : List Char) : Prop :=
  isWordAt identifier.head? = true ∧ isWordAt identifier.getLast? = true

/-- An identifier mentions itself exactly when it begins and ends in a word. -/
theorem occurs_self_iff {identifier : List Char} :
    Occurs identifier identifier ↔ WordEnded identifier := by
  constructor
  · rintro ⟨before, behind, hsplit, hopens, hcloses⟩
    have hlength := congrArg List.length hsplit
    simp only [List.length_append] at hlength
    obtain rfl : before = [] := List.length_eq_zero_iff.mp (by omega)
    obtain rfl : behind = [] := List.length_eq_zero_iff.mp (by omega)
    simpa [isBoundary, WordEnded] using And.intro hopens hcloses
  · rintro ⟨hhead, hlast⟩
    exact ⟨[], [], by simp, by simp [isBoundary, hhead], by simp [isBoundary, hlast]⟩

end DocCoverage
