/-!
Sets of identifiers as ascending lists without repetition, in the order of their code points. The
order is that of the rows an inventory prints, so a set is printed by printing its list. The list is
determined by the names in it (`eq_of_ascending`): how often and in which order they were found does not
show.
-/

namespace DocCoverage.Identifiers

/-- Adds an identifier to an ascending list; one that is there already is not repeated. -/
def insert (x : String) : List String → List String
  | [] => [x]
  | y :: rest =>
    if x < y then x :: y :: rest else if x = y then y :: rest else y :: insert x rest

/-- The ascending list of the given names. -/
def ofList (names : List String) : List String :=
  names.foldr insert []

/-- The ascending list of the names of both lists. -/
def union (xs ys : List String) : List String :=
  xs.foldr insert ys

/-- Inserting a name adds it and keeps all others. -/
@[simp]
theorem mem_insert {x y : String} {names : List String} :
    y ∈ insert x names ↔ y = x ∨ y ∈ names := by
  induction names with
  | nil => simp [insert]
  | cons z rest ih =>
    simp only [insert]
    split
    · simp
    · split
      · next h => simp [h]
      · simp only [List.mem_cons, ih]
        constructor
        · rintro (h | h | h) <;> simp [h]
        · rintro (h | h | h) <;> simp [h]

/-- A set has the names it was made of. -/
@[simp]
theorem mem_ofList {y : String} {names : List String} : y ∈ ofList names ↔ y ∈ names := by
  unfold ofList
  induction names with
  | nil => simp
  | cons x rest ih => simp [ih]

/-- A union has the names of both sets. -/
@[simp]
theorem mem_union {y : String} {xs ys : List String} : y ∈ union xs ys ↔ y ∈ xs ∨ y ∈ ys := by
  unfold union
  induction xs with
  | nil => simp
  | cons x rest ih => simp [ih, or_assoc]

/-- Of two names that differ one comes first. -/
theorem lt_of_not_lt_of_ne {x y : String} (h : ¬x < y) (hne : x ≠ y) : y < x := by
  by_cases hyx : y < x
  · exact hyx
  · exact absurd (String.le_antisymm (String.not_lt.mp hyx) (String.not_lt.mp h)) hne

/-- Inserting keeps a list ascending. -/
theorem ascending_insert {x : String} {names : List String} (h : names.Pairwise (· < ·)) :
    (insert x names).Pairwise (· < ·) := by
  induction names with
  | nil => simp [insert]
  | cons y rest ih =>
    obtain ⟨least, tail⟩ := List.pairwise_cons.mp h
    simp only [insert]
    split
    · next hxy =>
      refine List.pairwise_cons.mpr ⟨?_, h⟩
      intro z hz
      rcases List.mem_cons.mp hz with rfl | hz
      · exact hxy
      · exact String.lt_trans hxy (least z hz)
    · next hxy =>
      split
      · exact h
      · next hne =>
        refine List.pairwise_cons.mpr ⟨?_, ih tail⟩
        intro z hz
        rcases mem_insert.mp hz with rfl | hz
        · exact lt_of_not_lt_of_ne hxy hne
        · exact least z hz

/-- A set of names is ascending, so it holds none twice. -/
theorem ascending_ofList (names : List String) : (ofList names).Pairwise (· < ·) := by
  unfold ofList
  induction names with
  | nil => exact List.Pairwise.nil
  | cons x rest ih => exact ascending_insert ih

/-- A union is ascending if its second set is. -/
theorem ascending_union {ys : List String} (xs : List String) (h : ys.Pairwise (· < ·)) :
    (union xs ys).Pairwise (· < ·) := by
  unfold union
  induction xs with
  | nil => exact h
  | cons x rest ih => exact ascending_insert ih

/-- An ascending list is determined by its members. -/
theorem eq_of_ascending {xs ys : List String} (hx : xs.Pairwise (· < ·))
    (hy : ys.Pairwise (· < ·)) (h : ∀ z, z ∈ xs ↔ z ∈ ys) : xs = ys := by
  induction xs generalizing ys with
  | nil =>
    cases ys with
    | nil => rfl
    | cons y ys => exact absurd ((h y).mpr (List.mem_cons_self)) (List.not_mem_nil)
  | cons x xs ih =>
    cases ys with
    | nil => exact absurd ((h x).mp (List.mem_cons_self)) (List.not_mem_nil)
    | cons y ys =>
      obtain ⟨leastX, tailX⟩ := List.pairwise_cons.mp hx
      obtain ⟨leastY, tailY⟩ := List.pairwise_cons.mp hy
      have hxy : x = y := by
        rcases List.mem_cons.mp ((h x).mp List.mem_cons_self) with e | hx'
        · exact e
        · rcases List.mem_cons.mp ((h y).mpr List.mem_cons_self) with e | hy'
          · exact e.symm
          · exact absurd (leastX y hy') (String.lt_asymm (leastY x hx'))
      subst hxy
      have hrest : xs = ys := by
        refine ih tailX tailY fun z => ?_
        constructor
        · intro hz
          rcases List.mem_cons.mp ((h z).mp (List.mem_cons_of_mem _ hz)) with rfl | hz'
          · exact absurd (leastX z hz) (String.lt_irrefl z)
          · exact hz'
        · intro hz
          rcases List.mem_cons.mp ((h z).mpr (List.mem_cons_of_mem _ hz)) with rfl | hz'
          · exact absurd (leastY z hz) (String.lt_irrefl z)
          · exact hz'
      rw [hrest]

/-- A set is determined by the names that it is made of. -/
theorem ofList_eq_of_mem_iff {xs ys : List String} (h : ∀ x, x ∈ xs ↔ x ∈ ys) :
    ofList xs = ofList ys := by
  refine eq_of_ascending (ascending_ofList xs) (ascending_ofList ys) fun x => ?_
  rw [mem_ofList, mem_ofList, h]

end DocCoverage.Identifiers
