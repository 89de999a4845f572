import DocCoverage.Declaration

/-! # A source as gaps and declarations

Texts of declarations may nest and overlap: a value may hold the words that open another
declaration, and an attempt that fails may have a declaration inside it.  So it has to be
said which ones count.  A source is divided into declarations with gaps between them, so
that no declaration begins inside a gap (`Declaration.Divided`).  There is one way only to
do so (`Declaration.Divided.unique`), since at most one declaration stands at a place: its
parts are runs of characters of classes that have nothing in common, so none of them can end
sooner or later (`Declaration.read?_eq_some_iff`).  The scan finds the declarations of that
division (`Declaration.Divided.all_eq`): it leaves out the places where none begins, and goes
on behind what it has found. -/

namespace DocCoverage

/-! ## Runs of characters -/

namespace Text

/-- The code points of the blanks. -/
def blankNumbers : List Nat :=
  [0x09, 0x0a, 0x0b, 0x0c, 0x0d, 0x20, 0x85, 0xa0, 0x1680, 0x2000, 0x2001, 0x2002, 0x2003, 0x2004,
    0x2005, 0x2006, 0x2007, 0x2008, 0x2009, 0x200a, 0x2028, 0x2029, 0x202f, 0x205f, 0x3000]

theorem mem_blankNumbers_of_isBlank {c : Char} (h : isBlank c = true) : c.toNat ∈ blankNumbers := by
  simp only [isBlank, Bool.or_eq_true, Bool.and_eq_true, decide_eq_true_eq, beq_iff_eq] at h
  simp only [blankNumbers, List.mem_cons, List.not_mem_nil, or_false]
  omega

/-- **A blank is no part of a word.** -/
theorem isWord_of_isBlank {c : Char} (h : isBlank c = true) : isWord c = false := by
  have hnone : ∀ n ∈ blankNumbers, inRanges n wordRanges = false := by decide +kernel
  exact hnone _ (mem_blankNumbers_of_isBlank h)

/-- A run of characters of a class ends where a character of another class follows, or
nothing. -/
theorem run_ends {p : Char → Bool} {run rest : List Char} (hrun : ∀ c ∈ run, p c = true)
    (hrest : ∀ c, rest.head? = some c → p c = false) :
    (run ++ rest).takeWhile p = run ∧ (run ++ rest).dropWhile p = rest := by
  rw [List.takeWhile_append_of_pos hrun, List.dropWhile_append_of_pos hrun]
  cases rest with
  | nil => simp
  | cons c rest => simp [hrest c rfl]

theorem run_ends_cons {p : Char → Bool} {run : List Char} {c : Char} (rest : List Char)
    (hrun : ∀ c ∈ run, p c = true) (hc : p c = false) :
    (run ++ c :: rest).takeWhile p = run ∧ (run ++ c :: rest).dropWhile p = c :: rest := by
  refine run_ends hrun fun d hd => ?_
  obtain rfl := Option.some.inj hd
  exact hc

theorem forall_mem_takeWhile (p : Char → Bool) (s : List Char) : ∀ c ∈ s.takeWhile p, p c = true :=
  List.all_eq_true.mp List.all_takeWhile

end Text

open Text

namespace Declaration

/-! ## One declaration at a place -/

/-- Blanks and an equals sign, which follow a name, do not begin with a part of a word. -/
theorem isWord_head?_of_blank {blanks : List Char} (h : ∀ c ∈ blanks, isBlank c = true)
    (rest : List Char) : ∀ c, (blanks ++ '=' :: rest).head? = some c → isWord c = false := by
  intro c hc
  cases blanks with
  | nil =>
    obtain rfl := Option.some.inj hc
    decide
  | cons b blanks =>
    obtain rfl := Option.some.inj hc
    exact isWord_of_isBlank (h _ List.mem_cons_self)

/-- **What is written is read**, whatever follows it. -/
theorem read?_written {d : Declaration} (h : d.WellFormed) (rest : List Char) :
    read? (d.written ++ rest) = some (d, rest) := by
  have hwritten : d.written ++ rest = opening ++ (d.name ++ (d.before ++
      '=' :: (d.after ++ '"' :: (d.value ++ '"' :: ';' :: rest)))) := by
    simp [written]
  have hplain : ∀ c ∈ d.value, (c != '"') = true := by
    intro c hc
    rw [bne_iff_ne]
    rintro rfl
    exact h.value_plain hc
  have hname := run_ends h.name_word (isWord_head?_of_blank h.before_blank
    (d.after ++ '"' :: (d.value ++ '"' :: ';' :: rest)))
  have hbefore := run_ends_cons (d.after ++ '"' :: (d.value ++ '"' :: ';' :: rest))
    h.before_blank (by decide : isBlank '=' = false)
  have hafter := run_ends_cons (d.value ++ '"' :: ';' :: rest)
    h.after_blank (by decide : isBlank '"' = false)
  have hvalue := run_ends_cons (';' :: rest) hplain (by decide : ('"' != '"') = false)
  rw [hwritten, read?, behind?_eq_some_iff.mpr rfl]
  simp only [Option.bind_eq_bind, Option.bind_some, hname, hbefore, hafter, hvalue, h.name_ne,
    h.value_ne, or_self, if_false]

/-- What is read is a declaration. -/
theorem wellFormed_of_read? {s rest : List Char} {d : Declaration}
    (h : read? s = some (d, rest)) : d.WellFormed := by
  simp only [read?, Option.bind_eq_bind, Option.bind_eq_some_iff] at h
  obtain ⟨named, -, h⟩ := h
  -- the equals sign, the quotation mark, the end, and two parts that must not be empty
  split at h
  · next blanks _ =>
    split at h
    · next quoted _ =>
      split at h
      · split at h
        · cases h
        · next hne =>
          obtain ⟨rfl, -⟩ := Prod.mk.inj (Option.some.inj h)
          obtain ⟨hname, hvalue⟩ := not_or.mp hne
          exact {
            name_ne := hname
            name_word := forall_mem_takeWhile isWord named
            before_blank := forall_mem_takeWhile isBlank _
            after_blank := forall_mem_takeWhile isBlank blanks
            value_ne := hvalue
            value_plain := fun hmem =>
              absurd (forall_mem_takeWhile (· != '"') quoted '"' hmem) (by decide) }
      · cases h
    · cases h
  · cases h

/-- **At most one declaration stands at a place**, and it is the one that is read there. -/
theorem read?_eq_some_iff {s rest : List Char} {d : Declaration} :
    read? s = some (d, rest) ↔ d.WellFormed ∧ s = d.written ++ rest := by
  constructor
  · intro h
    exact ⟨wellFormed_of_read? h, eq_written_of_read? h⟩
  · rintro ⟨hd, rfl⟩
    exact read?_written hd rest

/-- A declaration stands at the head of the text. -/
def Begins (s : List Char) : Prop :=
  ∃ (d : Declaration) (rest : List Char), d.WellFormed ∧ s = d.written ++ rest

theorem WellFormed.begins {d : Declaration} (h : d.WellFormed) (rest : List Char) :
    Begins (d.written ++ rest) :=
  ⟨d, rest, h, rfl⟩

theorem read?_eq_none_iff {s : List Char} : read? s = none ↔ ¬Begins s := by
  rw [Option.eq_none_iff_forall_ne_some]
  constructor
  · rintro h ⟨d, rest, hd, hs⟩
    exact h (d, rest) (read?_eq_some_iff.mpr ⟨hd, hs⟩)
  · rintro h ⟨d, rest⟩ hread
    obtain ⟨hd, hs⟩ := read?_eq_some_iff.mp hread
    exact h ⟨d, rest, hd, hs⟩

theorem written_ne_nil (d : Declaration) : d.written ≠ [] := by
  simp [written]

/-! ## Gaps -/

/-- No declaration begins inside the gap, with what follows it. -/
def Gap (gap behind : List Char) : Prop :=
  ∀ before rest, gap = before ++ rest → rest ≠ [] → ¬Begins (rest ++ behind)

theorem gap_nil (behind : List Char) : Gap [] behind := by
  intro before rest hsplit hrest
  obtain ⟨-, rfl⟩ := List.append_eq_nil_iff.mp hsplit.symm
  exact absurd rfl hrest

theorem gap_cons_iff {c : Char} {gap behind : List Char} :
    Gap (c :: gap) behind ↔ ¬Begins (c :: (gap ++ behind)) ∧ Gap gap behind := by
  constructor
  · intro h
    refine ⟨h [] (c :: gap) rfl (by simp), ?_⟩
    rintro before rest rfl hrest
    exact h (c :: before) rest rfl hrest
  · rintro ⟨hhead, hgap⟩ before rest hsplit hrest
    cases before with
    | nil =>
      obtain rfl : c :: gap = rest := hsplit
      exact hhead
    | cons b before =>
      obtain ⟨-, rfl⟩ := List.cons.inj hsplit
      exact hgap before rest rfl hrest

/-- **No declaration begins before a gap ends.** -/
theorem Gap.length_le {gap behind before rest : List Char} (hgap : Gap gap behind)
    (hrest : Begins rest) (heq : gap ++ behind = before ++ rest) :
    gap.length ≤ before.length := by
  rcases List.append_eq_append_iff.mp heq with ⟨more, rfl, -⟩ | ⟨inside, rfl, rfl⟩
  · simp
  · cases inside with
    | nil => simp
    | cons c inside => exact absurd hrest (hgap before (c :: inside) rfl (by simp))

/-! ## Divisions -/

/-- The text is made of gaps and declarations in turn: each gap with the declaration behind
it, and a last gap. -/
inductive Divided : List Char → List (List Char × Declaration) → List Char → Prop
  | last {gap : List Char} (hgap : Gap gap []) : Divided gap [] gap
  | next {gap rest last : List Char} {d : Declaration} {parts : List (List Char × Declaration)}
      (hgap : Gap gap (d.written ++ rest)) (hd : d.WellFormed) (h : Divided rest parts last) :
      Divided (gap ++ (d.written ++ rest)) ((gap, d) :: parts) last

/-- **A text is divided in one way only.**  Of two divisions neither has its first declaration
before that of the other one, and at one place there is one declaration. -/
theorem Divided.unique {s last last' : List Char} {parts parts' : List (List Char × Declaration)}
    (h : Divided s parts last) (h' : Divided s parts' last') : parts = parts' ∧ last = last' := by
  induction h generalizing parts' last' with
  | @last gap hgap =>
    cases h' with
    | last => exact ⟨rfl, rfl⟩
    | @next gap' rest' _ d' _ hgap' hd' _ =>
      -- the other division has a declaration where this one has none
      have hle := Gap.length_le hgap (hd'.begins rest') (List.append_nil _)
      have hwritten := List.length_pos_iff.mpr d'.written_ne_nil
      simp only [List.length_append] at hle
      omega
  | @next gap rest last d parts hgap hd _ ih =>
    generalize hs : gap ++ (d.written ++ rest) = s at h'
    cases h' with
    | last hgap' =>
      have hle := Gap.length_le hgap' (hd.begins rest) (by rw [List.append_nil, hs])
      have hwritten := List.length_pos_iff.mpr d.written_ne_nil
      simp only [← hs, List.length_append] at hle
      omega
    | @next gap' rest' _ d' parts' hgap' hd' hrest' =>
      have hlength := Nat.le_antisymm (Gap.length_le hgap (hd'.begins rest') hs)
        (Gap.length_le hgap' (hd.begins rest) hs.symm)
      obtain ⟨rfl, hbehind⟩ := List.append_inj hs hlength
      have hread := read?_written hd rest
      rw [hbehind, read?_written hd' rest'] at hread
      obtain ⟨rfl, rfl⟩ := Prod.mk.inj (Option.some.inj hread)
      obtain ⟨rfl, rfl⟩ := ih hrest'
      exact ⟨rfl, rfl⟩

/-- A character with which no declaration begins widens the first gap. -/
theorem Divided.exists_cons {c : Char} {s last : List Char}
    {parts : List (List Char × Declaration)} (hc : ¬Begins (c :: s)) (h : Divided s parts last) :
    ∃ parts' last', Divided (c :: s) parts' last' := by
  cases h with
  | last hgap =>
    refine ⟨[], c :: s, .last (gap_cons_iff.mpr ⟨?_, hgap⟩)⟩
    rwa [List.append_nil]
  | @next gap rest _ d parts hgap hd hrest =>
    exact ⟨(c :: gap, d) :: parts, last, .next (gap_cons_iff.mpr ⟨hc, hgap⟩) hd hrest⟩

/-- **Every text can be divided.** -/
theorem exists_divided (s : List Char) : ∃ parts last, Divided s parts last := by
  fun_induction all s with
  | case1 s d rest hread ih =>
    obtain ⟨parts, last, hrest⟩ := ih
    obtain ⟨hd, rfl⟩ := read?_eq_some_iff.mp hread
    exact ⟨([], d) :: parts, last, .next (gap_nil _) hd hrest⟩
  | case2 hread => exact ⟨[], [], .last (gap_nil [])⟩
  | case3 c rest hread ih =>
    obtain ⟨parts, last, hrest⟩ := ih
    exact hrest.exists_cons (read?_eq_none_iff.mp hread)

/-! ## The scan -/

theorem all_of_begins {d : Declaration} (h : d.WellFormed) (rest : List Char) :
    all (d.written ++ rest) = d :: all rest := by
  rw [all]
  split
  · next d' rest' hread =>
    rw [read?_written h rest] at hread
    obtain ⟨rfl, rfl⟩ := Prod.mk.inj (Option.some.inj hread)
    rfl
  · next hnone =>
    rw [read?_written h rest] at hnone
    cases hnone

/-- A scan leaves out a gap. -/
theorem all_of_gap {gap behind : List Char} (h : Gap gap behind) :
    all (gap ++ behind) = all behind := by
  induction gap with
  | nil => rfl
  | cons c gap ih =>
    obtain ⟨hc, hgap⟩ := gap_cons_iff.mp h
    rw [List.cons_append, all]
    split
    · next hread =>
      rw [read?_eq_none_iff.mpr hc] at hread
      cases hread
    · exact ih hgap

theorem all_nil : all [] = [] := by
  rw [all]
  split
  · next d rest hread =>
    obtain ⟨-, hwritten⟩ := read?_eq_some_iff.mp hread
    simp [written_ne_nil] at hwritten
  · rfl

/-- **A scan finds the declarations of the division**, in order. -/
theorem Divided.all_eq {s last : List Char} {parts : List (List Char × Declaration)}
    (h : Divided s parts last) : all s = parts.map Prod.snd := by
  induction h with
  | @last gap hgap =>
    have hall := all_of_gap hgap
    rwa [List.append_nil, all_nil] at hall
  | next hgap hd _ ih => rw [all_of_gap hgap, all_of_begins hd, ih, List.map_cons]

/-- A scan finds declarations only. -/
theorem wellFormed_of_mem_all {s : List Char} {d : Declaration} (h : d ∈ all s) :
    d.WellFormed := by
  fun_induction all s with
  | case1 s first rest hread ih =>
    rcases List.mem_cons.mp h with rfl | h
    · exact wellFormed_of_read? hread
    · exact ih h
  | case2 => exact absurd h List.not_mem_nil
  | case3 c rest hread ih => exact ih h

end Declaration

/-- The declared names that begin so are those of the declarations that are found. -/
theorem mem_declaredNames {source beginning name : String} :
    name ∈ declaredNames source beginning ↔
      (∃ d ∈ Declaration.all source.toList, d.name = name.toList) ∧
        beginning.toList <+: name.toList := by
  rw [declaredNames, Identifiers.mem_ofList, List.mem_filterMap]
  constructor
  · rintro ⟨d, hd, hname⟩
    split at hname
    · next hbeginning =>
      obtain rfl := Option.some.inj hname
      rw [String.toList_ofList]
      exact ⟨⟨d, hd, rfl⟩, List.isPrefixOf_iff_prefix.mp hbeginning⟩
    · cases hname
  · rintro ⟨⟨d, hd, hname⟩, hbeginning⟩
    refine ⟨d, hd, ?_⟩
    rw [hname, if_pos (List.isPrefixOf_iff_prefix.mpr hbeginning), String.ofList_toList]

namespace Declaration

/-- **The declared names are those of the one division of the source.**  Every source is
made of declarations and gaps between them, no declaration begins at any place inside a gap,
and that determines the gaps and the declarations.  The names that are declared in it with a
given beginning are, each once and in order, exactly those of these declarations that begin
so. -/
theorem declared_by_unique_division (source : String) :
    ∃ parts last, Divided source.toList parts last ∧
      (∀ parts' last', Divided source.toList parts' last' → parts' = parts ∧ last' = last) ∧
      ∀ beginning : String,
        (declaredNames source beginning).Pairwise (· < ·) ∧
        ∀ name, name ∈ declaredNames source beginning ↔
          (∃ part ∈ parts, part.2.name = name.toList) ∧ beginning.toList <+: name.toList := by
  obtain ⟨parts, last, hdivided⟩ := exists_divided source.toList
  refine ⟨parts, last, hdivided, fun _ _ h => h.unique hdivided, fun beginning => ⟨?_, ?_⟩⟩
  · exact Identifiers.ascending_ofList _
  · intro name
    rw [mem_declaredNames, hdivided.all_eq]
    refine and_congr_left fun _ => ⟨?_, ?_⟩
    · rintro ⟨d, hd, hname⟩
      obtain ⟨part, hpart, rfl⟩ := List.mem_map.mp hd
      exact ⟨part, hpart, hname⟩
    · rintro ⟨part, hpart, hname⟩
      exact ⟨part.2, List.mem_map_of_mem hpart, hname⟩

end Declaration
end DocCoverage
