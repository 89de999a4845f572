import DocCoverage.Proofs.Declarations

/-! # Reading written declarations back

Whoever writes a source writes declarations with other text between them.  The scan has to
find these declarations again and no others, although it is not told where they begin.  A
value may hold the text of a declaration, but the scan goes on behind it.  A gap may end in the
first words of a declaration; still none begins there, because the opening words begin with a
letter that comes only once in them, so what is left of them cannot be the beginning of the
declaration that follows (`opening_within_of_append`).  So the written gaps and declarations
are the division of the source (`divided_rendered`), and the scan finds that division. -/

namespace DocCoverage

open Text

namespace Declaration

/-- A source made of declarations, each with the gap before it, and a last gap. -/
def rendered (parts : List (List Char × Declaration)) (last : List Char) : List Char :=
  parts.foldr (fun part rest => part.1 ++ (part.2.written ++ rest)) last

/-- The opening words do not begin again inside themselves. -/
theorem head?_opening_notMem_tail : 'p' ∉ opening.tail := by decide

/-- **Opening words do not begin before other opening words.**  If they begin before a place
where they stand as well, they end before it. -/
theorem opening_within_of_append {before rest behind : List Char} (hbefore : before ≠ [])
    (h : before ++ (opening ++ rest) = opening ++ behind) : opening <:+: before := by
  rcases List.append_eq_append_iff.mp h with ⟨left, hopening, hrest⟩ | ⟨more, rfl, -⟩
  · -- the second opening would begin inside the first one
    cases left with
    | nil =>
      obtain rfl : before = opening := by rw [hopening, List.append_nil]
      exact List.infix_refl opening
    | cons c left =>
      obtain ⟨b, before, rfl⟩ := List.exists_cons_of_ne_nil hbefore
      have hhead : c = 'p' := by
        have hcons : opening ++ rest = 'p' :: (opening.tail ++ rest) := rfl
        rw [hcons, List.cons_append] at hrest
        exact (List.cons.inj hrest).1.symm
      have htail : c ∈ opening.tail := by
        rw [hopening, List.cons_append, List.tail_cons]
        exact List.mem_append_right _ List.mem_cons_self
      exact absurd (hhead ▸ htail) head?_opening_notMem_tail
  · exact (List.prefix_append opening more).isInfix

/-- A declaration begins with the opening words. -/
theorem opening_prefix_written (d : Declaration) : opening <+: d.written :=
  ⟨d.name ++ (d.before ++ '=' :: (d.after ++ '"' :: (d.value ++ ['"', ';']))), by simp [written]⟩

theorem Begins.exists_opening {s : List Char} (h : Begins s) : ∃ behind, s = opening ++ behind := by
  obtain ⟨d, rest, -, rfl⟩ := h
  obtain ⟨behind, hbehind⟩ := d.opening_prefix_written.trans (List.prefix_append d.written rest)
  exact ⟨behind, hbehind.symm⟩

/-- Text without the opening words is a gap in front of a declaration. -/
theorem gap_without_opening {gap : List Char} (hgap : ¬opening <:+: gap) (d : Declaration)
    (rest : List Char) : Gap gap (d.written ++ rest) := by
  rintro before inside rfl hinside hbegins
  obtain ⟨behind, hbehind⟩ := hbegins.exists_opening
  obtain ⟨more, hmore⟩ := d.opening_prefix_written
  rw [← hmore, List.append_assoc] at hbehind
  have hopening := opening_within_of_append hinside hbehind
  exact hgap (hopening.trans (List.suffix_append before inside).isInfix)

/-- Text without the opening words is a gap at the end of a source. -/
theorem gap_without_opening_last {gap : List Char} (hgap : ¬opening <:+: gap) : Gap gap [] := by
  rintro before inside rfl - hbegins
  obtain ⟨behind, hbehind⟩ := hbegins.exists_opening
  rw [List.append_nil] at hbehind
  exact hgap ⟨before, behind, by rw [hbehind, List.append_assoc]⟩

/-- **A source is divided as it was written.** -/
theorem divided_rendered {parts : List (List Char × Declaration)} {last : List Char}
    (hwritten : ∀ part ∈ parts, part.2.WellFormed ∧ ¬opening <:+: part.1)
    (hlast : ¬opening <:+: last) : Divided (rendered parts last) parts last := by
  induction parts with
  | nil => exact .last (gap_without_opening_last hlast)
  | cons part parts ih =>
    obtain ⟨⟨hd, hgap⟩, hparts⟩ := List.forall_mem_cons.mp hwritten
    exact .next (gap_without_opening hgap part.2 (rendered parts last)) hd (ih hparts)

/-- **Written declarations are read back.**  In a source that is made of declarations, with
text between them in which the opening words do not stand, the scan finds these declarations in
their order, each with its name, its blanks and its value.  So the names that are declared
with a given beginning are, once each and in order, exactly those of the written ones that
begin so: no name is lost, and none is found in a value or in the text between. -/
theorem rendered_declarations_read_back (parts : List (List Char × Declaration))
    (last : List Char) (hwritten : ∀ part ∈ parts, part.2.WellFormed ∧ ¬opening <:+: part.1)
    (hlast : ¬opening <:+: last) :
    all (rendered parts last) = parts.map Prod.snd ∧
      ∀ beginning : String,
        (declaredNames (String.ofList (rendered parts last)) beginning).Pairwise (· < ·) ∧
        ∀ name, name ∈ declaredNames (String.ofList (rendered parts last)) beginning ↔
          (∃ part ∈ parts, part.2.name = name.toList) ∧ beginning.toList <+: name.toList := by
  have hall : all (rendered parts last) = parts.map Prod.snd :=
    (divided_rendered hwritten hlast).all_eq
  refine ⟨hall, fun beginning => ⟨Identifiers.ascending_ofList _, fun name => ?_⟩⟩
  rw [mem_declaredNames, String.toList_ofList, hall]
  refine and_congr_left fun _ => ⟨?_, ?_⟩
  · rintro ⟨d, hd, hname⟩
    obtain ⟨part, hpart, rfl⟩ := List.mem_map.mp hd
    exact ⟨part, hpart, hname⟩
  · rintro ⟨part, hpart, hname⟩
    exact ⟨part.2, List.mem_map_of_mem hpart, hname⟩

/-- A policy whose value holds the text of another declaration. -/
def editPolicy : Declaration where
  name := "CanEdit".toList
  before := [' ']
  after := ['\n', '\t']
  value := "public const string CanHide =".toList

theorem editPolicy_wellFormed : editPolicy.WellFormed where
  name_ne := by decide
  name_word := List.all_eq_true.mp (by decide +kernel : editPolicy.name.all isWord = true)
  before_blank := List.all_eq_true.mp (by decide : editPolicy.before.all isBlank = true)
  after_blank := List.all_eq_true.mp (by decide : editPolicy.after.all isBlank = true)
  value_ne := by decide
  value_plain := by decide +kernel

/-- The value declares nothing, and neither do the words that are cut off before it. -/
theorem hidden_not_declared :
    (∀ part ∈ [("public const ".toList, editPolicy), ([], editPolicy)],
      part.2.WellFormed ∧ ¬opening <:+: part.1) ∧ ¬opening <:+: "\n\x7d".toList ∧
      declaredNames (String.ofList (rendered [("public const ".toList, editPolicy),
        ([], editPolicy)] "\n\x7d".toList)) "Can" = ["CanEdit"] := by
  have hgap : ¬opening <:+: "public const ".toList := by decide +kernel
  have hempty : ¬opening <:+: [] := by decide +kernel
  have hlast : ¬opening <:+: "\n\x7d".toList := by decide +kernel
  have hwritten : ∀ part ∈ [("public const ".toList, editPolicy), ([], editPolicy)],
      part.2.WellFormed ∧ ¬opening <:+: part.1 :=
    List.forall_mem_cons.mpr ⟨⟨editPolicy_wellFormed, hgap⟩,
      List.forall_mem_singleton.mpr ⟨editPolicy_wellFormed, hempty⟩⟩
  refine ⟨hwritten, hlast, ?_⟩
  obtain ⟨-, hnames⟩ := rendered_declarations_read_back _ _ hwritten hlast
  obtain ⟨hascending, hmem⟩ := hnames "Can"
  refine Identifiers.eq_of_ascending hascending (List.pairwise_singleton _ _) fun name => ?_
  rw [hmem, List.mem_singleton]
  constructor
  · rintro ⟨⟨part, hpart, hname⟩, -⟩
    have hpolicy : part.2 = editPolicy := by
      rcases List.mem_cons.mp hpart with rfl | hpart
      · rfl
      · rw [List.mem_singleton.mp hpart]
    rw [hpolicy] at hname
    exact String.toList_inj.mp hname.symm
  · rintro rfl
    exact ⟨⟨_, List.mem_cons_self, rfl⟩, by decide +kernel⟩

end Declaration
end DocCoverage
