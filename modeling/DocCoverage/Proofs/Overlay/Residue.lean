import DocCoverage.Proofs.Overlay.Decoding

/-! # Every text that is read has entries

The grammar of `Document` was made to hold all of TOML, so it must be shown that the reader
accepts nothing else.  In each state of the reader the grammar says what has yet to come: the
rest of a line, of a list, or of a string with what may stand behind it (`Residual`).  One
character read takes one character off the front of that (`residual_step`), and where a text
may end nothing has yet to come (`residual_finish`).  So a text that is accepted from a state
is residual there, by induction on the text, and for the start of a text this is a document.
Nothing is said of what the entries mean, as `read?_of_document` says it for all of them. -/

namespace DocCoverage.Overlay

/-! ## More filling before a piece of a text -/

theorem isGap_cons {c : Char} {g : List Char} (hc : isGap c = true) (hg : IsGap g) :
    IsGap (c :: g) :=
  List.forall_mem_cons.mpr ⟨Reading.isGap_iff.mp hc, hg⟩

theorem isGap_append {g h : List Char} (hg : IsGap g) (hh : IsGap h) : IsGap (g ++ h) :=
  List.forall_mem_append.mpr ⟨hg, hh⟩

theorem filler_append {f h : List Char} (hf : Filler f) (hh : Filler h) : Filler (f ++ h) := by
  induction hf with
  | @gap g hg =>
    cases hh with
    | gap hh => exact .gap (isGap_append hg hh)
    | line hh hc hb hf =>
      have hline := Filler.line (isGap_append hg hh) hc hb hf
      simpa only [List.append_assoc] using hline
  | line hg hc hb hf ih =>
    rw [List.append_assoc]
    exact .line hg hc hb ih

theorem arrayText_filler {items : List Value} {f a : List Char} (hf : Filler f)
    (ha : ArrayText items a) : ArrayText items (f ++ a) := by
  cases ha with
  | close hh => exact List.append_assoc .. ▸ .close (filler_append hf hh)
  | last hh hs hg =>
    have hlast := ArrayText.last (filler_append hf hh) hs hg
    simpa only [List.append_assoc] using hlast
  | cons hh hs hg ht =>
    have hcons := ArrayText.cons (filler_append hf hh) hs hg ht
    simpa only [List.append_assoc] using hcons

theorem keyValueText_gap {entry : KeyValue} {g a : List Char} (hg : IsGap g)
    (ha : KeyValueText entry a) : KeyValueText entry (g ++ a) := by
  cases ha with
  | intro hgap hk hh hi hv =>
    have hentry := KeyValueText.intro (isGap_append hg hgap) hk hh hi hv
    simpa only [List.append_assoc] using hentry

theorem linesText_gap {entries : List KeyValue} {g t : List Char} (hg : IsGap g)
    (ht : LinesText entries t) : LinesText entries (g ++ t) := by
  cases ht with
  | done hh hc => exact List.append_assoc .. ▸ .done (isGap_append hg hh) hc
  | last ha hh hc =>
    have hlast := LinesText.last (keyValueText_gap hg ha) hh hc
    simpa only [List.append_assoc] using hlast
  | skip hh hc hb ht =>
    have hskip := LinesText.skip (isGap_append hg hh) hc hb ht
    simpa only [List.append_assoc] using hskip
  | give ha hh hc hb ht =>
    have hgive := LinesText.give (keyValueText_gap hg ha) hh hc hb ht
    simpa only [List.append_assoc] using hgive

/-! ## More of a string before its rest -/

/-- The rest of a string on one line or on several, from its body on. -/
def Body (quote : Quote) : Bool → List Char → List Char → Prop
  | false, v, s => Quoted v (quote.mark :: s)
  | true, v, s => Block quote v s

theorem quoted_double {v s : List Char} (h : Quoted v ('"' :: s)) :
    ∃ e, s = e ++ ['"'] ∧ Escaped v e := by
  generalize hq : '"' :: s = q at h
  cases h with
  | basic h => exact ⟨_, (List.cons.inj hq).2, h⟩
  | literal h => exact absurd (List.cons.inj hq).1 (by decide)

theorem quoted_single {v s : List Char} (h : Quoted v ('\'' :: s)) :
    s = v ++ ['\''] ∧ ∀ c ∈ v, Printable c ∧ c ≠ '\'' := by
  generalize hq : '\'' :: s = q at h
  cases h with
  | basic h => exact absurd (List.cons.inj hq).1 (by decide)
  | literal h => exact ⟨(List.cons.inj hq).2, h⟩

theorem quoted_nil (quote : Quote) : Quoted [] [quote.mark, quote.mark] := by
  cases quote with
  | double => exact .basic .nil
  | single => exact .literal fun c hc => nomatch hc

/-- A character before the rest of a string, however it is written. -/
theorem body_charSpelling {several : Bool} {c : Char} {p v s : List Char}
    (hc : CharSpelling c p) (h : Body .double several v s) :
    Body .double several (c :: v) (p ++ s) := by
  cases several with
  | false =>
    obtain ⟨e, rfl, he⟩ := quoted_double h
    have hquoted := Quoted.basic (Escaped.cons hc he)
    rwa [List.append_assoc] at hquoted
  | true => exact @Block.content .double 0 [c] p v s (by decide) (.escaped hc) h

theorem body_plain {quote : Quote} {several : Bool} {c : Char} {v s : List Char}
    (hc : Printable c) (hmark : c ≠ quote.mark) (hslash : quote = .double → c ≠ '\\')
    (h : Body quote several v s) : Body quote several (c :: v) (c :: s) := by
  cases quote with
  | double => exact body_charSpelling (.plain hc hmark (hslash rfl)) h
  | single =>
    cases several with
    | false =>
      obtain ⟨rfl, hv⟩ := quoted_single h
      exact .literal (List.forall_mem_cons.mpr ⟨⟨hc, hmark⟩, hv⟩)
    | true =>
      exact @Block.content .single 0 [c] [c] v s (by decide) (.literal hc hmark) h

theorem block_lineBreak {quote : Quote} {b v s : List Char} (hb : LineBreak b)
    (h : Block quote v s) : Block quote ('\n' :: v) (b ++ s) :=
  @Block.content quote 0 ['\n'] b v s (by decide) (.lineBreak hb) h

/-- Up to two marks may stand before what does not begin with one. -/
theorem block_marks {quote : Quote} {n : Nat} {c : Char} {v s : List Char} (hn : n ≤ 2)
    (hc : c ≠ quote.mark) (h : Block quote v (c :: s)) :
    Block quote (List.replicate n quote.mark ++ v) (List.replicate n quote.mark ++ c :: s) := by
  have hnone : ∀ {k : Nat} {t : List Char}, c :: s = List.replicate k quote.mark ++ t → k = 0 := by
    intro k t ht
    cases k with
    | zero => rfl
    | succ k => exact absurd (List.cons.inj ht).1 hc
  generalize hq : c :: s = q at h hnone
  cases h with
  | @close k hk =>
    have hzero := hnone (List.append_nil _).symm
    omega
  | @content k v s w t hk hs ht =>
    obtain rfl := hnone rfl
    exact @Block.content quote n v s w t hn hs ht
  | @join k j w t hk hquote hj hsolid ht =>
    obtain rfl := hnone rfl
    exact @Block.join quote n j w t hn hquote hj hsolid ht

/-- What a backslash joins to its line, when the line has been ended already or not. -/
def JoinText (broken : Bool) (s : List Char) : Prop :=
  ∃ j v t, (Joint j ∨ broken = true ∧ IsGap j) ∧ Solid t ∧ Block .double v t ∧ s = j ++ t

theorem joinText_gap {broken : Bool} {c : Char} {s : List Char} (hc : isGap c = true)
    (h : JoinText broken s) : JoinText broken (c :: s) := by
  obtain ⟨j, v, t, hj, hsolid, ht, rfl⟩ := h
  refine ⟨c :: j, v, t, ?_, hsolid, ht, rfl⟩
  rcases hj with hj | ⟨hbroken, hj⟩
  · left
    cases hj with
    | line hg hb hh => exact .line (isGap_cons hc hg) hb hh
    | more hg hb hj => exact .more (isGap_cons hc hg) hb hj
  · exact .inr ⟨hbroken, isGap_cons hc hj⟩

theorem joinText_lineBreak {b s : List Char} (hb : LineBreak b) (h : JoinText true s)
    (broken : Bool) : JoinText broken (b ++ s) := by
  obtain ⟨j, v, t, hj, hsolid, ht, rfl⟩ := h
  refine ⟨b ++ j, v, t, .inl ?_, hsolid, ht, (List.append_assoc ..).symm⟩
  rcases hj with hj | ⟨-, hj⟩
  · exact .more isGap_nil hb hj
  · exact .line isGap_nil hb hj

theorem exists_block_of_joinText {s : List Char} (h : JoinText false s) :
    ∃ v, Block .double v ('\\' :: s) := by
  obtain ⟨j, v, t, hj | ⟨hbroken, -⟩, hsolid, ht, rfl⟩ := h
  · exact ⟨v, @Block.join .double 0 j v t (by decide) rfl hj hsolid ht⟩
  · cases hbroken

/-! ## What has yet to come -/

/-- Lines of entries, whichever they are. -/
def Lines (t : List Char) : Prop := ∃ entries, LinesText entries t

/-- A line break with what comes behind it, or nothing at all where a text may end. -/
def Breaks (mayEnd : Prop) (next : List Char → Prop) (t : List Char) : Prop :=
  (t = [] ∧ mayEnd) ∨ ∃ b u, LineBreak b ∧ next u ∧ t = b ++ u

/-- The same with a comment before it. -/
def Ends (mayEnd : Prop) (next : List Char → Prop) (t : List Char) : Prop :=
  ∃ c u, Comment c ∧ Breaks mayEnd next u ∧ t = c ++ u

/-- The rest of a text behind an entry. -/
def LineRest (t : List Char) : Prop := ∃ g u, IsGap g ∧ Ends True Lines u ∧ t = g ++ u

/-- The rest of a text behind an equals sign. -/
def ValueRest (t : List Char) : Prop :=
  ∃ i value v u, IsGap i ∧ ValueText value v ∧ LineRest u ∧ t = i ++ (v ++ u)

/-- The rest of a text behind a key. -/
def KeyRest (t : List Char) : Prop := ∃ h u, IsGap h ∧ ValueRest u ∧ t = h ++ '=' :: u

/-- The rest of a text where an item of an array may begin. -/
def ArrayRest (t : List Char) : Prop :=
  ∃ items a u, ArrayText items a ∧ LineRest u ∧ t = a ++ u

/-- The rest of a text behind an item of an array. -/
def ItemRest (t : List Char) : Prop :=
  ∃ f u, Filler f ∧ (t = f ++ ']' :: u ∧ LineRest u ∨ t = f ++ ',' :: u ∧ ArrayRest u)

def ItemsRest : Bool → List Char → Prop
  | true => ArrayRest
  | false => ItemRest

/-- The rest of a text behind a string. -/
def SiteRest : Site → List Char → Prop
  | .key => KeyRest
  | .value _ => LineRest
  | .item _ => ItemRest

/-- The rest of a string.  Where the reader cannot be, nothing is asked for: behind a third
opening mark or a sixth closing one, behind a backslash between single marks, or behind the
last digit of a number. -/
def InsideText (quote : Quote) : Inside → List Char → Prop
  | .opened marks, s =>
    marks = 1 ∨ marks = 2 → ∃ v, TextSpelling v (List.replicate marks quote.mark ++ s)
  | .line, s => ∃ v, Body quote false v s
  | .head, s => ∃ v, TextSpelling v (List.replicate 3 quote.mark ++ s)
  | .lines marks, s => marks ≤ 5 → ∃ v, Block quote v (List.replicate marks quote.mark ++ s)
  | .escape several, s => quote = .double → ∃ v, Body .double several v ('\\' :: s)
  | .code several digits n, s => quote = .double → 0 < digits →
    ∃ (c : Char) (e v u : List Char), e.length = digits ∧
      (∀ p, HexNumber p n → HexNumber (p ++ e) c.toNat) ∧ Body .double several v u ∧ s = e ++ u
  | .join broken, s => quote = .double → JoinText broken s

/-- The rest of a text behind the rest of a string. -/
def StringRest (site : Site) (text : List Char → Prop) (t : List Char) : Prop :=
  ∃ s u, text s ∧ SiteRest site u ∧ t = s ++ u

namespace StringRest

variable {site : Site} {text other : List Char → Prop} {t : List Char}

theorem imp (h : StringRest site text t) (himp : ∀ s, text s → other s) :
    StringRest site other t := by
  obtain ⟨s, u, hs, hu, rfl⟩ := h
  exact ⟨s, u, himp s hs, hu, rfl⟩

/-- A character of a string before its rest. -/
theorem cons {c : Char} (h : StringRest site text t) (himp : ∀ s, text s → other (c :: s)) :
    StringRest site other (c :: t) := by
  obtain ⟨s, u, hs, hu, rfl⟩ := h
  exact ⟨c :: s, u, himp s hs, hu, rfl⟩

end StringRest

/-- What has yet to come in a state of the reader. -/
def Residual : State → List Char → Prop
  | .lineStart, t => Lines t
  | .bareKey _, t => ∃ s u, (∀ c ∈ s, BareChar c) ∧ KeyRest u ∧ t = s ++ u
  | .afterKey _, t => KeyRest t
  | .beforeValue _, t => ValueRest t
  | .items _ ready, t => ItemsRest ready t
  | .lineEnd, t => LineRest t
  | .comment next, t => ∃ s u, (∀ c ∈ s, Printable c) ∧
      Breaks (next = .lineStart) (Residual next) u ∧ t = s ++ u
  | .carriage next, t => ∃ u, Residual next u ∧ t = '\n' :: u
  | .string quote site inside _, t => StringRest site (InsideText quote inside) t

namespace Reading

variable {settings after : List Setting} {next : State} {c : Char} {t : List Char}

/-! ## Lines -/

/-- A character that ends a line does so as the grammar has it. -/
theorem ends_of_endLine {state : State} (h : endLine? state c = some next)
    (hnext : Residual next t) : Ends (state = .lineStart) (Residual state) (c :: t) := by
  rcases endLine?_cases h with ⟨rfl, rfl⟩ | ⟨rfl, rfl⟩ | ⟨rfl, rfl⟩
  · exact ⟨[], _, .absent, .inr ⟨['\n'], t, .lineFeed, hnext, rfl⟩, rfl⟩
  · obtain ⟨u, hu, rfl⟩ := hnext
    exact ⟨[], _, .absent, .inr ⟨['\r', '\n'], u, .both, hu, rfl⟩, rfl⟩
  · obtain ⟨s, u, hs, hu, rfl⟩ := hnext
    exact ⟨'#' :: s, u, .present hs, hu, rfl⟩

theorem lines_of_ends (h : Ends (State.lineStart = .lineStart) Lines t) : Lines t := by
  obtain ⟨c, u, hc, ⟨rfl, -⟩ | ⟨b, u, hb, ⟨entries, hu⟩, rfl⟩, rfl⟩ := h
  · exact ⟨[], by simpa using LinesText.done isGap_nil hc⟩
  · exact ⟨entries, by simpa using LinesText.skip isGap_nil hc hb hu⟩

/-- A key and the rest of a text behind it make an entry with lines behind it. -/
theorem lines_of_key {name : String} {k : List Char} (hk : NameSpelling name k)
    (h : KeyRest t) : Lines (k ++ t) := by
  obtain ⟨h, u, hh, ⟨i, value, v, r, hi, hv, hr, rfl⟩, rfl⟩ := h
  have ha := @KeyValueText.intro ⟨[name], value⟩ [] k h i v isGap_nil (.last hk) hh hi hv
  obtain ⟨g, u, hg, ⟨c, w, hc, ⟨rfl, -⟩ | ⟨b, w, hb, ⟨entries, hw⟩, rfl⟩, rfl⟩, rfl⟩ := hr
  · exact ⟨_, by simpa using LinesText.last ha hg hc⟩
  · exact ⟨_, by simpa using LinesText.give ha hg hc hb hw⟩

theorem lineRest_gap (hc : Overlay.isGap c = true) (h : LineRest t) : LineRest (c :: t) := by
  obtain ⟨g, u, hg, hu, rfl⟩ := h
  exact ⟨c :: g, u, isGap_cons hc hg, hu, rfl⟩

theorem lineRest_of_ends (h : Ends (State.lineStart = .lineStart) Lines t) : LineRest t := by
  obtain ⟨c, u, hc, hu, rfl⟩ := h
  refine ⟨[], c ++ u, isGap_nil, ⟨c, u, hc, ?_, rfl⟩, rfl⟩
  exact hu.imp_left fun h => ⟨h.1, trivial⟩

theorem lineRest_nil : LineRest [] :=
  ⟨[], [], isGap_nil, ⟨[], [], .absent, .inl ⟨rfl, trivial⟩, rfl⟩, rfl⟩

/-! ## Lists -/

theorem itemsRest_filler {ready : Bool} {f : List Char} (hf : Filler f)
    (h : ItemsRest ready t) : ItemsRest ready (f ++ t) := by
  cases ready with
  | true =>
    obtain ⟨items, a, u, ha, hu, rfl⟩ := h
    exact ⟨items, f ++ a, u, arrayText_filler hf ha, hu, (List.append_assoc ..).symm⟩
  | false =>
    obtain ⟨g, u, hg, ⟨rfl, hu⟩ | ⟨rfl, hu⟩⟩ := h
    · exact ⟨f ++ g, u, filler_append hf hg, .inl ⟨(List.append_assoc ..).symm, hu⟩⟩
    · exact ⟨f ++ g, u, filler_append hf hg, .inr ⟨(List.append_assoc ..).symm, hu⟩⟩

theorem itemsRest_of_ends {before : List String} {ready : Bool}
    (h : Ends (State.items before ready = .lineStart) (ItemsRest ready) t) :
    ItemsRest ready t := by
  obtain ⟨c, u, hc, ⟨-, hstate⟩ | ⟨b, w, hb, hw, rfl⟩, rfl⟩ := h
  · cases hstate
  · have hline := itemsRest_filler (.line isGap_nil hc hb (.gap isGap_nil)) hw
    simpa using hline

theorem itemsRest_bracket (ready : Bool) (h : LineRest t) : ItemsRest ready (']' :: t) := by
  cases ready with
  | true => exact ⟨[], [']'], t, .close (.gap isGap_nil), h, rfl⟩
  | false => exact ⟨[], t, .gap isGap_nil, .inl ⟨rfl, h⟩⟩

theorem arrayRest_item {value : Value} {s : List Char} (hs : ValueText value s)
    (h : ItemRest t) : ArrayRest (s ++ t) := by
  have hnil : Filler [] := .gap isGap_nil
  obtain ⟨f, u, hf, ⟨rfl, hu⟩ | ⟨rfl, items, a, w, ha, hw, rfl⟩⟩ := h
  · exact ⟨_, _, u, .last hnil hs hf, hu, by simp⟩
  · exact ⟨_, _, w, .cons hnil hs hf ha, hw, by simp⟩

/-! ## Outside of strings -/

theorem eq_mark_of_of? {quote : Quote} (h : Quote.of? c = some quote) : c = quote.mark := by
  simp only [Quote.of?] at h
  split at h
  · next hc => exact Option.some.inj h ▸ hc
  · split at h
    · next hc => exact Option.some.inj h ▸ hc
    · cases h

/-- A mark with the rest of a string, and what comes behind it. -/
theorem exists_text_of_opened {quote : Quote} {site : Site}
    (h : StringRest site (InsideText quote (.opened 1)) t) :
    ∃ value s u, ValueText (.text value) (quote.mark :: s) ∧ SiteRest site u ∧ t = s ++ u := by
  obtain ⟨s, u, hs, hu, rfl⟩ := h
  obtain ⟨v, hv⟩ : ∃ v, TextSpelling v (quote.mark :: s) := hs (.inl rfl)
  rw [← @String.toList_ofList v] at hv
  exact ⟨_, s, u, .text hv, hu, rfl⟩

theorem keyRest_step {key : Key} (h : stepAfterKey settings key c = some ⟨after, next⟩)
    (hnext : Residual next t) : KeyRest (c :: t) := by
  simp only [stepAfterKey] at h
  split at h
  · next hgap =>
    cases h
    obtain ⟨g, u, hg, hu, rfl⟩ := hnext
    exact ⟨c :: g, u, isGap_cons hgap hg, hu, rfl⟩
  · split at h
    · next hsign =>
      cases h
      exact ⟨[], t, isGap_nil, hnext, by rw [hsign]; rfl⟩
    · cases h

theorem valueRest_step {key : Key} (h : stepBeforeValue settings key c = some ⟨after, next⟩)
    (hnext : Residual next t) : ValueRest (c :: t) := by
  simp only [stepBeforeValue] at h
  split at h
  · next hgap =>
    cases h
    obtain ⟨i, value, v, u, hi, hv, hu, rfl⟩ := hnext
    exact ⟨c :: i, value, v, u, isGap_cons hgap hi, hv, hu, rfl⟩
  · cases key with
    | text setting =>
      obtain ⟨quote, hquote, hopen⟩ := Option.map_eq_some_iff.mp h
      cases hopen
      obtain ⟨value, s, u, hv, hu, rfl⟩ := exists_text_of_opened hnext
      rw [eq_mark_of_of? hquote]
      exact ⟨[], _, _, u, isGap_nil, hv, hu, rfl⟩
    | commands =>
      simp only at h
      split at h
      · next hopen =>
        cases h
        obtain ⟨items, a, u, ha, hu, rfl⟩ := hnext
        rw [hopen]
        exact ⟨[], _, _, u, isGap_nil, .array ha, hu, rfl⟩
      · cases h

theorem itemsRest_step {before : List String} {ready : Bool}
    (h : stepItems settings before ready c = some ⟨after, next⟩) (hnext : Residual next t) :
    ItemsRest ready (c :: t) := by
  simp only [stepItems] at h
  split at h
  · next hgap =>
    cases h
    exact itemsRest_filler (.gap (isGap_cons hgap isGap_nil)) hnext
  · split at h
    · next hclose =>
      obtain rfl : next = .lineEnd := state_of_give h
      rw [hclose]
      exact itemsRest_bracket ready hnext
    · split at h
      · next hcomma =>
        split at h
        · cases h
        · next hready =>
          cases h
          rw [hcomma, Bool.eq_false_iff.mpr hready]
          exact ⟨[], t, .gap isGap_nil, .inr ⟨rfl, hnext⟩⟩
      · split at h
        · next hend =>
          cases h
          exact itemsRest_of_ends (ends_of_endLine hend hnext)
        · next quote hend hquote =>
          split at h
          · next hready =>
            cases h
            obtain ⟨value, s, u, hv, hu, rfl⟩ := exists_text_of_opened hnext
            rw [eq_mark_of_of? hquote, hready]
            exact arrayRest_item hv hu
          · cases h
        · cases h

theorem lines_step
    (h : stepOutside settings .lineStart c = some ⟨after, next⟩) (hnext : Residual next t) :
    Lines (c :: t) := by
  simp only [stepOutside] at h
  split at h
  · next hgap =>
    cases h
    obtain ⟨entries, ht⟩ := hnext
    exact ⟨entries, linesText_gap (isGap_cons hgap isGap_nil) ht⟩
  · split at h
    · next hbare =>
      cases h
      obtain ⟨s, u, hs, hu, rfl⟩ := hnext
      have hname := NameSpelling.bare (List.cons_ne_nil c s)
        (List.forall_mem_cons.mpr ⟨isBare_iff.mp hbare, hs⟩)
      exact lines_of_key hname hu
    · split at h
      · next hend =>
        cases h
        exact lines_of_ends (ends_of_endLine hend hnext)
      · next quote hend hquote =>
        cases h
        obtain ⟨s, u, ⟨v, hv⟩, hu, rfl⟩ := hnext
        rw [eq_mark_of_of? hquote]
        have hv : Quoted v (quote.mark :: s) := hv
        rw [← @String.toList_ofList v] at hv
        exact lines_of_key (.quoted hv) hu
      · cases h

theorem comment_step {rest : State}
    (h : stepOutside settings (.comment rest) c = some ⟨after, next⟩)
    (hnext : Residual next t) : Residual (.comment rest) (c :: t) := by
  simp only [stepOutside] at h
  split at h
  · next hplain =>
    cases h
    obtain ⟨s, u, hs, hu, rfl⟩ := hnext
    exact ⟨c :: s, u, List.forall_mem_cons.mpr ⟨isPlain_iff.mp hplain, hs⟩, hu, rfl⟩
  · next hplain =>
    obtain ⟨ended, hend, hstate⟩ := Option.map_eq_some_iff.mp h
    cases hstate
    obtain ⟨comment, u, hcomment, hu, heq⟩ := ends_of_endLine hend hnext
    -- a sign of a comment would be part of the comment that is being read
    cases hcomment with
    | absent => exact ⟨[], u, by simp, hu, heq⟩
    | present hs => exact absurd ((List.cons.inj heq).1 ▸ by decide) hplain

/-- **Outside of strings** a character read is the first of what has yet to come. -/
theorem residual_stepOutside {state : State}
    (h : stepOutside settings state c = some ⟨after, next⟩) (hnext : Residual next t) :
    Residual state (c :: t) := by
  cases state with
  | lineStart => exact lines_step h hnext
  | bareKey read =>
    simp only [stepOutside] at h
    split at h
    · next hbare =>
      cases h
      obtain ⟨s, u, hs, hu, rfl⟩ := hnext
      exact ⟨c :: s, u, List.forall_mem_cons.mpr ⟨isBare_iff.mp hbare, hs⟩, hu, rfl⟩
    · obtain ⟨key, -, hkey⟩ := Option.bind_eq_some_iff.mp h
      exact ⟨[], c :: t, by simp, keyRest_step hkey hnext, rfl⟩
  | afterKey key => exact keyRest_step h hnext
  | beforeValue key => exact valueRest_step h hnext
  | items before ready => exact itemsRest_step h hnext
  | lineEnd =>
    simp only [stepOutside] at h
    split at h
    · next hgap =>
      cases h
      exact lineRest_gap hgap hnext
    · obtain ⟨ended, hend, hstate⟩ := Option.map_eq_some_iff.mp h
      cases hstate
      exact lineRest_of_ends (ends_of_endLine hend hnext)
  | comment rest => exact comment_step h hnext
  | carriage rest =>
    simp only [stepOutside] at h
    split at h
    · next hfeed =>
      cases h
      exact ⟨t, hnext, by rw [hfeed]⟩
    · cases h
  | string quote site inside read => cases h

/-! ## Inside of strings -/

variable {quote : Quote} {site : Site} {read : List Char}

/-- What has yet to come behind a string depends on where it stands. -/
theorem residual_closed {closed : Reading} (h : close settings site read = some closed) :
    Residual closed.state t = SiteRest site t := by
  cases site with
  | key =>
    obtain ⟨key, -, rfl⟩ := Option.map_eq_some_iff.mp h
    rfl
  | value setting =>
    rw [state_of_give h]
    rfl
  | item before =>
    cases h
    rfl

/-- A string that is over when another character follows. -/
theorem siteRest_of_over
    (h : ((close settings site read).bind fun closed =>
      stepOutside closed.settings closed.state c) = some ⟨after, next⟩)
    (hnext : Residual next t) : SiteRest site (c :: t) := by
  obtain ⟨closed, hclosed, hstep⟩ := Option.bind_eq_some_iff.mp h
  rw [← residual_closed hclosed]
  exact residual_stepOutside hstep hnext

/-- Two opening marks alone are the empty string. -/
theorem insideText_opened_nil {marks : Nat} (hmarks : marks ≠ 1) :
    InsideText quote (.opened marks) [] := by
  intro hopened
  obtain rfl := hopened.resolve_left hmarks
  exact ⟨[], .line (quoted_nil quote)⟩

/-- Three closing marks end a string, with up to two more that are part of it. -/
theorem insideText_lines_nil {marks : Nat} (hmarks : 3 ≤ marks) :
    InsideText quote (.lines marks) [] := by
  intro hfive
  obtain ⟨n, rfl⟩ : ∃ n, marks = n + 3 := ⟨marks - 3, by omega⟩
  rw [List.append_nil]
  exact ⟨_, .close (by omega)⟩

/-- Behind a carriage return in a string the line feed has yet to come. -/
theorem stringRest_of_carriage {inside : Inside}
    (h : Residual (.carriage (.string quote site inside read)) t) :
    StringRest site (fun s => ∃ r, InsideText quote inside r ∧ s = '\n' :: r) t := by
  obtain ⟨u, hu, rfl⟩ := h
  exact StringRest.cons hu fun s hs => ⟨s, hs, rfl⟩

theorem insideText_body {several : Bool} {s : List Char} :
    InsideText quote (body several) s ↔ ∃ v, Body quote several v s := by
  cases several <;> simp [InsideText, body, Body]

theorem stringRest_plain {several : Bool} (hc : Printable c) (hmark : c ≠ quote.mark)
    (hslash : ¬(c = '\\' ∧ quote = .double))
    (h : StringRest site (InsideText quote (body several)) t) :
    StringRest site (fun s => ∃ v, Body quote several v (c :: s)) t := by
  refine StringRest.imp h fun s hs => ?_
  obtain ⟨v, hv⟩ := insideText_body.mp hs
  exact ⟨c :: v, body_plain hc hmark (fun hquote heq => hslash ⟨heq, hquote⟩) hv⟩

theorem stringRest_stepLine
    (h : stepLine settings quote site read c = some ⟨after, next⟩) (hnext : Residual next t) :
    StringRest site (fun s => ∃ v, Body quote false v (c :: s)) t := by
  simp only [stepLine] at h
  split at h
  · next hmark =>
    obtain rfl := hmark
    exact ⟨[], t, ⟨[], quoted_nil quote⟩, residual_closed h ▸ hnext, rfl⟩
  · next hmark =>
    split at h
    · next hslash =>
      cases h
      obtain ⟨rfl, rfl⟩ := hslash
      exact StringRest.imp hnext fun s hs => hs rfl
    · next hslash =>
      split at h
      · next hplain =>
        cases h
        exact @stringRest_plain _ _ _ _ false (isPlain_iff.mp hplain) hmark hslash hnext
      · cases h

theorem stringRest_stepLines
    (h : stepLines settings quote site read 0 c = some ⟨after, next⟩)
    (hnext : Residual next t) :
    StringRest site (fun s => ∃ v, Block quote v (c :: s)) t := by
  have hblock : ∀ s, InsideText quote (.lines 0) s → ∃ v, Block quote v s :=
    fun s hs => hs (Nat.zero_le 5)
  by_cases hmark : c = quote.mark
  · subst hmark
    rw [stepLines, if_pos rfl, if_pos (by decide)] at h
    cases h
    exact StringRest.imp hnext fun s hs => hs (by decide)
  simp only [stepLines] at h
  rw [if_neg hmark, if_neg (by decide)] at h
  split at h
  · next hslash =>
    cases h
    obtain ⟨rfl, rfl⟩ := hslash
    exact StringRest.imp hnext fun s hs => hs rfl
  · next hslash =>
    split at h
    · next hfeed =>
      cases h
      subst hfeed
      refine StringRest.imp hnext fun s hs => ?_
      obtain ⟨v, hv⟩ := hblock s hs
      exact ⟨_, block_lineBreak .lineFeed hv⟩
    · split at h
      · next hreturn =>
        cases h
        subst hreturn
        refine (stringRest_of_carriage hnext).imp ?_
        rintro _ ⟨s, hs, rfl⟩
        obtain ⟨v, hv⟩ := hblock s hs
        exact ⟨_, block_lineBreak .both hv⟩
      · split at h
        · next hplain =>
          cases h
          exact @stringRest_plain _ _ _ _ true (isPlain_iff.mp hplain) hmark hslash hnext
        · cases h

theorem mem_letters_of_escape? {char : Char} (h : escape? c = some char) :
    (char, c) ∈ letters := by
  simp only [escape?] at h
  split at h
  all_goals
    cases h
  all_goals decide

theorem hexDigit_of_hexValue? {d : Nat} (h : Text.hexValue? c = some d) : HexDigit c d := by
  have hle : ∀ a b : Char, a ≤ b ↔ a.toNat ≤ b.toNat := fun a b => UInt32.le_iff_toNat_le
  have hofNat : ∀ {n : Nat}, n = c.toNat → Char.ofNat n = c := fun h => h ▸ Char.ofNat_toNat c
  simp only [Text.hexValue?, hle] at h
  change (if 0x30 ≤ c.toNat ∧ c.toNat ≤ 0x39 then some (c.toNat - 0x30)
    else if 0x61 ≤ c.toNat ∧ c.toNat ≤ 0x66 then some (c.toNat - 0x61 + 10)
    else if 0x41 ≤ c.toNat ∧ c.toNat ≤ 0x46 then some (c.toNat - 0x41 + 10)
    else none) = some d at h
  split at h
  · obtain rfl := Option.some.inj h
    have hdigit := @HexDigit.digit (c.toNat - 0x30) (by omega)
    rwa [hofNat (by omega)] at hdigit
  · split at h
    · obtain rfl := Option.some.inj h
      have hdigit := @HexDigit.lower (c.toNat - 0x61) (by omega)
      rwa [hofNat (by omega), Nat.add_comm] at hdigit
    · split at h
      · obtain rfl := Option.some.inj h
        have hdigit := @HexDigit.upper (c.toNat - 0x41) (by omega)
        rwa [hofNat (by omega), Nat.add_comm] at hdigit
      · cases h

theorem toNat_of_charOf? {n : Nat} {char : Char} (h : charOf? n = some char) :
    char.toNat = n := by
  simp only [charOf?] at h
  split at h
  · next hvalid =>
    cases h
    rw [Char.ofNat, dif_pos hvalid]
    rfl
  · cases h

theorem residual_opened {marks : Nat}
    (h : stepInside settings quote site read (.opened marks) c = some ⟨after, next⟩)
    (hnext : Residual next t) : Residual (.string quote site (.opened marks) read) (c :: t) := by
  simp only [stepInside] at h
  split at h
  · next hmarks =>
    subst hmarks
    split at h
    · next hmark =>
      cases h
      subst hmark
      exact StringRest.cons hnext fun s hs _ => hs (.inr rfl)
    · refine (stringRest_stepLine h hnext).cons fun s hs _ => ?_
      obtain ⟨v, hv⟩ := hs
      exact ⟨v, .line hv⟩
  · next hmarks =>
    split at h
    · next hmark =>
      cases h
      subst hmark
      refine StringRest.cons hnext fun s hs hopened => ?_
      obtain rfl := hopened.resolve_left hmarks
      exact hs
    · exact ⟨[], c :: t, insideText_opened_nil hmarks, siteRest_of_over h hnext, rfl⟩

theorem residual_head
    (h : stepInside settings quote site read .head c = some ⟨after, next⟩)
    (hnext : Residual next t) : Residual (.string quote site .head read) (c :: t) := by
  simp only [stepInside] at h
  split at h
  · next hfeed =>
    cases h
    subst hfeed
    refine StringRest.cons hnext fun s hs => ?_
    obtain ⟨v, hv⟩ : ∃ v, Block quote v s := hs (Nat.zero_le 5)
    exact ⟨v, @TextSpelling.head quote ['\n'] v s .lineFeed hv⟩
  · next hfeed =>
    split at h
    · next hreturn =>
      cases h
      subst hreturn
      refine (stringRest_of_carriage hnext).cons ?_
      rintro _ ⟨s, hs, rfl⟩
      obtain ⟨v, hv⟩ : ∃ v, Block quote v s := hs (Nat.zero_le 5)
      exact ⟨v, @TextSpelling.head quote ['\r', '\n'] v s .both hv⟩
    · next hreturn =>
      refine (stringRest_stepLines h hnext).cons fun s hs => ?_
      obtain ⟨v, hv⟩ := hs
      refine ⟨v, .block hv ?_⟩
      rintro (hhead | hhead)
      · exact hfeed (Option.some.inj hhead)
      · exact hreturn (Option.some.inj hhead)

theorem residual_lines {marks : Nat}
    (h : stepInside settings quote site read (.lines marks) c = some ⟨after, next⟩)
    (hnext : Residual next t) : Residual (.string quote site (.lines marks) read) (c :: t) := by
  by_cases hmark : c = quote.mark
  · subst hmark
    simp only [stepInside, stepLines, if_true] at h
    split at h
    · next hmarks =>
      cases h
      refine StringRest.cons hnext fun s hs _ => ?_
      obtain ⟨v, hv⟩ := hs (by omega)
      rw [List.replicate_succ', List.append_assoc] at hv
      exact ⟨v, hv⟩
    · cases h
  · by_cases hmarks : 3 ≤ marks
    · simp only [stepInside, stepLines] at h
      rw [if_neg hmark, if_pos hmarks] at h
      exact ⟨[], c :: t, insideText_lines_nil hmarks, siteRest_of_over h hnext, rfl⟩
    · -- fewer marks are part of the string, and the character is read as behind none
      have hstep := @step_unmarked settings quote site read marks (by omega) c hmark
      have hzero := stringRest_stepLines (hstep.symm.trans h) hnext
      refine hzero.cons fun s hs _ => ?_
      obtain ⟨v, hv⟩ := hs
      exact ⟨_, block_marks (by omega) hmark hv⟩

theorem residual_join {broken : Bool}
    (h : stepInside settings quote site read (.join broken) c = some ⟨after, next⟩)
    (hnext : Residual next t) : Residual (.string quote site (.join broken) read) (c :: t) := by
  simp only [stepInside] at h
  split at h
  · next hgap =>
    cases h
    exact StringRest.cons hnext fun s hs hquote => joinText_gap hgap (hs hquote)
  · next hgap =>
    split at h
    · next hfeed =>
      cases h
      subst hfeed
      exact StringRest.cons hnext fun s hs hquote =>
        joinText_lineBreak .lineFeed (hs hquote) broken
    · next hfeed =>
      split at h
      · next hreturn =>
        cases h
        subst hreturn
        refine (stringRest_of_carriage hnext).cons ?_
        rintro _ ⟨s, hs, rfl⟩ hquote
        exact joinText_lineBreak .both (hs hquote) broken
      · next hreturn =>
        split at h
        · next hbroken =>
          subst hbroken
          refine (stringRest_stepLines h hnext).cons fun s hs hquote => ?_
          obtain ⟨v, hv⟩ := hs
          rw [isGap_iff, not_or] at hgap
          refine ⟨[], v, c :: s, .inr ⟨rfl, isGap_nil⟩, ?_, hquote ▸ hv, rfl⟩
          simp [Solid, BreaksLine, hgap, hfeed, hreturn]
        · cases h

theorem residual_escape {several : Bool}
    (h : stepInside settings quote site read (.escape several) c = some ⟨after, next⟩)
    (hnext : Residual next t) : Residual (.string quote site (.escape several) read) (c :: t) := by
  simp only [stepInside] at h
  split at h
  · next char hchar =>
    cases h
    refine StringRest.cons hnext fun s hs hquote => ?_
    subst hquote
    obtain ⟨v, hv⟩ := insideText_body.mp hs
    exact ⟨_, body_charSpelling (.letter (mem_letters_of_escape? hchar)) hv⟩
  · split at h
    · next hshort =>
      cases h
      subst hshort
      refine StringRest.cons hnext fun s hs hquote => ?_
      obtain ⟨char, e, v, u, hlength, hnumber, hv, rfl⟩ := hs hquote (by decide)
      exact ⟨_, body_charSpelling (.short hlength (hnumber [] .nil)) hv⟩
    · split at h
      · next hlong =>
        cases h
        subst hlong
        refine StringRest.cons hnext fun s hs hquote => ?_
        obtain ⟨char, e, v, u, hlength, hnumber, hv, rfl⟩ := hs hquote (by decide)
        exact ⟨_, body_charSpelling (.long hlength (hnumber [] .nil)) hv⟩
      · split at h
        · cases h
        · next hseveral =>
          obtain rfl : several = true := by simpa using hseveral
          have hjoin : stepInside settings quote site read (.join false) c =
              some ⟨after, next⟩ := by
            simpa [stepInside] using h
          exact StringRest.imp (residual_join hjoin hnext) fun s hs hquote =>
            exists_block_of_joinText (hs hquote)

theorem residual_code {several : Bool} {digits n : Nat}
    (h : stepInside settings quote site read (.code several digits n) c = some ⟨after, next⟩)
    (hnext : Residual next t) :
    Residual (.string quote site (.code several digits n) read) (c :: t) := by
  simp only [stepInside] at h
  split at h
  · cases h
  · next d hd =>
    have hdigit := hexDigit_of_hexValue? hd
    split at h
    · next hlast =>
      obtain ⟨char, hchar, hstate⟩ := Option.bind_eq_some_iff.mp h
      cases hstate
      refine StringRest.cons hnext fun s hs hquote hdigits => ?_
      subst hquote
      obtain ⟨v, hv⟩ := insideText_body.mp hs
      refine ⟨char, [c], v, s, hlast.symm, fun p hp => ?_, hv, rfl⟩
      rw [toNat_of_charOf? hchar]
      exact .snoc hp hdigit
    · next hmore =>
      cases h
      refine StringRest.cons hnext fun s hs hquote hdigits => ?_
      obtain ⟨char, e, v, u, hlength, hnumber, hv, rfl⟩ := hs hquote (by omega)
      refine ⟨char, c :: e, v, u, ?_, fun p hp => ?_, hv, rfl⟩
      · rw [List.length_cons, hlength]
        omega
      · have happ := hnumber _ (.snoc hp hdigit)
        rwa [List.append_assoc] at happ

/-- **Inside of a string** a character read is the first of what has yet to come. -/
theorem residual_stepInside {inside : Inside}
    (h : stepInside settings quote site read inside c = some ⟨after, next⟩)
    (hnext : Residual next t) : Residual (.string quote site inside read) (c :: t) := by
  cases inside with
  | opened marks => exact residual_opened h hnext
  | line => exact (stringRest_stepLine h hnext).cons fun s hs => hs
  | head => exact residual_head h hnext
  | lines marks => exact residual_lines h hnext
  | escape several => exact residual_escape h hnext
  | code several digits n => exact residual_code h hnext
  | join broken => exact residual_join h hnext

/-! ## Whole texts -/

/-- **A character read** is the first of what has yet to come. -/
theorem residual_step {state : State}
    (h : (⟨settings, state⟩ : Reading).step c = some ⟨after, next⟩)
    (hnext : Residual next t) : Residual state (c :: t) := by
  cases state with
  | string quote site inside read => exact residual_stepInside h hnext
  | _ => exact residual_stepOutside h hnext

/-- Where a string is over, the text may end if the string is a value. -/
theorem siteRest_nil_of_over
    (h : ((close settings site read).bind fun closed =>
      stepOutside closed.settings closed.state '\n') = some ⟨after, .lineStart⟩) :
    SiteRest site [] := by
  obtain ⟨closed, hclosed, hstep⟩ := Option.bind_eq_some_iff.mp h
  cases site with
  | key =>
    obtain ⟨key, -, rfl⟩ := Option.map_eq_some_iff.mp hclosed
    cases hstep
  | value setting => exact lineRest_nil
  | item before =>
    cases hclosed
    cases hstep

/-- A text does not end in a string unless its closing marks have been read. -/
theorem residual_nil_of_stepInside {inside : Inside}
    (h : stepInside settings quote site read inside '\n' = some ⟨after, .lineStart⟩) :
    Residual (.string quote site inside read) [] := by
  have hmark : '\n' ≠ quote.mark := by cases quote <;> decide
  have hline : stepLine settings quote site read '\n' = none := by
    rw [stepLine, if_neg hmark, if_neg (by simp)]
    rfl
  cases inside with
  | opened marks =>
    simp only [stepInside] at h
    rw [if_neg hmark, if_neg hmark, hline] at h
    split at h
    · cases h
    · next hmarks => exact ⟨[], [], insideText_opened_nil hmarks, siteRest_nil_of_over h, rfl⟩
  | lines marks =>
    simp only [stepInside, stepLines] at h
    rw [if_neg hmark] at h
    split at h
    · next hmarks => exact ⟨[], [], insideText_lines_nil hmarks, siteRest_nil_of_over h, rfl⟩
    · rw [if_neg (by simp)] at h
      cases h
  | line => cases hline.symm.trans h
  | escape several => cases several <;> cases h
  | _ => cases h

theorem step_of_finish {state : State}
    (h : (⟨settings, state⟩ : Reading).finish = some after) :
    (⟨settings, state⟩ : Reading).step '\n' = some ⟨after, .lineStart⟩ := by
  have hstate : ∀ next, state ≠ .carriage next := by
    rintro next rfl
    cases h
  rw [finish_eq hstate] at h
  obtain ⟨⟨given, next⟩, hstep, hnext⟩ := Option.bind_eq_some_iff.mp h
  split at hnext
  · next hstart =>
    rw [hstep, ← hstart, ← Option.some.inj hnext]
  · cases hnext

/-- **Where a text may end** nothing has yet to come. -/
theorem residual_finish {state : State}
    (h : (⟨settings, state⟩ : Reading).finish = some after) : Residual state [] := by
  have hstep := step_of_finish h
  cases state with
  | lineStart => exact ⟨[], by simpa using LinesText.done isGap_nil .absent⟩
  | lineEnd => exact lineRest_nil
  | comment next =>
    cases hstep
    exact ⟨[], [], by simp, .inl ⟨rfl, rfl⟩, rfl⟩
  | string quote site inside read => exact residual_nil_of_stepInside hstep
  | bareKey read =>
    obtain ⟨key, -, hkey⟩ := Option.bind_eq_some_iff.mp hstep
    cases hkey
  | beforeValue key => cases key <;> cases h
  | _ => cases h

/-- **What is accepted from a state** is what has yet to come there. -/
theorem residual_of_outcome {state : State} {rest : List Char}
    (h : (⟨settings, state⟩ : Reading).outcome rest = some after) : Residual state rest := by
  induction rest generalizing settings state with
  | nil => exact residual_finish h
  | cons c rest ih =>
    rw [outcome_cons] at h
    obtain ⟨⟨given, next⟩, hstep, hrest⟩ := Option.bind_eq_some_iff.mp h
    exact residual_step hstep (ih hrest)

end Reading

/-- **Every text that is read has entries.** -/
theorem exists_document_of_read? {text : String} {settings : List Setting}
    (h : read? text = some settings) : ∃ entries, Document entries text :=
  Reading.residual_of_outcome h

end DocCoverage.Overlay
