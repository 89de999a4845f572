import DocCoverage.Proofs.Overlay.Strings

/-! # Every text of entries is read as their settings

What entries set is said without their texts (`settingsOf?`): each makes the setting of its
key, if it has one and the value is of its kind, and no key may come twice.  The reader finds
the same in every text of the entries, also that there is no such setting: it then stops at
the key, at the first character of the value, or at the item that is no string.  So each rule of
the grammar is matched by an equation for what the rest of a text gives, with no condition on
the entry.  `read?_of_document` states the result for whole texts; the spellings of a list of
settings are the case in which nothing is refused (`read?_of_spells`). -/

namespace DocCoverage.Overlay

/-! ## What entries set -/

/-- The text that a value is. -/
def Value.text? : Value → Option String
  | .text value => some value
  | _ => none

/-- The setting of a key with a value of the kind that it takes. -/
def Key.setting? : Key → Value → Option Setting
  | .text setting, value => value.text?.map (.text setting)
  | .commands, .array items => (items.mapM Value.text?).map .commands
  | .commands, _ => none

/-- The key with the given parts.  Keys of several parts are names in a table. -/
def Key.ofPath? : List String → Option Key
  | [name] => ofName? name
  | _ => none

/-- The setting that an entry gives. -/
def KeyValue.setting? (entry : KeyValue) : Option Setting :=
  (Key.ofPath? entry.path).bind fun key => key.setting? entry.value

/-- The settings with one more, whose key must be new. -/
def added? (settings : List Setting) (setting : Setting) : Option (List Setting) :=
  if keyOf setting ∈ settings.map keyOf then none else some (settings ++ [setting])

/-- The settings with those of the entries behind them. -/
def settingsOf? (settings : List Setting) (entries : List KeyValue) : Option (List Setting) :=
  entries.foldlM (fun settings entry => entry.setting?.bind (added? settings)) settings

theorem settingsOf?_cons (settings : List Setting) (entry : KeyValue) (entries : List KeyValue) :
    settingsOf? settings (entry :: entries) =
      (entry.setting?.bind (added? settings)).bind fun given => settingsOf? given entries := rfl

theorem settingsOf?_append (settings : List Setting) (entries more : List KeyValue) :
    settingsOf? settings (entries ++ more) =
      (settingsOf? settings entries).bind fun given => settingsOf? given more :=
  List.foldlM_append

namespace Reading

variable {settings : List Setting}

/-- A setting is given once. -/
theorem outcome_give (setting : Setting) (rest : List Char) :
    ((give settings setting).bind fun next => next.outcome rest) =
      (added? settings setting).bind fun given =>
        (⟨given, .lineEnd⟩ : Reading).outcome rest := by
  by_cases hold : keyOf setting ∈ settings.map keyOf
  · rw [give, added?, if_pos hold, if_pos (List.contains_iff_mem.mpr hold)]
    rfl
  · rw [give, added?, if_neg hold, if_neg (fun h => hold (List.contains_iff_mem.mp h))]
    rfl

/-- Where the reader stops, the text gives nothing. -/
theorem outcome_of_stop {reading : Reading} {c : Char} (h : reading.step c = none)
    (rest : List Char) : reading.outcome (c :: rest) = none := by
  rw [outcome_cons, h]
  rfl

/-! ## Keys -/

theorem isBare_iff {c : Char} : isBare c = true ↔ BareChar c := by
  have halphanum : c.isAlphanum =
      (decide ('A' ≤ c ∧ c ≤ 'Z') || ('a' ≤ c && c ≤ 'z') || ('0' ≤ c && c ≤ '9')) := rfl
  simp only [isBare, BareChar, halphanum, Bool.or_eq_true, Bool.and_eq_true, decide_eq_true_eq,
    beq_iff_eq, or_assoc]
  exact or_left_comm

theorem isBare_gap {c : Char} (h : Overlay.isGap c = true) : isBare c = false := by
  rcases isGap_iff.mp h with rfl | rfl <;> decide

theorem isGap_bare {c : Char} (h : isBare c = true) : Overlay.isGap c = false := by
  cases hc : Overlay.isGap c with
  | false => rfl
  | true => exact absurd h (by simp [isBare_gap hc])

theorem outcome_bareKey {s : List Char} (hs : ∀ c ∈ s, isBare c = true) (read rest : List Char) :
    (⟨settings, .bareKey read⟩ : Reading).outcome (s ++ rest) =
      (⟨settings, .bareKey (s.reverse ++ read)⟩ : Reading).outcome rest := by
  induction s generalizing read with
  | nil => rfl
  | cons c s ih =>
    obtain ⟨hc, hs⟩ := List.forall_mem_cons.mp hs
    have hstep : (⟨settings, .bareKey read⟩ : Reading).step c =
        some ⟨settings, .bareKey (c :: read)⟩ := by
      simp [step, stepOutside, hc]
    rw [List.cons_append, outcome_of_step hstep, ih hs]
    simp

/-- What a bare key has read, it is asked for at the first character that is not part of it. -/
theorem outcome_nameRead {read : List Char} {c : Char} (hc : isBare c = false)
    (rest : List Char) :
    (⟨settings, .bareKey read⟩ : Reading).outcome (c :: rest) =
      (Key.ofName? (String.ofList read.reverse)).bind fun key =>
        (⟨settings, .afterKey key⟩ : Reading).outcome (c :: rest) := by
  have hstep : (⟨settings, .bareKey read⟩ : Reading).step c =
      (Key.ofName? (String.ofList read.reverse)).bind fun key =>
        (⟨settings, .afterKey key⟩ : Reading).step c := by
    simp [step, stepOutside, hc]
  rw [outcome_cons, hstep, Option.bind_assoc]
  simp only [outcome_cons]

/-- **One part of a key** is looked up, in any of its spellings. -/
theorem outcome_name {name : String} {s g : List Char} (hs : NameSpelling name s) (hg : IsGap g)
    {c : Char} (hc : isBare c = false) (rest : List Char) :
    (⟨settings, .lineStart⟩ : Reading).outcome (s ++ (g ++ c :: rest)) =
      (Key.ofName? name).bind fun key =>
        (⟨settings, .afterKey key⟩ : Reading).outcome (c :: rest) := by
  have hgap : ∀ key, (⟨settings, .afterKey key⟩ : Reading).outcome (g ++ c :: rest) =
      (⟨settings, .afterKey key⟩ : Reading).outcome (c :: rest) :=
    fun key => outcome_gap (.afterKey key) hg _
  simp only [← hgap]
  cases hs with
  | @bare s hne hbare =>
    have hbare : ∀ c ∈ s, isBare c = true := fun c hc => isBare_iff.mpr (hbare c hc)
    obtain ⟨d, s, rfl⟩ := List.exists_cons_of_ne_nil hne
    obtain ⟨hd, hbare⟩ := List.forall_mem_cons.mp hbare
    have hstep : (⟨settings, .lineStart⟩ : Reading).step d = some ⟨settings, .bareKey [d]⟩ := by
      simp [step, stepOutside, hd, isGap_bare hd]
    have hread : (s.reverse ++ [d]).reverse = d :: s := by simp
    rw [List.cons_append, outcome_of_step hstep, outcome_bareKey hbare, ← hread]
    -- the key ends at the gap or at the sign behind it
    cases g with
    | nil => exact outcome_nameRead hc rest
    | cons e g =>
      have he := isGap_iff.mpr (hg e (List.mem_cons_self ..))
      exact outcome_nameRead (isBare_gap he) _
  | quoted h =>
    have hopen : ∀ quote : Quote, (⟨settings, .lineStart⟩ : Reading).step quote.mark =
        some (inLine settings quote .key []) := by
      intro quote
      cases quote <;> rfl
    rw [outcome_keyString h hopen, behind, close, List.reverse_reverse, String.ofList_toList]
    cases Key.ofName? name <;> rfl

/-- **A key is looked up** from the start of a line on, with the sign behind it. -/
theorem outcome_path {path : List String} {g k h : List Char} (hg : IsGap g)
    (hk : PathSpelling path k) (hh : IsGap h) (rest : List Char) :
    (⟨settings, .lineStart⟩ : Reading).outcome (g ++ (k ++ (h ++ '=' :: rest))) =
      (Key.ofPath? path).bind fun key =>
        (⟨settings, .beforeValue key⟩ : Reading).outcome rest := by
  rw [outcome_gap .lineStart hg]
  cases hk with
  | last hs =>
    rw [outcome_name hs hh (by decide)]
    rfl
  | @dotted name path s i j t hs hi hj ht =>
    -- behind the first part the reader awaits the sign and not the dot
    have hparts : s ++ i ++ '.' :: (j ++ t) ++ (h ++ '=' :: rest) =
        s ++ (i ++ '.' :: (j ++ (t ++ (h ++ '=' :: rest)))) := by simp
    have hpath : Key.ofPath? (name :: path) = none := by cases ht <;> rfl
    rw [hparts, outcome_name hs hi (by decide), hpath]
    cases Key.ofName? name with
    | none => rfl
    | some key =>
      have hdot : (⟨settings, .afterKey key⟩ : Reading).step '.' = none := rfl
      exact outcome_of_stop hdot (j ++ (t ++ (h ++ '=' :: rest)))

/-! ## Values -/

/-- What is no string begins with no mark, what is no array with no bracket, and no value with a
character that may stand before it. -/
theorem exists_cons_of_valueText {value : Value} {v : List Char} (h : ValueText value v) :
    ∃ c s, v = c :: s ∧ Overlay.isGap c = false ∧ (value.text? = none → Quote.of? c = none) ∧
      ((∀ items, value ≠ .array items) → c ≠ '[') ∧
        c ≠ ']' ∧ c ≠ ',' ∧ ∀ next, endLine? next c = none := by
  cases h with
  | text h =>
    have hmark : ∀ quote : Quote, Overlay.isGap quote.mark = false ∧ quote.mark ≠ '[' ∧
        quote.mark ≠ ']' ∧ quote.mark ≠ ',' ∧ ∀ next, endLine? next quote.mark = none := by
      intro quote
      cases quote <;> exact ⟨rfl, by decide, by decide, by decide, fun _ => rfl⟩
    obtain ⟨quote, s, rfl⟩ : ∃ (quote : Quote) (s : List Char), v = quote.mark :: s := by
      cases h with
      | line h =>
        obtain ⟨quote, s, rfl, -⟩ := exists_content h
        exact ⟨quote, _, rfl⟩
      | block h hfirst => exact ⟨_, _, rfl⟩
      | head hb h => exact ⟨_, _, rfl⟩
    obtain ⟨hgap, hopen, hclose, hcomma, hend⟩ := hmark quote
    exact ⟨_, _, rfl, hgap, (nomatch ·), fun _ => hopen, hclose, hcomma, hend⟩
  | @array items t h =>
    exact ⟨_, _, rfl, rfl, fun _ => rfl, fun h => absurd rfl (h items), by decide, by decide,
      fun _ => rfl⟩
  | table h =>
    exact ⟨_, _, rfl, rfl, fun _ => rfl, fun _ => by decide, by decide, by decide, fun _ => rfl⟩
  | @scalar c s hc hs =>
    have hne : ∀ d ∈ [' ', '\t', '"', '\'', '[', ']', ',', '\n', '\r', '#'], c ≠ d := by
      rintro d hd rfl
      simp only [List.mem_cons, List.not_mem_nil, or_false] at hd
      rcases hd with rfl | rfl | rfl | rfl | rfl | rfl | rfl | rfl | rfl | rfl
      all_goals exact absurd hc (by unfold ScalarStart; decide)
    simp only [List.forall_mem_cons, List.not_mem_nil, false_imp_iff, implies_true,
      and_true] at hne
    obtain ⟨hspace, htab, hdouble, hsingle, hopen, hclose, hcomma, hfeed, hreturn, hsign⟩ := hne
    exact ⟨c, s, rfl, by simp [Overlay.isGap, hspace, htab],
      fun _ => by simp [Quote.of?, hdouble, hsingle], fun _ => hopen, hclose, hcomma,
      fun next => by simp [endLine?, hfeed, hreturn, hsign]⟩

theorem outcome_filler {before : List String} {ready : Bool} {f : List Char} (hf : Filler f)
    (rest : List Char) :
    (⟨settings, .items before ready⟩ : Reading).outcome (f ++ rest) =
      (⟨settings, .items before ready⟩ : Reading).outcome rest := by
  induction hf with
  | gap hg => exact outcome_gap (.items before ready) hg rest
  | @line g c b f hg hc hb hf ih =>
    have hparts : g ++ c ++ b ++ f ++ rest = g ++ (c ++ b ++ (f ++ rest)) := by simp
    rw [hparts, outcome_gap (.items before ready) hg,
      outcome_lineRest (endsLine_items before ready) hc hb]
    exact ih

/-- The closing bracket of a list, behind a comma or not. -/
theorem outcome_bracket {before : List String} (ready : Bool) (rest : List Char) :
    (⟨settings, .items before ready⟩ : Reading).outcome (']' :: rest) =
      (added? settings (.commands before)).bind fun given =>
        (⟨given, .lineEnd⟩ : Reading).outcome rest := by
  rw [outcome_cons, ← outcome_give]
  rfl

/-- An item of a list and what fills the space up to the comma or the bracket. -/
theorem outcome_item {before : List String} {value : Value} {f s g : List Char}
    (hf : Filler f) (hs : ValueText value s) (hg : Filler g) {rest : List Char}
    (hrest : NoMark rest) :
    (⟨settings, .items before true⟩ : Reading).outcome (f ++ (s ++ (g ++ rest))) =
      value.text?.bind fun name =>
        (⟨settings, .items (before ++ [name]) false⟩ : Reading).outcome rest := by
  rw [outcome_filler hf]
  cases htext : value.text? with
  | none =>
    obtain ⟨c, s, rfl, hgap, hmark, -, hclose, hcomma, hend⟩ := exists_cons_of_valueText hs
    refine outcome_of_stop ?_ _
    simp [step, stepOutside, stepItems, hgap, hclose, hcomma, hend, hmark htext]
  | some name =>
    cases hs with
    | text h =>
      obtain rfl := Option.some.inj htext
      have hopen : ∀ quote : Quote,
          (⟨settings, .items before true⟩ : Reading).step quote.mark =
            some ⟨settings, .string quote (.item before) (.opened 1) []⟩ := by
        intro quote
        cases quote <;> rfl
      rw [outcome_string h hopen (noMark_append (noMark_filler hg) hrest), behind, close,
        List.reverse_reverse, String.ofList_toList]
      exact outcome_filler hg rest
    | _ => cases htext

/-- **The rest of a list is read** behind the commands that are already there. -/
theorem outcome_array {items : List Value} {t : List Char} (h : ArrayText items t)
    (before : List String) (rest : List Char) :
    (⟨settings, .items before true⟩ : Reading).outcome (t ++ rest) =
      (items.mapM Value.text?).bind fun names =>
        (added? settings (.commands (before ++ names))).bind fun given =>
          (⟨given, .lineEnd⟩ : Reading).outcome rest := by
  induction items generalizing t before with
  | nil =>
    cases h with
    | close hf =>
      rw [List.append_assoc, outcome_filler hf, List.singleton_append, outcome_bracket]
      simp
  | cons value items ih =>
    cases h with
    | @last _ f s g hf hs hg =>
      have hmark : NoMark (']' :: rest) := noMark_cons (fun quote => by cases quote <;> decide) _
      have hparts : f ++ s ++ g ++ [']'] ++ rest = f ++ (s ++ (g ++ ']' :: rest)) := by simp
      rw [hparts, outcome_item hf hs hg hmark, List.mapM_cons]
      simp only [outcome_bracket]
      cases value.text? <;> simp
    | @cons _ _ f s g t hf hs hg ht =>
      have hmark : NoMark (',' :: (t ++ rest)) :=
        noMark_cons (fun quote => by cases quote <;> decide) _
      have hparts : f ++ s ++ g ++ ',' :: t ++ rest =
          f ++ (s ++ (g ++ ',' :: (t ++ rest))) := by simp
      rw [hparts, outcome_item hf hs hg hmark, List.mapM_cons]
      cases value.text? with
      | none => rfl
      | some name =>
        have hcomma : (⟨settings, .items (before ++ [name]) false⟩ : Reading).step ',' =
            some ⟨settings, .items (before ++ [name]) true⟩ := rfl
        have hitems := ih ht (before ++ [name])
        simp only [Option.bind_some, outcome_of_step hcomma, hitems]
        cases items.mapM Value.text? <;> simp

/-- **A value is taken or refused** as its kind fits the key. -/
theorem outcome_value {key : Key} {value : Value} {v : List Char} (hv : ValueText value v)
    {rest : List Char} (hrest : NoMark rest) :
    (⟨settings, .beforeValue key⟩ : Reading).outcome (v ++ rest) =
      (key.setting? value).bind fun setting => (added? settings setting).bind fun given =>
        (⟨given, .lineEnd⟩ : Reading).outcome rest := by
  obtain ⟨c, s, hc, hgap, hmark, hbracket, -⟩ := exists_cons_of_valueText hv
  cases key with
  | text setting =>
    cases htext : value.text? with
    | none =>
      have hnone : Key.setting? (.text setting) value = none := by rw [Key.setting?, htext]; rfl
      rw [hnone, hc]
      refine outcome_of_stop ?_ _
      simp [step, stepOutside, stepBeforeValue, hgap, hmark htext]
    | some text =>
      cases hv with
      | text h =>
        have hopen : ∀ quote : Quote,
            (⟨settings, .beforeValue (.text setting)⟩ : Reading).step quote.mark =
              some ⟨settings, .string quote (.value setting) (.opened 1) []⟩ := by
          intro quote
          cases quote <;> rfl
        rw [outcome_string h hopen hrest, behind, close, List.reverse_reverse,
          String.ofList_toList, outcome_give]
        rfl
      | _ => cases htext
  | commands =>
    by_cases harray : ∃ items, value = .array items
    · obtain ⟨items, rfl⟩ := harray
      cases hv with
      | array h =>
        have hopen : (⟨settings, .beforeValue .commands⟩ : Reading).step '[' =
            some ⟨settings, .items [] true⟩ := rfl
        rw [List.cons_append, outcome_of_step hopen, outcome_array h, Key.setting?]
        cases items.mapM Value.text? <;> rfl
    · have hnone : Key.setting? .commands value = none := by
        cases value with
        | array items => exact absurd ⟨items, rfl⟩ harray
        | _ => rfl
      rw [hnone, hc]
      refine outcome_of_stop ?_ _
      simp [step, stepOutside, stepBeforeValue, hgap,
        hbracket fun items h => harray ⟨items, h⟩]

/-- **An entry gives its setting or is refused.** -/
theorem outcome_keyValue {entry : KeyValue} {a : List Char} (ha : KeyValueText entry a)
    {rest : List Char} (hrest : NoMark rest) :
    (⟨settings, .lineStart⟩ : Reading).outcome (a ++ rest) =
      (entry.setting?.bind (added? settings)).bind fun given =>
        (⟨given, .lineEnd⟩ : Reading).outcome rest := by
  cases ha with
  | @intro g k h i v hg hk hh hi hv =>
    have hparts : g ++ k ++ h ++ '=' :: (i ++ v) ++ rest =
        g ++ (k ++ (h ++ '=' :: (i ++ (v ++ rest)))) := by simp
    have hvalue : ∀ key, (⟨settings, .beforeValue key⟩ : Reading).outcome (i ++ (v ++ rest)) = _ :=
      fun key => (outcome_gap (.beforeValue key) hi _).trans (outcome_value hv hrest)
    rw [hparts, outcome_path hg hk hh, KeyValue.setting?]
    simp only [hvalue, Option.bind_assoc]

/-! ## Whole texts -/

/-- **Reading lines gives the settings of their entries** behind those that are there. -/
theorem outcome_lines {entries : List KeyValue} {t : List Char} (h : LinesText entries t) :
    (⟨settings, .lineStart⟩ : Reading).outcome t = settingsOf? settings entries := by
  induction h generalizing settings with
  | done hg hc =>
    rw [outcome_gap .lineStart hg]
    exact outcome_lastLine endsLine_lineStart (by simp) hc
  | @last entry a g c ha hg hc =>
    have hend : ∀ given, (⟨given, .lineEnd⟩ : Reading).outcome (g ++ c) = some given := by
      intro given
      rw [outcome_gap .lineEnd hg]
      exact outcome_lastLine endsLine_lineEnd (by simp) hc
    rw [List.append_assoc, outcome_keyValue ha (noMark_append (noMark_gap hg) (noMark_comment hc)),
      settingsOf?_cons]
    simp only [hend]
    rfl
  | @skip entries g c b t hg hc hb ht ih =>
    have hparts : g ++ c ++ b ++ t = g ++ (c ++ b ++ t) := by simp
    rw [hparts, outcome_gap .lineStart hg, outcome_lineRest endsLine_lineStart hc hb]
    exact ih
  | @give entry entries a g c b t ha hg hc hb ht ih =>
    have hparts : a ++ g ++ c ++ b ++ t = a ++ (g ++ (c ++ b ++ t)) := by simp
    have hmark : NoMark (g ++ (c ++ b ++ t)) := by
      rw [List.append_assoc c]
      exact noMark_append (noMark_gap hg)
        (noMark_append (noMark_comment hc) (noMark_lineBreak hb t))
    have hnext : ∀ given, (⟨given, .lineEnd⟩ : Reading).outcome (g ++ (c ++ b ++ t)) =
        settingsOf? given entries := by
      intro given
      rw [outcome_gap .lineEnd hg, outcome_lineRest endsLine_lineEnd hc hb]
      exact ih
    rw [hparts, outcome_keyValue ha hmark, settingsOf?_cons]
    simp only [hnext]

end Reading

/-- **A text is read as the settings of its entries**, and as nothing when one of them is
refused. -/
theorem read?_of_document {entries : List KeyValue} {text : String} (h : Document entries text) :
    read? text = settingsOf? [] entries :=
  Reading.outcome_lines h

/-! ## The texts of a list of settings -/

/-- The entry that gives a setting. -/
def keyValueOf : Setting → KeyValue
  | .text setting value => ⟨[Key.name (.text setting)], .text value⟩
  | .commands names => ⟨[Key.name .commands], .array (names.map .text)⟩

theorem mapM_text? (names : List String) :
    (names.map Value.text).mapM Value.text? = some names := by
  induction names with
  | nil => rfl
  | cons name names ih => simp [List.mapM_cons, ih, Value.text?]

theorem setting?_keyValueOf (setting : Setting) : (keyValueOf setting).setting? = some setting := by
  cases setting with
  | text setting value =>
    simp [keyValueOf, KeyValue.setting?, Key.ofPath?, Key.setting?, Value.text?]
  | commands names =>
    simp only [keyValueOf, KeyValue.setting?, Key.ofPath?, Key.ofName?_name, Option.bind_some,
      Key.setting?, mapM_text?, Option.map_some]

theorem settingsOf?_keyValueOf {settings given : List Setting}
    (hkeys : ((settings ++ given).map keyOf).Nodup) :
    settingsOf? settings (given.map keyValueOf) = some (settings ++ given) := by
  induction given generalizing settings with
  | nil => simp [settingsOf?]
  | cons setting given ih =>
    have hnew : keyOf setting ∉ settings.map keyOf := by
      rw [List.map_append, List.map_cons, List.nodup_append] at hkeys
      intro hmem
      exact hkeys.2.2 _ hmem _ (List.mem_cons_self ..) rfl
    have hmove : settings ++ setting :: given = settings ++ [setting] ++ given := by simp
    rw [List.map_cons, settingsOf?_cons, setting?_keyValueOf, hmove]
    simp only [Option.bind_some, added?, if_neg hnew]
    exact ih (hmove ▸ hkeys)

theorem pathSpelling_of_keySpelling {key : Key} {k : List Char} (h : KeySpelling key k) :
    PathSpelling [key.name] k := by
  have hbare : ∀ c ∈ key.name.toList, BareChar c := by
    have hall : ∀ key ∈ Key.all, key.name.toList.all
        (fun c => c.isAlphanum || c == '_' || c == '-') = true := by decide
    intro c hc
    simpa [BareChar, or_assoc] using List.all_eq_true.mp (hall key (Key.mem_all key)) c hc
  have hne : key.name.toList ≠ [] := by
    have hall : ∀ key ∈ Key.all, key.name.toList ≠ [] := by decide
    exact hall key (Key.mem_all key)
  cases h with
  | bare hword =>
    obtain rfl := keyWord_iff.mp hword
    have hname := NameSpelling.bare hne hbare
    rw [String.ofList_toList] at hname
    exact .last hname
  | quoted hword hs =>
    obtain rfl := keyWord_iff.mp hword
    exact .last (.quoted hs)

theorem arrayText_of_items {names : List String} {t : List Char} (h : Items names t) :
    ArrayText (names.map .text) t := by
  induction h with
  | close hf => exact .close hf
  | last hf hs hg => exact .last hf (.text (.line hs)) hg
  | cons hf hs hg ht ih => exact .cons hf (.text (.line hs)) hg ih

theorem keyValueText_of_assignment {setting : Setting} {a : List Char} (h : Assignment setting a) :
    KeyValueText (keyValueOf setting) a := by
  cases h with
  | intro hg hk hh hi hv =>
    have hk := pathSpelling_of_keySpelling hk
    cases hv with
    | text h =>
      exact @KeyValueText.intro (keyValueOf (.text _ _)) _ _ _ _ _ hg hk hh hi (.text (.line h))
    | commands h =>
      exact @KeyValueText.intro (keyValueOf (.commands _)) _ _ _ _ _ hg hk hh hi
        (.array (arrayText_of_items h))

theorem linesText_of_spells {given : List Setting} {t : List Char} (h : Spells given t) :
    LinesText (given.map keyValueOf) t := by
  induction h with
  | done hg hc => exact .done hg hc
  | last ha hg hc => exact .last (keyValueText_of_assignment ha) hg hc
  | skip hg hc hb ht ih => exact .skip hg hc hb ih
  | give ha hg hc hb ht ih => exact .give (keyValueText_of_assignment ha) hg hc hb ih

/-- **Every spelling is read as its settings**, in their order. -/
theorem read?_of_spells {given : List Setting} {text : String} (h : Spells given text.toList)
    (hkeys : (given.map keyOf).Nodup) : read? text = some given := by
  have houtcome : (⟨[], .lineStart⟩ : Reading).outcome text.toList = some given :=
    (Reading.outcome_lines (linesText_of_spells h)).trans (settingsOf?_keyValueOf hkeys)
  have hmark : withoutMark text.toList = text.toList := by
    unfold withoutMark
    split
    · next rest htext =>
      -- no line of a spelling begins with a byte order mark
      rw [htext, Reading.outcome_cons] at houtcome
      cases houtcome
    · rfl
  rw [read?, hmark]
  exact houtcome

end DocCoverage.Overlay
