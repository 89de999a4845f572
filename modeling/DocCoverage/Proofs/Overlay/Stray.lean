import DocCoverage.Proofs.LoadedLayout
import DocCoverage.Proofs.Overlay.Residue

/-! # No stray entry of an overlay is ignored

A misspelt key, a setting that comes twice or a value of the wrong kind must not leave another
value in force without a word.  `Stray` says which entries are no settings behind those that an
overlay has, and `Gives` what the others set, both by the words of the keys and the kinds of the
values.

An overlay that loads may be laid out in any way, so its entries are not known from its text by
inspection.  That it has entries at all is `exists_document_of_read?`; they are then those of
the settings that were read (`eq_of_document`), and one line more is one entry more
(`document_append`).  So reading the longer text comes down to adding one entry to these
settings, which fails for stray entries and for no others. -/

namespace DocCoverage
namespace Overlay

/-! ## Stray entries -/

/-- The value is of the kind that the key takes. -/
inductive Fits : Key → Value → Prop
  | text {setting : TextSetting} {value : String} : Fits (.text setting) (.text value)
  | commands {items : List Value} (h : ∀ item ∈ items, ∃ name, item = .text name) :
      Fits .commands (.array items)

/-- The entry is no setting behind the given ones: no setting has its key, its key has been
given, or the setting takes values of another kind. -/
inductive Stray (given : List KeyValue) (entry : KeyValue) : Prop
  | unknown (h : ∀ key word, KeyWord key word → entry.path ≠ [word])
  | repeated {other : KeyValue} (hother : other ∈ given) (hpath : other.path = entry.path)
  | illTyped {key : Key} {word : String} (hword : KeyWord key word) (hpath : entry.path = [word])
      (hkind : ¬Fits key entry.value)

/-- The entry gives the setting. -/
inductive Gives : KeyValue → Setting → Prop
  | text {setting : TextSetting} {word value : String} (hword : KeyWord (.text setting) word) :
      Gives ⟨[word], .text value⟩ (.text setting value)
  | commands {word : String} {names : List String} (hword : KeyWord .commands word) :
      Gives ⟨[word], .array (names.map .text)⟩ (.commands names)

/-! ## The entry of a setting -/

theorem gives_iff {entry : KeyValue} {setting : Setting} :
    Gives entry setting ↔ entry = keyValueOf setting := by
  constructor
  · intro h
    cases h with
    | text hword => rw [keyWord_iff.mp hword, keyValueOf]
    | commands hword => rw [keyWord_iff.mp hword, keyValueOf]
  · rintro rfl
    cases setting with
    | text setting value => exact .text (keyWord_iff.mpr rfl)
    | commands names => exact .commands (keyWord_iff.mpr rfl)

theorem path_keyValueOf (setting : Setting) :
    (keyValueOf setting).path = [(keyOf setting).name] := by
  cases setting <;> rfl

/-- Two settings have the same key when their entries do. -/
theorem keyOf_eq_of_path {setting other : Setting}
    (h : (keyValueOf setting).path = (keyValueOf other).path) : keyOf setting = keyOf other := by
  rw [path_keyValueOf, path_keyValueOf] at h
  have hname := congrArg Key.ofName? (List.cons.inj h).1
  rw [Key.ofName?_name, Key.ofName?_name] at hname
  exact Option.some.inj hname

theorem exists_names {items : List Value} (h : ∀ item ∈ items, ∃ name, item = .text name) :
    ∃ names : List String, items = names.map .text := by
  induction items with
  | nil => exact ⟨[], rfl⟩
  | cons item items ih =>
    obtain ⟨⟨name, rfl⟩, hitems⟩ := List.forall_mem_cons.mp h
    obtain ⟨names, rfl⟩ := ih hitems
    exact ⟨name :: names, rfl⟩

/-- What is not stray gives a setting. -/
theorem exists_gives_of_not_stray {given : List KeyValue} {entry : KeyValue}
    (h : ¬Stray given entry) : ∃ setting, Gives entry setting := by
  obtain ⟨key, word, hword, hpath⟩ : ∃ key word, KeyWord key word ∧ entry.path = [word] := by
    by_contra hunknown
    exact h (.unknown fun key word hword hpath => hunknown ⟨key, word, hword, hpath⟩)
  have hkind : Fits key entry.value := by
    by_contra hkind
    exact h (.illTyped hword hpath hkind)
  obtain ⟨path, value⟩ := entry
  obtain rfl : path = [word] := hpath
  cases hkind with
  | text => exact ⟨_, .text hword⟩
  | commands hitems =>
    obtain ⟨names, rfl⟩ := exists_names hitems
    exact ⟨_, .commands hword⟩

/-- What gives a setting is stray only if its key has been given. -/
theorem exists_repeated_of_stray {given : List KeyValue} {setting : Setting}
    (h : Stray given (keyValueOf setting)) :
    ∃ other ∈ given, other.path = (keyValueOf setting).path := by
  cases h with
  | unknown h => exact absurd (path_keyValueOf setting) (h _ _ (keyWord_iff.mpr rfl))
  | repeated hother hpath => exact ⟨_, hother, hpath⟩
  | @illTyped key word hword hpath hkind =>
    have hkey : key.name = (keyOf setting).name := by
      rw [path_keyValueOf] at hpath
      rw [← keyWord_iff.mp hword, (List.cons.inj hpath).1]
    have hkey := congrArg Key.ofName? hkey
    rw [Key.ofName?_name, Key.ofName?_name] at hkey
    obtain rfl := Option.some.inj hkey
    refine absurd ?_ hkind
    cases setting with
    | text setting value => exact .text
    | commands names => exact .commands (by simp)

/-! ## The entries that have been read -/

theorem items_of_mapM_text? {items : List Value} {names : List String}
    (h : items.mapM Value.text? = some names) : items = names.map .text := by
  induction items generalizing names with
  | nil => cases h; rfl
  | cons item items ih =>
    rw [List.mapM_cons] at h
    obtain ⟨name, hname, hrest⟩ := Option.bind_eq_some_iff.mp h
    obtain ⟨rest, hitems, hnames⟩ := Option.bind_eq_some_iff.mp hrest
    cases hnames
    cases item with
    | text value => cases hname; rw [ih hitems]; rfl
    | _ => cases hname

/-- An entry that gives a setting is the entry of this setting. -/
theorem eq_keyValueOf {entry : KeyValue} {setting : Setting}
    (h : entry.setting? = some setting) : entry = keyValueOf setting := by
  obtain ⟨path, value⟩ := entry
  obtain ⟨key, hkey, hvalue⟩ := Option.bind_eq_some_iff.mp h
  obtain rfl : path = [key.name] := by
    match path, hkey with
    | [name], hkey =>
      have hname := List.find?_some hkey
      rw [eq_of_beq hname]
  cases key with
  | text setting =>
    obtain ⟨text, htext, rfl⟩ := Option.map_eq_some_iff.mp hvalue
    cases value with
    | text value => cases htext; rfl
    | _ => cases htext
  | commands =>
    cases value with
    | array items =>
      obtain ⟨names, hnames, rfl⟩ := Option.map_eq_some_iff.mp hvalue
      rw [items_of_mapM_text? hnames, keyValueOf]
    | _ => cases hvalue

theorem eq_of_added? {settings after : List Setting} {setting : Setting}
    (h : added? settings setting = some after) : after = settings ++ [setting] := by
  rw [added?] at h
  split at h
  · cases h
  · exact (Option.some.inj h).symm

/-- Entries that can all be taken are those of the settings that they add. -/
theorem exists_settings_of_settingsOf? {before after : List Setting} {given : List KeyValue}
    (h : settingsOf? before given = some after) :
    ∃ settings, given = settings.map keyValueOf ∧ after = before ++ settings := by
  induction given generalizing before with
  | nil => exact ⟨[], rfl, by simpa using (Option.some.inj h).symm⟩
  | cons entry given ih =>
    rw [settingsOf?_cons] at h
    obtain ⟨between, hbetween, hrest⟩ := Option.bind_eq_some_iff.mp h
    obtain ⟨setting, hsetting, hadded⟩ := Option.bind_eq_some_iff.mp hbetween
    obtain ⟨settings, rfl, rfl⟩ := ih hrest
    refine ⟨setting :: settings, ?_, ?_⟩
    · rw [eq_keyValueOf hsetting, List.map_cons]
    · rw [eq_of_added? hadded, List.append_assoc, List.singleton_append]

/-- **The entries of a text that is read** are those of its settings. -/
theorem eq_of_document {given : List KeyValue} {text : String} {settings : List Setting}
    (hgiven : Document given text) (hread : read? text = some settings) :
    given = settings.map keyValueOf := by
  rw [read?_of_document hgiven] at hread
  obtain ⟨found, rfl, rfl⟩ := exists_settings_of_settingsOf? hread
  rfl

/-! ## One entry more -/

theorem settingsOf?_stray {settings : List Setting} {entry : KeyValue}
    (h : Stray (settings.map keyValueOf) entry) : settingsOf? settings [entry] = none := by
  rw [settingsOf?_cons]
  cases hsetting : entry.setting? with
  | none => rfl
  | some setting =>
    obtain rfl := eq_keyValueOf hsetting
    obtain ⟨other, hother, hpath⟩ := exists_repeated_of_stray h
    obtain ⟨old, hold, rfl⟩ := List.mem_map.mp hother
    have hmem : keyOf setting ∈ settings.map keyOf :=
      List.mem_map.mpr ⟨old, hold, keyOf_eq_of_path hpath⟩
    rw [Option.bind_some, added?, if_pos hmem]
    rfl

theorem exists_gives_of_settingsOf? {settings : List Setting} {entry : KeyValue}
    (h : ¬Stray (settings.map keyValueOf) entry) :
    ∃ setting, Gives entry setting ∧
      settingsOf? settings [entry] = some (settings ++ [setting]) := by
  obtain ⟨setting, hgives⟩ := exists_gives_of_not_stray h
  obtain rfl := gives_iff.mp hgives
  have hnew : keyOf setting ∉ settings.map keyOf := by
    intro hmem
    obtain ⟨old, hold, hkey⟩ := List.mem_map.mp hmem
    refine h (.repeated (List.mem_map_of_mem hold) ?_)
    rw [path_keyValueOf, path_keyValueOf, hkey]
  refine ⟨setting, hgives, ?_⟩
  rw [settingsOf?_cons, setting?_keyValueOf, Option.bind_some, added?, if_neg hnew]
  rfl

/-- An entry on the next line, however the lines before it end. -/
theorem linesText_append {given : List KeyValue} {entry : KeyValue} {t a : List Char}
    (ht : LinesText given t) (ha : KeyValueText entry a) :
    LinesText (given ++ [entry]) (t ++ '\n' :: a) := by
  have hlast := LinesText.last ha isGap_nil .absent
  rw [List.append_nil, List.append_nil] at hlast
  induction ht with
  | done hg hc => simpa using LinesText.skip hg hc .lineFeed hlast
  | last hb hg hc => simpa using LinesText.give hb hg hc .lineFeed hlast
  | skip hg hc hb ht ih => simpa using LinesText.skip hg hc hb ih
  | give hfirst hg hc hb ht ih => simpa using LinesText.give hfirst hg hc hb ih

theorem withoutMark_append {s t : List Char} {c : Char} (hc : c ≠ '\ufeff') :
    withoutMark (s ++ c :: t) = withoutMark s ++ c :: t := by
  cases s with
  | nil => simp [withoutMark, hc]
  | cons d s => by_cases hd : d = '\ufeff' <;> simp [withoutMark, hd]

theorem document_append {given : List KeyValue} {text k v : String} {path : List String}
    {value : Value} (hgiven : Document given text) (hk : PathSpelling path k.toList)
    (hv : ValueText value v.toList) :
    Document (given ++ [⟨path, value⟩]) (text ++ "\n" ++ k ++ " = " ++ v) := by
  have hspace : IsGap [' '] := by decide
  have hentry := @KeyValueText.intro ⟨path, value⟩ [] _ _ _ _ isGap_nil hk hspace hspace hv
  have hparts : (text ++ "\n" ++ k ++ " = " ++ v).toList =
      text.toList ++ '\n' :: ([] ++ k.toList ++ [' '] ++ '=' :: ([' '] ++ v.toList)) := by
    simp [String.toList_append]
  rw [Document, hparts, withoutMark_append (by decide)]
  exact linesText_append hgiven hentry

end Overlay

/-! ## Loading -/

open Overlay

/-- The choice of one setting alone. -/
def Choice.only : Setting → Choice
  | .text setting value => ⟨fun asked => if asked = setting then some value else none, none⟩
  | .commands names => ⟨fun _ => none, some names⟩

theorem Choice.has_only {setting other : Setting} :
    (only setting).Has other ↔ other = setting := by
  cases setting <;> cases other <;> simp [only, Has, eq_comm]

namespace Layout

/-- The path of the overlay of a run: the one that is named, or that at the root. -/
def overlayPath (root : Path) (config : Option Path) : Path :=
  config.getD (root.join (.ofString overlayName))

/-- An overlay is loaded as it is read, and the run fails when it cannot be read. -/
theorem result_load {disk : Disk} {root : Path} {config : Option Path} {text : String}
    (htext : disk.overlayText? root config = some text) :
    (load disk root config).result =
      match read? text with
      | some given => .ok ((standard root).overlaid given)
      | none => .error (.config (overlayPath root config) text) := by
  have hoverlay : ∀ path, (disk.readText path).toOption = some text →
      (loadOverlay disk root path).result =
        match read? text with
        | some given => .ok ((standard root).overlaid given)
        | none => .error (.config path text) := by
    intro path hpath
    cases hread : disk.readText path with
    | error cause => rw [hread] at hpath; cases hpath
    | ok found =>
      rw [hread] at hpath
      obtain rfl := Option.some.inj hpath
      cases hsettings : read? found with
      | some given => exact result_loadOverlay root hread hsettings
      | none =>
        simp only [loadOverlay, hread, Traced.ofDisk, Traced.result_bind, Except.bind, hsettings]
        rfl
  cases config with
  | some path => exact hoverlay path htext
  | none =>
    simp only [Disk.overlayText?] at htext
    split at htext
    · next hthere =>
      rw [load, if_pos hthere]
      exact hoverlay _ htext
    · cases htext

/-- **No stray entry is ignored.**  To an overlay that loads, one line is added with any key of
TOML and any value.  If the entry is stray behind those that the overlay has, the run fails and
names the overlay; otherwise the layout loads with the field of the key changed and no other. -/
theorem load_appended {disk more : Disk} {root : Path} {config : Option Path} {layout : Layout}
    {text k v : String} {path : List String} {value : Value}
    (htext : disk.overlayText? root config = some text)
    (hmore : more.overlayText? root config = some (text ++ "\n" ++ k ++ " = " ++ v))
    (hload : (load disk root config).result = .ok layout)
    (hk : PathSpelling path k.toList) (hv : ValueText value v.toList) :
    (∃ given, Document given text) ∧ ∀ given, Document given text →
      (Stray given ⟨path, value⟩ → (load more root config).result =
        .error (.config (overlayPath root config) (text ++ "\n" ++ k ++ " = " ++ v))) ∧
      (¬Stray given ⟨path, value⟩ → ∃ setting changed, Gives ⟨path, value⟩ setting ∧
        (load more root config).result = .ok changed ∧
          (Choice.only setting).Replaces layout changed) := by
  rw [result_load htext] at hload
  cases hread : read? text with
  | none => rw [hread] at hload; cases hload
  | some settings =>
    rw [hread] at hload
    obtain rfl := Except.ok.inj hload
    refine ⟨exists_document_of_read? hread, ?_⟩
    intro given hgiven
    have hmoreRead : read? (text ++ "\n" ++ k ++ " = " ++ v) =
        settingsOf? settings [⟨path, value⟩] := by
      rw [read?_of_document (document_append hgiven hk hv), settingsOf?_append,
        ← read?_of_document hgiven, hread]
      rfl
    obtain rfl := eq_of_document hgiven hread
    rw [result_load hmore, hmoreRead]
    constructor
    · intro hstray
      rw [settingsOf?_stray hstray]
    · intro hnew
      obtain ⟨setting, hgives, hsettings⟩ := exists_gives_of_settingsOf? hnew
      have hchanged : (standard root).overlaid (settings ++ [setting]) =
          ((standard root).overlaid settings).overlaid [setting] := List.foldl_append
      refine ⟨setting, _, hgives, by rw [hsettings], ?_⟩
      rw [hchanged]
      refine Choice.replaces_overlaid (fun other => ?_) _
      rw [List.mem_singleton, Choice.has_only]

/-- The disk with the handbook, with a line more in its overlay. -/
def handbookDiskWith (k v : String) : Disk where
  leadsSomewhere path := path = .ofString "/r/docdrift.toml"
  readText path :=
    if path = .ofString "/r/docdrift.toml" then .ok (handbookText ++ "\n" ++ k ++ " = " ++ v)
    else .error .notFound
  entries _ := .error .notFound

theorem read?_handbookText : read? handbookText = some
    [.text (.path .apiDoc) "docs/a.md", .text .sourceExtension "..cs",
      .commands ["PingCommand", " "]] := by
  decide +kernel

/-- A text on two lines that are joined. -/
theorem valueText_joined : ValueText (.text "Is") "\"\"\"\nI\\\n  s\"\"\"".toList := by
  have hclose : Block .double [] "\"\"\"".toList := @Block.close .double 0 (by decide)
  have hlast : Block .double ['s'] "s\"\"\"".toList :=
    @body_plain .double true 's' _ _ (by decide) (by decide) (by decide) hclose
  have hjoint : Joint "\n  ".toList :=
    @Joint.line [] ['\n'] [' ', ' '] isGap_nil .lineFeed (by decide)
  have hsolid : Solid "s\"\"\"".toList := by simp [Solid, BreaksLine]
  have hjoined : Block .double ['s'] "\\\n  s\"\"\"".toList :=
    @Block.join .double 0 _ ['s'] _ (by decide) rfl hjoint hsolid hlast
  have hblock : Block .double ['I', 's'] "I\\\n  s\"\"\"".toList :=
    @body_plain .double true 'I' _ _ (by decide) (by decide) (by decide) hjoined
  exact @ValueText.text "Is" _ (@TextSpelling.head .double ['\n'] _ _ .lineFeed hblock)

/-- A misspelt key is refused, also in an overlay without a line break at its end; a key that
is new is taken, here with both words spelled in an unusual way. -/
theorem load_handbook_appended :
    handbookDisk.overlayText? (.ofString "/r") none = some handbookText ∧
      (handbookDiskWith "api_docs" "'b.md'").overlayText? (.ofString "/r") none =
        some (handbookText ++ "\n" ++ "api_docs" ++ " = " ++ "'b.md'") ∧
      (∃ layout, (load handbookDisk (.ofString "/r") none).result = .ok layout) ∧
      PathSpelling ["api_docs"] "api_docs".toList ∧ ValueText (.text "b.md") "'b.md'".toList ∧
      (load (handbookDiskWith "api_docs" "'b.md'") (.ofString "/r") none).result =
        .error (.config (.ofString "/r/docdrift.toml")
          (handbookText ++ "\n" ++ "api_docs" ++ " = " ++ "'b.md'")) ∧
      ∃ setting changed, Gives ⟨["policy_prefix"], .text "Is"⟩ setting ∧
        (load (handbookDiskWith "'policy_prefix'" "\"\"\"\nI\\\n  s\"\"\"") (.ofString "/r")
          none).result = .ok changed := by
  have htext : handbookDisk.overlayText? (.ofString "/r") none = some handbookText := rfl
  have hload : ∃ layout, (load handbookDisk (.ofString "/r") none).result = .ok layout := by
    rw [result_load htext, read?_handbookText]
    exact ⟨_, rfl⟩
  have hmore : ∀ k v, (handbookDiskWith k v).overlayText? (.ofString "/r") none =
      some (handbookText ++ "\n" ++ k ++ " = " ++ v) := fun k v => rfl
  have hword : PathSpelling ["api_docs"] "api_docs".toList :=
    .last (.bare (by decide) (forall_of_all (by decide)))
  have hvalue : ValueText (.text "b.md") "'b.md'".toList :=
    .text (.line (.literal (forall_of_all (by decide))))
  obtain ⟨layout, hlayout⟩ := hload
  obtain ⟨⟨given, hgiven⟩, hrefused⟩ :=
    load_appended htext (hmore _ _) hlayout hword hvalue
  refine ⟨htext, hmore _ _, ⟨layout, hlayout⟩, hword, hvalue, ?_, ?_⟩
  · have hother : ∀ key ∈ Key.all, "api_docs" ≠ key.name := by decide
    refine (hrefused given hgiven).1 (.unknown fun key word hword hpath => ?_)
    exact hother key (Key.mem_all key) ((List.cons.inj hpath).1.trans (keyWord_iff.mp hword))
  · have hquoted : PathSpelling ["policy_prefix"] "'policy_prefix'".toList :=
      .last (.quoted (.literal (forall_of_all (by decide))))
    have htaken := load_appended htext (hmore _ _) hlayout hquoted valueText_joined
    obtain ⟨setting, changed, hgives, hchanged, -⟩ := (htaken.2 given hgiven).2 (by
      intro hstray
      rw [eq_of_document hgiven read?_handbookText] at hstray
      obtain ⟨other, hother, hpath⟩ :=
        @exists_repeated_of_stray _ (.text .policyBeginning "Is") hstray
      revert hpath
      simp only [List.map_cons, List.map_nil, List.mem_cons, List.not_mem_nil, or_false] at hother
      rcases hother with rfl | rfl | rfl <;> decide)
    exact ⟨setting, changed, hgives, hchanged⟩

end Layout
end DocCoverage
