import Mathlib.Data.List.Nodup
import DocCoverage.Overlay.Load
import DocCoverage.Proofs.Evaluation
import DocCoverage.Proofs.Overlay.Decoding

/-! # An overlay replaces exactly what it gives

A user chooses values for some settings (`Choice`) and writes them down in any order and
any spelling (`Choice.Spelled`).  The layout that is loaded has the chosen values in their
own fields and the standard values in all others (`Choice.Replaces`).  What a value is
turned into on its way, dots and blanks taken off, is said by relations between the two
texts and not by the functions that compute it. -/

namespace DocCoverage

/-! ## What is chosen -/

/-- The values that an overlay is to give, each there or not. -/
structure Choice where
  texts : TextSetting → Option String
  commands : Option (List String)

namespace Choice

/-- The setting is one of the chosen ones, with its value. -/
def Has (choice : Choice) : Setting → Prop
  | .text setting value => choice.texts setting = some value
  | .commands names => choice.commands = some names

/-- The text gives every chosen value once, in some order, and nothing else. -/
def Spelled (choice : Choice) (text : String) : Prop :=
  ∃ given : List Setting, given.Nodup ∧ (∀ setting, setting ∈ given ↔ choice.Has setting) ∧
    Overlay.Spells given text.toList

end Choice

/-! ## What the values mean -/

/-- The second text is the first one without the dots at its beginning. -/
def DropsDots (value rest : String) : Prop :=
  ∃ dots : List Char, value.toList = dots ++ rest.toList ∧ (∀ c ∈ dots, c = '.') ∧
    rest.toList.head? ≠ some '.'

/-- The second text is the first one without the blanks at its two ends. -/
def Trims (value core : String) : Prop :=
  ∃ before behind : List Char, value.toList = before ++ core.toList ++ behind ∧
    (∀ c ∈ before ++ behind, Text.isBlank c = true) ∧
    ∀ c, core.toList.head? = some c ∨ core.toList.getLast? = some c → Text.isBlank c = false

/-- The second list is the first one, in order, with every name trimmed and those left out
of which nothing remains. -/
def TrimsAll (names pinned : List String) : Prop :=
  ∃ trim : String → String, (∀ name, Trims name (trim name)) ∧
    pinned = (names.map trim).filter (· ≠ "")

/-- A field has what the given value means, or its old value if none is given. -/
inductive Put {α β : Type} (means : α → β → Prop) : Option α → β → β → Prop
  | given {value : α} {old new : β} (h : means value new) : Put means (some value) old new
  | absent {old : β} : Put means none old old

/-- The layout is the first one with the chosen values in their fields. -/
structure Choice.Replaces (choice : Choice) (base layout : Layout) : Prop where
  root : layout.root = base.root
  paths : ∀ setting, Put (fun value path => path = Path.ofString value)
    (choice.texts (.path setting)) (base.pathOf setting) (layout.pathOf setting)
  sourceExtension : Put DropsDots (choice.texts .sourceExtension)
    base.sourceExtension layout.sourceExtension
  controllerBaseClass : Put Eq (choice.texts .controllerBaseClass)
    base.controllerBaseClass layout.controllerBaseClass
  policyBeginning : Put Eq (choice.texts .policyBeginning)
    base.policyBeginning layout.policyBeginning
  pinnedCommands : Put TrimsAll choice.commands base.pinnedCommands layout.pinnedCommands

/-! ## The normalisations -/

/-- What is dropped from the beginning of a list satisfies the test, and what then comes
first does not. -/
theorem exists_dropWhile (p : Char → Bool) (s : List Char) :
    ∃ before, s = before ++ s.dropWhile p ∧ (∀ c ∈ before, p c = true) ∧
      ∀ c, (s.dropWhile p).head? = some c → p c = false := by
  refine ⟨s.takeWhile p, List.takeWhile_append_dropWhile.symm,
    List.all_eq_true.mp List.all_takeWhile, ?_⟩
  intro c hc
  have hfirst := List.head?_dropWhile_not p s
  rw [hc] at hfirst
  exact hfirst

theorem dropsDots_withoutDots (value : String) : DropsDots value (Setting.withoutDots value) := by
  obtain ⟨dots, hvalue, hdots, hfirst⟩ := exists_dropWhile (· == '.') value.toList
  rw [DropsDots, Setting.withoutDots, String.toList_ofList]
  refine ⟨dots, hvalue, fun c hc => beq_iff_eq.mp (hdots c hc), ?_⟩
  intro hdot
  exact absurd (hfirst '.' hdot) (by decide)

theorem trims_trimBlanks (value : String) :
    Trims value (String.ofList (Text.trimBlanks value.toList)) := by
  obtain ⟨before, hvalue, hbefore, hfirst⟩ := exists_dropWhile Text.isBlank value.toList
  obtain ⟨behind, hrest, hbehind, hlast⟩ :=
    exists_dropWhile Text.isBlank (value.toList.dropWhile Text.isBlank).reverse
  rw [Trims, String.toList_ofList, Text.trimBlanks]
  -- the second cut is made from behind: the core and what it loses, turned around
  generalize value.toList.dropWhile Text.isBlank = rest at *
  generalize rest.reverse.dropWhile Text.isBlank = core at *
  have hcore : rest = core.reverse ++ behind.reverse := by
    rw [← List.reverse_append, ← hrest, List.reverse_reverse]
  refine ⟨before, behind.reverse, ?_, ?_, ?_⟩
  · rw [hvalue, hcore, List.append_assoc]
  · intro c hc
    rcases List.mem_append.mp hc with hc | hc
    · exact hbefore c hc
    · exact hbehind c (List.mem_reverse.mp hc)
  · rintro c (hc | hc)
    · apply hfirst c
      rw [hcore, List.head?_append, hc]
      rfl
    · apply hlast c
      rwa [List.getLast?_reverse] at hc

theorem trimsAll_trimmed (names : List String) : TrimsAll names (Setting.trimmed names) :=
  ⟨fun name => String.ofList (Text.trimBlanks name.toList), trims_trimBlanks, rfl⟩

/-! ## One field -/

/-- Under an overlay a field has its old value or what one of its own settings means.
`make` makes the settings of the field from their values; no other setting changes it. -/
theorem overlaid_cases {α β : Type} {make : α → Setting} {field : Layout → β}
    {means : α → β → Prop}
    (hown : ∀ layout value, means value (field (Layout.assign layout (make value).tidied)))
    (hframe : ∀ layout setting, (∀ value, setting ≠ make value) →
      field (Layout.assign layout setting.tidied) = field layout)
    (given : List Setting) (base : Layout) :
    (field (base.overlaid given) = field base ∧ ∀ value, make value ∉ given) ∨
      ∃ value, make value ∈ given ∧ means value (field (base.overlaid given)) := by
  -- a later setting of the field hides an earlier one, so the rest is asked first
  induction given generalizing base with
  | nil => exact .inl ⟨rfl, fun value h => nomatch h⟩
  | cons setting given ih =>
    rcases ih (base.assign setting.tidied) with ⟨hkept, hnone⟩ | ⟨value, hvalue, hmeans⟩
    · by_cases hset : ∃ value, setting = make value
      · obtain ⟨value, rfl⟩ := hset
        refine .inr ⟨value, List.mem_cons_self .., ?_⟩
        exact hkept ▸ hown base value
      · have hother : ∀ value, setting ≠ make value := fun value h => hset ⟨value, h⟩
        refine .inl ⟨hkept.trans (hframe base setting hother), ?_⟩
        intro value hmem
        rcases List.mem_cons.mp hmem with h | h
        · exact hother value h.symm
        · exact hnone value h
    · exact .inr ⟨value, List.mem_cons_of_mem _ hvalue, hmeans⟩

/-- **A field is put** to what the chosen value means, or kept when none is chosen. -/
theorem put_overlaid {α β : Type} {make : α → Setting} (field : Layout → β)
    {means : α → β → Prop} {chosen : Option α} {given : List Setting}
    (hgiven : ∀ value, make value ∈ given ↔ chosen = some value)
    (hown : ∀ layout value, means value (field (Layout.assign layout (make value).tidied)))
    (hframe : ∀ layout setting, (∀ value, setting ≠ make value) →
      field (Layout.assign layout setting.tidied) = field layout)
    (base : Layout) : Put means chosen (field base) (field (base.overlaid given)) := by
  rcases overlaid_cases hown hframe given base with ⟨hkept, hnone⟩ | ⟨value, hvalue, hmeans⟩
  · have habsent : chosen = none :=
      Option.eq_none_iff_forall_ne_some.mpr fun value h => hnone value ((hgiven value).mpr h)
    rw [habsent, hkept]
    exact .absent
  · rw [(hgiven value).mp hvalue]
    exact .given hmeans

/-! ## All fields -/

namespace Layout

theorem pathOf_place (layout : Layout) (placed asked : PathSetting) (path : Path) :
    (layout.place placed path).pathOf asked =
      if placed = asked then path else layout.pathOf asked := by
  cases placed <;> cases asked <;> rfl

theorem root_assign (layout : Layout) (setting : Setting) :
    (layout.assign setting).root = layout.root := by
  rcases setting with ⟨setting | _ | _ | _, value⟩ | names
  · cases setting <;> rfl
  all_goals rfl

theorem root_overlaid (layout : Layout) (given : List Setting) :
    (layout.overlaid given).root = layout.root := by
  induction given generalizing layout with
  | nil => rfl
  | cons setting given ih => exact (ih (layout.assign setting.tidied)).trans (root_assign ..)

end Layout

/-- Only a setting of its own changes the extension. -/
theorem Layout.sourceExtension_assign (layout : Layout) (setting : Setting)
    (hother : ∀ value, setting ≠ .text .sourceExtension value) :
    (layout.assign setting.tidied).sourceExtension = layout.sourceExtension := by
  rcases setting with ⟨placed | _ | _ | _, value⟩ | names
  · cases placed <;> rfl
  · exact absurd rfl (hother value)
  all_goals rfl

/-- Under an overlay the extension is the old one, or a given one without the dots at its
beginning. -/
theorem Layout.sourceExtension_overlaid (given : List Setting) (base : Layout) :
    ((base.overlaid given).sourceExtension = base.sourceExtension ∧
        ∀ value, .text .sourceExtension value ∉ given) ∨
      ∃ value, .text .sourceExtension value ∈ given ∧
        DropsDots value (base.overlaid given).sourceExtension :=
  @overlaid_cases _ _ (.text .sourceExtension) (·.sourceExtension) _
    (fun _ value => dropsDots_withoutDots value) sourceExtension_assign given base

/-- The layout under an overlay has the chosen values in their own fields, whatever the
order in which they are given. -/
theorem Choice.replaces_overlaid {choice : Choice} {given : List Setting}
    (hgiven : ∀ setting, setting ∈ given ↔ choice.Has setting) (base : Layout) :
    choice.Replaces base (base.overlaid given) where
  root := base.root_overlaid given
  paths := by
    intro asked
    refine put_overlaid (·.pathOf asked)
      (fun value => hgiven (.text (.path asked) value)) ?_ ?_ base
    · intro layout value
      exact (layout.pathOf_place asked asked _).trans (if_pos rfl)
    · intro layout setting hother
      rcases setting with ⟨placed | _ | _ | _, value⟩ | names
      · have hne : placed ≠ asked := fun h => hother value (by rw [h])
        exact (layout.pathOf_place placed asked _).trans (if_neg hne)
      all_goals cases asked <;> rfl
  sourceExtension :=
    put_overlaid (·.sourceExtension) (fun value => hgiven (.text .sourceExtension value))
      (fun _ value => dropsDots_withoutDots value) Layout.sourceExtension_assign base
  controllerBaseClass := by
    refine put_overlaid (·.controllerBaseClass)
      (fun value => hgiven (.text .controllerBaseClass value)) ?_ ?_ base
    · intro layout value
      rfl
    · intro layout setting hother
      rcases setting with ⟨placed | _ | _ | _, value⟩ | names
      · cases placed <;> rfl
      · rfl
      · exact absurd rfl (hother value)
      all_goals rfl
  policyBeginning := by
    refine put_overlaid (·.policyBeginning)
      (fun value => hgiven (.text .policyBeginning value)) ?_ ?_ base
    · intro layout value
      rfl
    · intro layout setting hother
      rcases setting with ⟨placed | _ | _ | _, value⟩ | names
      · cases placed <;> rfl
      · rfl
      · rfl
      · exact absurd rfl (hother value)
      · rfl
  pinnedCommands := by
    refine put_overlaid (·.pinnedCommands) (fun names => hgiven (.commands names)) ?_ ?_ base
    · intro layout names
      exact trimsAll_trimmed names
    · intro layout setting hother
      rcases setting with ⟨placed | _ | _ | _, value⟩ | names
      · cases placed <;> rfl
      · rfl
      · rfl
      · rfl
      · exact absurd rfl (hother names)

/-! ## Loading -/

open Overlay

/-- A choice has one value for each key. -/
theorem Choice.nodup_keys {choice : Choice} {given : List Setting} (hnodup : given.Nodup)
    (hgiven : ∀ setting, setting ∈ given ↔ choice.Has setting) :
    (given.map keyOf).Nodup := by
  refine List.Nodup.map_on ?_ hnodup
  intro a ha b hb hkey
  have ha := (hgiven a).mp ha
  have hb := (hgiven b).mp hb
  cases a <;> cases b <;> cases hkey
  all_goals
    rw [Has] at ha hb
    rw [Option.some.inj (ha.symm.trans hb)]

/-- The chosen setting of a key, if there is one. -/
def Choice.settingAt (choice : Choice) : Key → Option Setting
  | .text setting => (choice.texts setting).map (.text setting)
  | .commands => choice.commands.map .commands

theorem Choice.settingAt_eq_some {choice : Choice} {key : Key} {setting : Setting} :
    choice.settingAt key = some setting ↔ choice.Has setting ∧ keyOf setting = key := by
  cases key <;> cases setting <;> simp [settingAt, Has, keyOf]
  -- both name the same text: what is chosen under one name is chosen under the other
  constructor
  · rintro ⟨h, rfl⟩
    exact ⟨h, rfl⟩
  · rintro ⟨h, rfl⟩
    exact ⟨h, rfl⟩

/-- Every choice can be written down. -/
theorem Choice.exists_spelled (choice : Choice) : ∃ text, choice.Spelled text := by
  obtain ⟨t, ht⟩ := exists_spells (Key.all.filterMap choice.settingAt)
  refine ⟨String.ofList t, _, ?_, ?_, by rwa [String.toList_ofList]⟩
  · have hall : Key.all.Nodup := by decide
    refine hall.filterMap ?_
    intro a b setting ha hb
    exact (settingAt_eq_some.mp ha).2.symm.trans (settingAt_eq_some.mp hb).2
  · intro setting
    rw [List.mem_filterMap]
    constructor
    · rintro ⟨key, -, hkey⟩
      exact (settingAt_eq_some.mp hkey).1
    · intro h
      exact ⟨_, Key.mem_all _, settingAt_eq_some.mpr ⟨h, rfl⟩⟩

/-- An overlay that can be read as settings is laid over the standard layout. -/
theorem Layout.result_loadOverlay {disk : Disk} {path : Path} {text : String}
    {given : List Setting} (root : Path) (hread : disk.readText path = .ok text)
    (hsettings : read? text = some given) :
    (loadOverlay disk root path).result = .ok ((standard root).overlaid given) := by
  simp only [loadOverlay, hread, Traced.ofDisk, Traced.result_bind, Except.bind, hsettings]
  rfl

/-- **Loading an overlay replaces exactly the chosen values.**  Whatever the user chooses
and however it is written, the overlay is read, and the layout is the standard one with
the chosen values in their own fields. -/
theorem Layout.load_spelled (disk : Disk) (root : Path) (config : Option Path)
    (choice : Choice) (text : String) (hspelled : choice.Spelled text)
    (hthere : config = none → disk.leadsSomewhere (root.join (.ofString overlayName)) = true)
    (hread : disk.readText (config.getD (root.join (.ofString overlayName))) = .ok text) :
    ∃ layout, (load disk root config).result = .ok layout ∧
      choice.Replaces (standard root) layout := by
  obtain ⟨given, hnodup, hgiven, hspells⟩ := hspelled
  have hsettings : read? text = some given :=
    read?_of_spells hspells (Choice.nodup_keys hnodup hgiven)
  refine ⟨(standard root).overlaid given, ?_, Choice.replaces_overlaid hgiven _⟩
  cases config with
  | some path => exact result_loadOverlay root hread hsettings
  | none =>
    rw [load, if_pos (hthere rfl)]
    exact result_loadOverlay root hread hsettings

/-- A handbook in a file of its own, an extension with dots, and pinned commands of which
one is blank. -/
def handbook : Choice where
  texts
    | .path .apiDoc => some "docs/a.md"
    | .sourceExtension => some "..cs"
    | _ => none
  commands := some ["PingCommand", " "]

/-- One of the ways to write the choice down. -/
def handbookText : String :=
  "# handbook\n" ++ ("\tapi_doc = \"\\u0064ocs/a.md\"\r\n" ++ ("\n" ++
    ("'source_extension'='..cs' # both\n" ++
      "critical_manual_commands = [\n  \"PingCommand\", # pinned\n  ' ',\n]")))

theorem forall_of_all {p : Char → Prop} [DecidablePred p] {s : List Char}
    (h : s.all (fun c => decide (p c)) = true) : ∀ c ∈ s, p c :=
  fun c hc => of_decide_eq_true (List.all_eq_true.mp h c hc)

theorem handbook_spelled : handbook.Spelled handbookText := by
  refine ⟨[.text (.path .apiDoc) "docs/a.md", .text .sourceExtension "..cs",
    .commands ["PingCommand", " "]], by decide, ?_, ?_⟩
  · intro setting
    rcases setting with ⟨setting | _ | _ | _, value⟩ | names
    · cases setting <;> simp [Choice.Has, handbook, eq_comm]
    all_goals simp [Choice.Has, handbook, eq_comm]
  · have hindent : IsGap "  ".toList := by decide
    have hspace : IsGap " ".toList := by decide
    have hnumber : HexNumber "0064".toList 'd'.toNat :=
      .snoc (.snoc (.snoc (.snoc .nil (.digit (by decide : 0 < 10)))
        (.digit (by decide : 0 < 10))) (.digit (by decide : 6 < 10))) (.digit (by decide : 4 < 10))
    have hdoc : Quoted "docs/a.md".toList "\"\\u0064ocs/a.md\"".toList :=
      .basic (.cons (.short rfl hnumber)
        (escaped_plain (forall_of_all (by decide : "ocs/a.md".toList.all _ = true))))
    have hping : Quoted "PingCommand".toList "\"PingCommand\"".toList :=
      .basic (escaped_plain (forall_of_all (by decide)))
    have hpinned : Comment "# pinned".toList :=
      .present (forall_of_all (by decide : " pinned".toList.all _ = true))
    have hitems : Items ["PingCommand", " "]
        "\n  \"PingCommand\", # pinned\n  ' ',\n]".toList :=
      .cons (.line isGap_nil .absent .lineFeed (.gap hindent)) hping (.gap isGap_nil)
        (.cons (.line hspace hpinned .lineFeed (.gap hindent))
          (.literal (forall_of_all (by decide))) (.gap isGap_nil)
          (.close (.line isGap_nil .absent .lineFeed (.gap isGap_nil))))
    have hfirst : Assignment (.text (.path .apiDoc) "docs/a.md")
        "\tapi_doc = \"\\u0064ocs/a.md\"".toList :=
      @Assignment.intro (.text (.path .apiDoc) "docs/a.md") "\t".toList _ _ _ _
        (by decide) (.bare .apiDoc) hspace hspace (.text hdoc)
    have hliteral : Quoted "source_extension".toList "'source_extension'".toList :=
      .literal (forall_of_all (by decide))
    have hdots : Quoted "..cs".toList "'..cs'".toList := .literal (forall_of_all (by decide))
    have hsecond : Assignment (.text .sourceExtension "..cs")
        "'source_extension'='..cs'".toList :=
      @Assignment.intro (.text .sourceExtension "..cs") _ _ _ _ _
        isGap_nil (.quoted .sourceExtension hliteral) isGap_nil isGap_nil (.text hdots)
    have hthird : Assignment (.commands ["PingCommand", " "])
        "critical_manual_commands = [\n  \"PingCommand\", # pinned\n  ' ',\n]".toList :=
      @Assignment.intro (.commands ["PingCommand", " "]) _ _ _ _ _
        isGap_nil (.bare .commands) hspace hspace (.commands hitems)
    have htitle : Comment "# handbook".toList :=
      .present (forall_of_all (by decide : " handbook".toList.all _ = true))
    have hboth : Comment "# both".toList :=
      .present (forall_of_all (by decide : " both".toList.all _ = true))
    simp only [handbookText, String.toList_append]
    exact .skip isGap_nil htitle .lineFeed (.give hfirst isGap_nil .absent .both
      (.skip isGap_nil .absent .lineFeed (.give hsecond hspace hboth .lineFeed
        (.last hthird isGap_nil .absent))))

/-- A disk with that overlay at the root of a repository. -/
def handbookDisk : Disk where
  leadsSomewhere path := path = .ofString "/r/docdrift.toml"
  readText path :=
    if path = .ofString "/r/docdrift.toml" then .ok handbookText else .error .notFound
  entries _ := .error .notFound

/-- The overlay is loaded from there without being named. -/
theorem Layout.load_handbook :
    handbook.Spelled handbookText ∧
      handbookDisk.leadsSomewhere (Path.join (.ofString "/r") (.ofString overlayName)) = true ∧
      handbookDisk.readText (Path.join (.ofString "/r") (.ofString overlayName)) =
        .ok handbookText ∧
      ∃ layout, (load handbookDisk (.ofString "/r") none).result = .ok layout ∧
        handbook.Replaces (standard (.ofString "/r")) layout :=
  ⟨handbook_spelled, by decide, rfl,
    load_spelled handbookDisk (.ofString "/r") none handbook handbookText handbook_spelled
      (fun _ => by decide) rfl⟩

end DocCoverage
