import Mathlib.Data.List.Perm.Basic
import DocCoverage.Invocation

/-! # The grammar of the command line

What can be asked for is a `Request`: options before any subcommand and, behind a
subcommand, more options.  `Request.Spelled` says how a request is written as arguments,
and `Request.WellFormed` which requests there are: on either side each option at most
once, and `--keep-going` behind `check` only.  Nothing here mentions the reader.

A request means an `Invocation`: a value behind the subcommand wins over one before it.
On one side the order of the options does not matter, and neither does it matter on which
side an option stands, unless the other side has it too
(`Request.invocation_eq_of_perm`, `Request.invocation_eq_of_moved`). -/

namespace DocCoverage
namespace Invocation

/-! ## Options -/

/-- How an option without a value is written. -/
def Flag.spelling : Flag → String
  | .json => "--json"
  | .logJson => "--log-json"
  | .keepGoing => "--keep-going"

/-- How an option with a value is written. -/
def Slot.spelling : Slot → String
  | .repo => "--repo"
  | .config => "--config"

/-- An option as it is given, with its value if it takes one. -/
inductive Item
  | flag (flag : Flag)
  | value (slot : Slot) (value : String)
deriving DecidableEq, Repr

/-- Which option is given. -/
def Item.kind : Item → Flag ⊕ Slot
  | .flag raised => .inl raised
  | .value slot _ => .inr slot

/-- A text that may stand as an argument of its own where a value is expected: it does not
look like an option. -/
def Plain (value : String) : Prop := value = "-" ∨ value.toList.head? ≠ some '-'

instance (value : String) : Decidable (Plain value) := inferInstanceAs (Decidable (_ ∨ _))

/-- The arguments that give one option.  A value is not empty; it stands behind an equals
sign or is the next argument. -/
inductive Item.Spelled : Item → List String → Prop
  | flag (flag : Flag) : Spelled (.flag flag) [flag.spelling]
  | joined {slot : Slot} {value : String} (h : value ≠ "") :
      Spelled (.value slot value) [slot.spelling ++ "=" ++ value]
  | apart {slot : Slot} {value : String} (h : value ≠ "") (hplain : Plain value) :
      Spelled (.value slot value) [slot.spelling, value]

/-- The arguments that give some options, in order. -/
inductive Spells : List Item → List String → Prop
  | nil : Spells [] []
  | cons {item : Item} {items : List Item} {args more : List String}
      (hitem : item.Spelled args) (hrest : Spells items more) : Spells (item :: items) (args ++ more)

/-- The options may stand on a side: each at most once, and each of them known there. -/
structure Side.Admits (side : Side) (items : List Item) : Prop where
  nodup : (items.map Item.kind).Nodup
  keepGoing : .flag .keepGoing ∈ items → side = .check

/-! ## Requests -/

/-- What a command line asks for: options, and behind a subcommand more options. -/
inductive Request
  | bare (before : List Item)
  | check (before behind : List Item)
  | inventory (before behind : List Item)

namespace Request

/-- The options before any subcommand. -/
def before : Request → List Item
  | bare before | check before _ | inventory before _ => before

/-- The options behind a subcommand. -/
def behind : Request → List Item
  | bare _ => []
  | check _ behind | inventory _ behind => behind

/-- The options stand where they may. -/
def WellFormed : Request → Prop
  | bare before => Side.before.Admits before
  | check before behind => Side.before.Admits before ∧ Side.check.Admits behind
  | inventory before behind => Side.before.Admits before ∧ Side.inventory.Admits behind

/-- The arguments of a command line may end in two dashes. -/
def Ending (args : List String) : Prop := args = [] ∨ args = ["--"]

/-- The arguments that make a request. -/
inductive Spelled : Request → List String → Prop
  | bare {before : List Item} {args ending : List String} (h : Spells before args)
      (hending : Ending ending) : Spelled (.bare before) (args ++ ending)
  | check {before behind : List Item} {args more ending : List String}
      (h : Spells before args) (hbehind : Spells behind more) (hending : Ending ending) :
      Spelled (.check before behind) (args ++ "check" :: (more ++ ending))
  | inventory {before behind : List Item} {args more ending : List String}
      (h : Spells before args) (hbehind : Spells behind more) (hending : Ending ending) :
      Spelled (.inventory before behind) (args ++ "inventory" :: (more ++ ending))

end Request

/-- The value that is given to a slot, if one is. -/
def valueIn? (items : List Item) (slot : Slot) : Option String :=
  items.findSome? fun
    | .value given value => if given = slot then some value else none
    | .flag _ => none

namespace Request

/-- The flag is given on one of the sides. -/
def Raises (request : Request) (flag : Flag) : Prop :=
  .flag flag ∈ request.before ∨ .flag flag ∈ request.behind

instance (request : Request) (flag : Flag) : Decidable (request.Raises flag) :=
  inferInstanceAs (Decidable (_ ∨ _))

/-- The value of a slot: the one behind the subcommand, or else the one before it. -/
def value? (request : Request) (slot : Slot) : Option String :=
  (valueIn? request.behind slot).or (valueIn? request.before slot)

/-- The subcommand that is asked for. -/
def command : Request → Option Subcommand
  | bare _ => none
  | check _ behind => some (.check (decide (.flag .keepGoing ∈ behind)))
  | inventory _ _ => some .inventory

/-- What the request means. -/
def invocation (request : Request) : Invocation where
  json := decide (request.Raises .json)
  logJson := decide (request.Raises .logJson)
  repo := (request.value? .repo).getD "."
  config := request.value? .config
  command := request.command

end Request

/-! ## Order does not matter -/

/-- Where no option is given twice, a slot has the value that is given to it. -/
theorem valueIn?_eq_some_iff {items : List Item} (hnodup : (items.map Item.kind).Nodup)
    {slot : Slot} {value : String} :
    valueIn? items slot = some value ↔ .value slot value ∈ items := by
  induction items with
  | nil => simp [valueIn?]
  | cons item rest ih =>
    rw [List.map_cons, List.nodup_cons] at hnodup
    obtain ⟨hnew, hrest⟩ := hnodup
    have hcons := ih hrest
    cases item with
    | flag flag => simpa [valueIn?] using hcons
    | value given first =>
      by_cases hslot : given = slot
      · subst hslot
        -- what follows gives the slot no second value
        have hother : ∀ other, .value given other ∉ rest := fun other hmem =>
          hnew (List.mem_map.mpr ⟨_, hmem, rfl⟩)
        simp [valueIn?, hother, eq_comm]
      · have hne : ¬slot = given := fun h => hslot h.symm
        simpa [valueIn?, hslot, hne] using hcons

theorem valueIn?_eq_none_iff {items : List Item} {slot : Slot} :
    valueIn? items slot = none ↔ .inr slot ∉ items.map Item.kind := by
  induction items with
  | nil => simp [valueIn?]
  | cons item rest ih =>
    rw [List.map_cons, List.mem_cons, not_or, ← ih]
    cases item with
    | flag raised => simp [valueIn?, Item.kind]
    | value given value =>
      by_cases hslot : given = slot
      · simp [valueIn?, Item.kind, hslot]
      · have hne : ¬slot = given := fun h => hslot h.symm
        simp [valueIn?, Item.kind, hslot, hne]

theorem valueIn?_eq_of_perm {items items' : List Item} (hnodup : (items.map Item.kind).Nodup)
    (hperm : items.Perm items') (slot : Slot) : valueIn? items slot = valueIn? items' slot := by
  have hnodup' : (items'.map Item.kind).Nodup := (hperm.map _).nodup_iff.mp hnodup
  refine Option.ext fun value => ?_
  rw [valueIn?_eq_some_iff hnodup, valueIn?_eq_some_iff hnodup', hperm.mem_iff]

theorem Side.Admits.perm {side : Side} {items items' : List Item} (h : side.Admits items)
    (hperm : items.Perm items') : side.Admits items' where
  nodup := (hperm.map _).nodup_iff.mp h.nodup
  keepGoing hmem := h.keepGoing (hperm.mem_iff.mpr hmem)

namespace Request

/-- Two requests that differ at most by the order of the options on each side. -/
inductive Permuted : Request → Request → Prop
  | bare {before before' : List Item} (h : before.Perm before') :
      Permuted (.bare before) (.bare before')
  | check {before before' behind behind' : List Item} (h : before.Perm before')
      (hbehind : behind.Perm behind') : Permuted (.check before behind) (.check before' behind')
  | inventory {before before' behind behind' : List Item} (h : before.Perm before')
      (hbehind : behind.Perm behind') :
      Permuted (.inventory before behind) (.inventory before' behind')

/-- The second request has one option behind its subcommand that the first one has before
it.  On either side the options may be in any order. -/
inductive Moved : Request → Request → Prop
  | check {item : Item} {before before' behind behind' : List Item}
      (h : before.Perm (item :: before')) (hbehind : behind'.Perm (item :: behind)) :
      Moved (.check before behind) (.check before' behind')
  | inventory {item : Item} {before before' behind behind' : List Item}
      (h : before.Perm (item :: before')) (hbehind : behind'.Perm (item :: behind)) :
      Moved (.inventory before behind) (.inventory before' behind')

theorem WellFormed.before {request : Request} (h : request.WellFormed) :
    Side.before.Admits request.before := by
  cases request with
  | bare before => exact h
  | check before behind => exact h.1
  | inventory before behind => exact h.1

theorem WellFormed.nodup_behind {request : Request} (h : request.WellFormed) :
    (request.behind.map Item.kind).Nodup := by
  cases request with
  | bare before => exact List.nodup_nil
  | check before behind => exact h.2.nodup
  | inventory before behind => exact h.2.nodup

theorem Permuted.wellFormed {request request' : Request} (h : Permuted request request')
    (hwell : request.WellFormed) : request'.WellFormed := by
  cases h with
  | bare h => exact Side.Admits.perm hwell h
  | check h hbehind => exact ⟨hwell.1.perm h, hwell.2.perm hbehind⟩
  | inventory h hbehind => exact ⟨hwell.1.perm h, hwell.2.perm hbehind⟩

/-- What a request means is determined by its flags, its values and its subcommand. -/
theorem invocation_ext {request request' : Request}
    (hflag : ∀ flag, flag ≠ .keepGoing → (request.Raises flag ↔ request'.Raises flag))
    (hvalue : ∀ slot, request.value? slot = request'.value? slot)
    (hcommand : request.command = request'.command) :
    request.invocation = request'.invocation := by
  simp only [invocation, hvalue, hcommand, hflag .json (by decide), hflag .logJson (by decide)]

/-- **The order of the options on a side does not matter.** -/
theorem invocation_eq_of_perm {request request' : Request} (hwell : request.WellFormed)
    (h : Permuted request request') : request.invocation = request'.invocation := by
  have hbefore : request.before.Perm request'.before := by
    cases h <;> assumption
  have hbehind : request.behind.Perm request'.behind := by
    cases h with
    | bare h => exact List.Perm.refl _
    | check h hbehind => exact hbehind
    | inventory h hbehind => exact hbehind
  refine invocation_ext ?_ ?_ ?_
  · intro flag _
    rw [Raises, Raises, hbefore.mem_iff, hbehind.mem_iff]
  · intro slot
    rw [value?, value?, valueIn?_eq_of_perm hwell.before.nodup hbefore,
      valueIn?_eq_of_perm hwell.nodup_behind hbehind]
  · cases h with
    | bare h => rfl
    | check h hpermuted => simp only [command, hpermuted.mem_iff]
    | inventory h hpermuted => rfl

/-- A value that moves behind the others is still the one that counts. -/
theorem value_or_cons {item : Item} {before behind : List Item}
    (hbefore : ((item :: before).map Item.kind).Nodup)
    (hbehind : ((item :: behind).map Item.kind).Nodup) (slot : Slot) :
    (valueIn? behind slot).or (valueIn? (item :: before) slot) =
      (valueIn? (item :: behind) slot).or (valueIn? before slot) := by
  cases item with
  | flag flag => rfl
  | value given value =>
    by_cases hslot : given = slot
    · subst hslot
      -- the slot had no value behind the subcommand
      rw [List.map_cons, List.nodup_cons] at hbehind
      rw [valueIn?_eq_none_iff.mpr hbehind.1]
      simp [valueIn?]
    · simp [valueIn?, hslot]

/-- **Nor does it matter on which side an option stands.** -/
theorem invocation_eq_of_moved {request request' : Request} (hwell : request.WellFormed)
    (hwell' : request'.WellFormed) (h : Moved request request') :
    request.invocation = request'.invocation := by
  obtain ⟨item, hbefore, hbehind⟩ : ∃ item, request.before.Perm (item :: request'.before) ∧
      request'.behind.Perm (item :: request.behind) := by
    cases h with
    | check h hbehind => exact ⟨_, h, hbehind⟩
    | inventory h hbehind => exact ⟨_, h, hbehind⟩
  -- `--keep-going` is not known before a subcommand, so it cannot be what moves
  have hitem : item ≠ .flag .keepGoing := by
    rintro rfl
    cases hwell.before.keepGoing (hbefore.mem_iff.mpr List.mem_cons_self)
  have hnodup : ((item :: request'.before).map Item.kind).Nodup :=
    (hbefore.map _).nodup_iff.mp hwell.before.nodup
  have hnodup' : ((item :: request.behind).map Item.kind).Nodup :=
    (hbehind.map _).nodup_iff.mp hwell'.nodup_behind
  refine invocation_ext ?_ ?_ ?_
  · intro flag _
    rw [Raises, Raises, hbefore.mem_iff, hbehind.mem_iff, List.mem_cons, List.mem_cons, or_assoc,
      or_left_comm]
  · intro slot
    rw [value?, value?, valueIn?_eq_of_perm hwell.before.nodup hbefore,
      valueIn?_eq_of_perm hwell'.nodup_behind hbehind]
    exact value_or_cons hnodup hnodup' slot
  · cases h with
    | check h hmoved =>
      have hmem := hbehind.mem_iff (a := .flag .keepGoing)
      rw [List.mem_cons, or_iff_right (Ne.symm hitem)] at hmem
      exact congrArg (fun keepGoing => some (Subcommand.check keepGoing))
        (decide_eq_decide.mpr hmem.symm)
    | inventory h hmoved => rfl

end Request

end Invocation
end DocCoverage
