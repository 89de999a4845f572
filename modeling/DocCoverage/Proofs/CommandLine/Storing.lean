import Mathlib.Data.List.Induction
import DocCoverage.Proofs.CommandLine.Grammar
import DocCoverage.Proofs.Results

/-! # Storing options

An option that has been read is stored at once, or once its value is known.  Storing the
options of one side in order succeeds if and only if none of them is given twice and no
value is empty, and what is stored is what has been given (`Options.storeAll_ok_iff`). -/

namespace DocCoverage
namespace Invocation

/-- A value is not empty. -/
def Item.Proper : Item → Prop
  | .flag _ => True
  | .value _ text => text ≠ ""

theorem Item.Spelled.length_pos {item : Item} {args : List String} (h : item.Spelled args) :
    0 < args.length := by
  cases h <;> simp

theorem Item.Spelled.proper {item : Item} {args : List String} (h : item.Spelled args) :
    item.Proper := by
  cases h with
  | flag raised => trivial
  | joined hvalue => exact hvalue
  | apart hvalue hplain => exact hvalue

theorem Spells.proper {items : List Item} {args : List String} (h : Spells items args) :
    ∀ item ∈ items, item.Proper := by
  induction h with
  | nil => exact nofun
  | cons hspelled hrest ih => exact List.forall_mem_cons.mpr ⟨hspelled.proper, ih⟩

/-- What is stored of the options of one side. -/
def optionsOf (items : List Item) : Options where
  json := decide (.flag .json ∈ items)
  logJson := decide (.flag .logJson ∈ items)
  keepGoing := decide (.flag .keepGoing ∈ items)
  repo := valueIn? items .repo
  config := valueIn? items .config

theorem valueIn?_append_flag (items : List Item) (raised : Flag) (slot : Slot) :
    valueIn? (items ++ [.flag raised]) slot = valueIn? items slot := by
  simp [valueIn?]

theorem valueIn?_append_value (items : List Item) (given : Slot) (value : String) (slot : Slot) :
    valueIn? (items ++ [.value given value]) slot =
      (valueIn? items slot).or (if given = slot then some value else none) := by
  simp [valueIn?]

namespace Options

@[simp] theorem settle_nothing (o : Options) : o.settle .nothing = .ok o := rfl

/-- The options with one more stored. -/
def store (o : Options) : Item → Except Refusal Options
  | .flag raised => o.raise raised
  | .value slot value => o.fill slot value

/-- The options with more of them stored, in order. -/
def storeAll (o : Options) (items : List Item) : Except Refusal Options :=
  items.foldlM store o

theorem storeAll_cons_iff {o o' : Options} {item : Item} {items : List Item} :
    o.storeAll (item :: items) = .ok o' ↔
      ∃ s, o.store item = .ok s ∧ s.storeAll items = .ok o' := by
  rw [storeAll, List.foldlM_cons, seq_eq_bind, bind_eq_ok_iff]
  rfl

/-- What can be stored is proper. -/
theorem proper_of_store {o o' : Options} {item : Item} (h : o.store item = .ok o') :
    item.Proper := by
  cases item with
  | flag raised => trivial
  | value slot text =>
    show text ≠ ""
    rintro rfl
    simp only [store, fill] at h
    split at h <;> cases h

/-- A flag is stored if it has not been raised. -/
theorem raise_optionsOf {items : List Item} {raised : Flag} {o' : Options} :
    (optionsOf items).raise raised = .ok o' ↔
      .flag raised ∉ items ∧ o' = optionsOf (items ++ [.flag raised]) := by
  by_cases hmem : .flag raised ∈ items
  · cases raised <;> simp [raise, optionsOf, hmem]
  · cases raised <;> simp [raise, optionsOf, valueIn?_append_flag, hmem, eq_comm]

/-- A value is stored if its slot is free and it is not empty. -/
theorem fill_optionsOf {items : List Item} {slot : Slot} {value : String} {o' : Options} :
    (optionsOf items).fill slot value = .ok o' ↔
      valueIn? items slot = none ∧ value ≠ "" ∧ o' = optionsOf (items ++ [.value slot value]) := by
  cases hslot : valueIn? items slot with
  | some first => cases slot <;> simp [fill, get?, optionsOf, hslot]
  | none =>
    by_cases hvalue : value = ""
    · cases slot <;> simp [fill, get?, optionsOf, hslot, hvalue]
    · cases slot <;> simp [fill, get?, optionsOf, valueIn?_append_value, hslot, hvalue, eq_comm]

theorem flag_mem_kinds {items : List Item} {raised : Flag} :
    .inl raised ∈ items.map Item.kind ↔ .flag raised ∈ items := by
  rw [List.mem_map]
  constructor
  · rintro ⟨item, hitem, hkind⟩
    cases item with
    | flag given => exact Sum.inl.inj hkind ▸ hitem
    | value slot value => cases hkind
  · intro hitem
    exact ⟨_, hitem, rfl⟩

/-- **One turn.**  An option is stored behind others if none of them is the same. -/
theorem store_optionsOf {items : List Item} {item : Item} {o' : Options} :
    (optionsOf items).store item = .ok o' ↔
      item.kind ∉ items.map Item.kind ∧ item.Proper ∧ o' = optionsOf (items ++ [item]) := by
  cases item with
  | flag raised =>
    have hkind : .inl raised ∉ items.map Item.kind ↔ .flag raised ∉ items :=
      not_congr flag_mem_kinds
    exact raise_optionsOf.trans ⟨fun h => ⟨hkind.mpr h.1, trivial, h.2⟩,
      fun h => ⟨hkind.mp h.1, h.2.2⟩⟩
  | value slot value => exact fill_optionsOf.trans (and_congr_left' valueIn?_eq_none_iff)

/-- **All turns.** -/
theorem storeAll_ok_iff {items : List Item} {o' : Options} :
    storeAll {} items = .ok o' ↔
      (items.map Item.kind).Nodup ∧ (∀ item ∈ items, item.Proper) ∧ o' = optionsOf items := by
  -- from the end: the last option is stored behind all the others
  induction items using List.reverseRecOn generalizing o' with
  | nil =>
    have hempty : optionsOf [] = {} := rfl
    simp [storeAll, hempty, pure, Except.pure, eq_comm]
  | append_singleton items item ih =>
    have hlast : storeAll {} (items ++ [item]) = .ok o' ↔
        ∃ o, storeAll {} items = .ok o ∧ o.store item = .ok o' := by
      rw [storeAll, List.foldlM_append, seq_eq_bind, bind_eq_ok_iff]
      simp [storeAll]
    have hnodup : ((items ++ [item]).map Item.kind).Nodup ↔
        (items.map Item.kind).Nodup ∧ item.kind ∉ items.map Item.kind := by
      rw [((List.perm_append_singleton item items).map Item.kind).nodup_iff, List.map_cons,
        List.nodup_cons, and_comm]
    rw [hlast, hnodup, List.forall_mem_append, List.forall_mem_singleton]
    constructor
    · rintro ⟨o, ho, hstore⟩
      obtain ⟨hitems, hproper, rfl⟩ := ih.mp ho
      obtain ⟨hnew, hitem, ho'⟩ := store_optionsOf.mp hstore
      exact ⟨⟨hitems, hnew⟩, ⟨hproper, hitem⟩, ho'⟩
    · rintro ⟨⟨hitems, hnew⟩, ⟨hproper, hitem⟩, ho'⟩
      exact ⟨_, ih.mpr ⟨hitems, hproper, rfl⟩, store_optionsOf.mpr ⟨hnew, hitem, ho'⟩⟩

end Options
end Invocation
end DocCoverage
