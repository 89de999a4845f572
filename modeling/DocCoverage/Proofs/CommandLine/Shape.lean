import DocCoverage.Proofs.Arguments
import DocCoverage.Proofs.CommandLine.Grammar

/-! # What an argument is by its look

The reader sorts arguments by their look before it knows what they are for.  Each look
belongs to one spelling: an argument that spells an option has the shape of that option
(`shapeOf_flag`, `shapeOf_apart`, `shapeOf_joined`), and the shape of an argument tells the
option that it spells (`looks_shapeOf`).  What has no dash in front is plain
(`shapeOf_plain`). -/

namespace DocCoverage
namespace Invocation

/-- The name of an option without a value. -/
def Flag.word : Flag → String
  | .json => "json"
  | .logJson => "log-json"
  | .keepGoing => "keep-going"

/-- The name of an option with a value. -/
def Slot.word : Slot → String
  | .repo => "repo"
  | .config => "config"

/-- A long option by its name, and the value behind its equals sign if there is one. -/
def longText (name : String) : Option String → String
  | none => "--" ++ name
  | some value => "--" ++ name ++ "=" ++ value

/-- A name that may stand in front of an equals sign. -/
def IsName (name : String) : Prop := name ≠ "" ∧ name.toList.all (· != '=') = true

theorem Flag.isName_word (raised : Flag) : IsName raised.word := by
  cases raised <;> exact ⟨by decide, rfl⟩

theorem Slot.isName_word (slot : Slot) : IsName slot.word := by
  cases slot <;> exact ⟨by decide, rfl⟩

theorem Flag.spelling_eq (raised : Flag) : raised.spelling = longText raised.word none := by
  cases raised <;> decide

theorem Slot.spelling_eq (slot : Slot) : slot.spelling = longText slot.word none := by
  cases slot <;> decide

theorem Slot.joined_eq (slot : Slot) (value : String) :
    slot.spelling ++ "=" ++ value = longText slot.word (some value) := by
  rw [slot.spelling_eq]
  rfl

/-! ## Long options -/

/-- What stands behind the two dashes is divided at its first equals sign. -/
theorem shapeOf_long (side : Side) {arg : String} {long : List Char} (hne : long ≠ [])
    (harg : arg.toList = '-' :: '-' :: long) :
    shapeOf side arg = longShape side (String.ofList (long.takeWhile (· != '=')))
      ((long.dropWhile (· != '=')).tail?.map String.ofList) := by
  obtain ⟨c, rest, rfl⟩ := List.exists_cons_of_ne_nil hne
  simp only [shapeOf, harg]
  cases (c :: rest).dropWhile (· != '=') <;> rfl

/-- A name without an equals sign is read back, and so is the value behind it. -/
theorem shapeOf_longText (side : Side) {name : String} (hname : IsName name)
    (value : Option String) : shapeOf side (longText name value) = longShape side name value := by
  obtain ⟨hne, hall⟩ := hname
  have hlist : name.toList ≠ [] := fun h => hne (String.toList_injective h)
  rw [List.all_eq_true] at hall
  cases value with
  | none =>
    have hlong : (longText name none).toList = '-' :: '-' :: (name.toList ++ []) := by
      simp [longText]
    rw [shapeOf_long side (by simpa using hlist) hlong, List.takeWhile_append_of_pos hall,
      List.dropWhile_append_of_pos hall]
    simp
  | some value =>
    have hlong : (longText name (some value)).toList =
        '-' :: '-' :: (name.toList ++ '=' :: value.toList) := by
      simp [longText]
    rw [shapeOf_long side (by simp) hlong, List.takeWhile_append_of_pos hall,
      List.dropWhile_append_of_pos hall]
    simp

/-- Two dashes and more are a long option. -/
theorem eq_longText {arg : String} {long : List Char} (harg : arg.toList = '-' :: '-' :: long) :
    arg = longText (String.ofList (long.takeWhile (· != '=')))
      ((long.dropWhile (· != '=')).tail?.map String.ofList) := by
  have hlong := List.takeWhile_append_dropWhile (p := (· != '=')) (l := long)
  refine String.toList_injective ?_
  cases hdrop : long.dropWhile (· != '=') with
  | nil =>
    rw [hdrop, List.append_nil] at hlong
    simp [harg, longText, hlong]
  | cons c value =>
    -- what ended the name is the equals sign
    have hc : c = '=' := by
      have hhead := List.head?_dropWhile_not (· != '=') long
      simpa [hdrop] using hhead
    rw [hdrop, hc] at hlong
    simp [harg, longText, hlong]

/-! ## Looks -/

/-- Shapes that are refused wherever they stand, help and version among them. -/
def Shape.refused : Shape → Bool
  | .flag _ value => value
  | .help _ | .version _ | .unknown => true
  | .slot _ _ | .rest | .plain => false

/-- The texts that have a shape, for every shape that may be read. -/
inductive Looks (side : Side) : String → Shape → Prop
  | flag (raised : Flag) (hside : raised = .keepGoing → side = .check) :
      Looks side raised.spelling (.flag raised false)
  | apart (slot : Slot) : Looks side slot.spelling (.slot slot none)
  | joined (slot : Slot) (value : String) :
      Looks side (slot.spelling ++ "=" ++ value) (.slot slot (some value))
  | rest : Looks side "--" .rest
  | plain {arg : String} (h : Plain arg) : Looks side arg .plain
  | refused {arg : String} {shape : Shape} (h : shape.refused = true) : Looks side arg shape

/-- A long option has the look of its name. -/
theorem looks_longShape (side : Side) (name : String) (value : Option String) :
    Looks side (longText name value) (longShape side name value) := by
  have hflag : ∀ raised : Flag, (raised = .keepGoing → side = .check) →
      Looks side (longText raised.word value) (.flag raised value.isSome) := by
    intro raised hside
    cases value with
    | none => exact raised.spelling_eq ▸ Looks.flag raised hside
    | some value => exact .refused rfl
  have hslot : ∀ slot : Slot, Looks side (longText slot.word value) (.slot slot value) := by
    intro slot
    cases value with
    | none => exact slot.spelling_eq ▸ Looks.apart slot
    | some value => exact slot.joined_eq value ▸ Looks.joined slot value
  unfold longShape
  split
  · exact hflag .json nofun
  · exact hflag .logJson nofun
  · split
    · next hside => exact hflag .keepGoing fun _ => hside
    · exact .refused rfl
  · exact hslot .repo
  · exact hslot .config
  · exact .refused rfl
  · split <;> exact .refused rfl
  · exact .refused rfl

/-- What is not plain has a dash in front and more behind it. -/
theorem plain_iff {arg : String} : Plain arg ↔ ∀ c rest, arg.toList ≠ '-' :: c :: rest := by
  have hdash : arg = "-" ↔ arg.toList = ['-'] := by
    rw [← String.toList_inj]
    rfl
  rw [Plain, hdash]
  match arg.toList with
  | [] => simp
  | [c] => simp [Decidable.em]
  | c :: d :: rest => simp

/-- Every argument is a text that has its shape. -/
theorem looks_shapeOf (side : Side) (arg : String) : Looks side arg (shapeOf side arg) := by
  unfold shapeOf
  split
  · next harg =>
    obtain rfl : arg = "--" := String.toList_injective harg
    exact .rest
  · next long _ harg =>
    have hlong := looks_longShape side (String.ofList (long.takeWhile (· != '=')))
      ((long.dropWhile (· != '=')).tail?.map String.ofList)
    rw [← eq_longText harg] at hlong
    cases hdrop : long.dropWhile (· != '=') with
    | nil =>
      rw [hdrop] at hlong
      exact hlong
    | cons c value =>
      rw [hdrop] at hlong
      exact hlong
  · exact .refused rfl
  · split <;> exact .refused rfl
  · exact .refused rfl
  · next hplain => exact .plain (plain_iff.mpr fun c rest harg => hplain c rest harg)

theorem plain_of_shapeOf {side : Side} {arg : String} (h : shapeOf side arg = .plain) :
    Plain arg := by
  have hlooks := looks_shapeOf side arg
  rw [h] at hlooks
  cases hlooks with
  | plain hplain => exact hplain
  | refused hrefused => cases hrefused

/-! ## The shape of a spelling -/

theorem shapeOf_flag {side : Side} {raised : Flag} (hside : raised = .keepGoing → side = .check) :
    shapeOf side raised.spelling = .flag raised false := by
  have hlong : longShape side raised.word none = .flag raised false := by
    cases raised with
    | json => rfl
    | logJson => rfl
    | keepGoing => rw [hside rfl]; rfl
  rw [raised.spelling_eq, shapeOf_longText side raised.isName_word, hlong]

theorem shapeOf_apart (side : Side) (slot : Slot) :
    shapeOf side slot.spelling = .slot slot none := by
  have hlong : longShape side slot.word none = .slot slot none := by
    cases slot <;> rfl
  rw [slot.spelling_eq, shapeOf_longText side slot.isName_word, hlong]

theorem shapeOf_joined (side : Side) (slot : Slot) (value : String) :
    shapeOf side (slot.spelling ++ "=" ++ value) = .slot slot (some value) := by
  have hlong : longShape side slot.word (some value) = .slot slot (some value) := by
    cases slot <;> rfl
  rw [slot.joined_eq, shapeOf_longText side slot.isName_word, hlong]

theorem shapeOf_plain (side : Side) {arg : String} (h : Plain arg) :
    shapeOf side arg = .plain := by
  rw [plain_iff] at h
  match harg : arg.toList with
  | [] => simp [shapeOf, harg]
  | [c] => simp [shapeOf, harg]
  | c :: d :: rest =>
    have hc : c ≠ '-' := by
      rintro rfl
      exact h d rest harg
    simp [shapeOf, harg, hc]

end Invocation
end DocCoverage
