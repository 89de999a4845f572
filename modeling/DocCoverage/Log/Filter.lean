import DocCoverage.Log.Directive

/-!
Which events a log shows. A filter is a list of directives. For an event the closest of those that address
it decides, of several as close as each other the last; an event that no directive addresses is not shown.

A filter is written as directives between commas.
-/

namespace DocCoverage

/-- The directives of a filter, in the order in which they are written. -/
abbrev Filter := List Directive

namespace Filter

/-- Cuts a text at its commas. -/
def atCommas : List Char → List (List Char)
  | [] => [[]]
  | c :: rest =>
    if c = ',' then [] :: atCommas rest
    else
      match atCommas rest with
      | [] => [[c]]
      | piece :: more => (c :: piece) :: more

/-- The filter that admits a level everywhere. -/
def atLevel (level : Level) : Filter := [{ target := "", detail := level.detail }]

/-- Reads a filter, up to the first directive with a flaw. One without directives shows errors only. -/
def read (written : String) : Except Directive.Flaw Filter :=
  match (atCommas written.toList).filter (· ≠ []) with
  | [] => .ok (atLevel .error)
  | pieces => pieces.mapM Directive.read

/-- The filter when none is set, or none that can be read: warnings and errors. -/
def standard : Filter := atLevel .warn

/-- The filter of a run. There is none if a directive is torn: the run breaks down then. -/
def ofSetting? : Option String → Option Filter
  | none => some standard
  | some written =>
    match read written with
    | .ok filter => some filter
    | .error .unreadable => some standard
    | .error .torn => none

/-- The directive that decides on an event. -/
def deciding? (filter : Filter) (r : Record) : Option Directive :=
  (filter.filter (·.addresses r)).foldl (fun best d =>
    if best.all (·.yieldsTo d) then some d else best) none

/-- The filter shows an event. -/
def shows (filter : Filter) (event : Event) : Bool :=
  match deciding? filter event.record with
  | none => false
  | some d => event.record.level.detail ≤ d.detail

end Filter
end DocCoverage
