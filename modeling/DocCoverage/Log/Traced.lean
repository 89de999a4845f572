import DocCoverage.Fault
import DocCoverage.Log.Event

/-!
Steps of a run. A step ends with a value or a fault, and on its way it reports events. What a step
returns never depends on what is done with its events.
-/

namespace DocCoverage

/-- The events of a step, in order, and how it ends. -/
structure Traced (α : Type) where
  events : List Event
  result : Except Fault α

namespace Traced

/-- Ends with a value and reports nothing. -/
protected def pure {α : Type} (a : α) : Traced α := ⟨[], .ok a⟩

/-- Goes on with the value of a step, if it has one. The events of both are reported in turn. -/
protected def bind {α β : Type} (step : Traced α) (next : α → Traced β) : Traced β :=
  match step.result with
  | .ok a => ⟨step.events ++ (next a).events, (next a).result⟩
  | .error fault => ⟨step.events, .error fault⟩

instance : Monad Traced where
  pure := Traced.pure
  bind := Traced.bind

/-- Reports one event. -/
def report (event : Event) : Traced Unit := ⟨[event], .ok ()⟩

/-- Ends with a fault. -/
def fail {α : Type} (fault : Fault) : Traced α := ⟨[], .error fault⟩

/-- A computation as a step that reports nothing. -/
def ofResult {α : Type} (result : Except Fault α) : Traced α := ⟨[], result⟩

/-- The answer of a disk as a step: its refusal is a missing input. -/
def ofDisk {α : Type} (path : Path) (answer : Except Cause α) : Traced α :=
  match answer with
  | .ok a => ⟨[], .ok a⟩
  | .error cause => ⟨[], .error (.missingInput path cause)⟩

@[simp]
theorem result_pure {α : Type} (a : α) : (pure a : Traced α).result = .ok a := rfl

@[simp]
theorem result_bind {α β : Type} (step : Traced α) (next : α → Traced β) :
    (step >>= next).result = step.result.bind fun a => (next a).result := by
  rcases step with ⟨events, _ | a⟩ <;> rfl

@[simp]
theorem result_report (event : Event) : (report event).result = .ok () := rfl

@[simp]
theorem result_ofResult {α : Type} (result : Except Fault α) : (ofResult result).result = result := rfl

@[simp]
theorem result_fail {α : Type} (fault : Fault) : (fail fault : Traced α).result = .error fault := rfl

end Traced
end DocCoverage
