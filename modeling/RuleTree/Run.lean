import RuleTree.Event
import RuleTree.ParseError

/-! Runs of the parser: what happened on the way, and the nodes or the error at the end. The
events of a run that fails are kept up to the failure. -/
namespace RuleTree

/-- A computation that may fail, with the events up to its end. -/
structure Run (α : Type) where
  events : List Event
  result : Except ParseError α

namespace Run

/-- A run in which nothing happens but its result. -/
def of {α : Type} (r : Except ParseError α) : Run α := ⟨[], r⟩

def note (e : Event) : Run Unit := ⟨[e], .ok ()⟩

def fail {α : Type} (e : ParseError) : Run α := ⟨[], .error e⟩

/-- Changes what `x` gives, unless it fails. -/
def map {α β : Type} (f : α → β) (x : Run α) : Run β := ⟨x.events, x.result.map f⟩

/-- Goes on with `f` after `x`, unless `x` fails. -/
def bind {α β : Type} (x : Run α) (f : α → Run β) : Run β :=
  match x.result with
  | .ok a =>
    let next := f a
    ⟨x.events ++ next.events, next.result⟩
  | .error e => ⟨x.events, .error e⟩

instance : Monad Run where
  map := Run.map
  pure a := ⟨[], .ok a⟩
  bind := Run.bind

def log {α : Type} (x : Run α) : List Record := x.events.filterMap Event.record?

section
variable {α β : Type}

@[simp] theorem pure_events (a : α) : (pure a : Run α).events = [] := rfl
@[simp] theorem pure_result (a : α) : (pure a : Run α).result = .ok a := rfl
@[simp] theorem of_events (r : Except ParseError α) : (of r).events = [] := rfl
@[simp] theorem of_result (r : Except ParseError α) : (of r).result = r := rfl
@[simp] theorem note_events (e : Event) : (note e).events = [e] := rfl
@[simp] theorem note_result (e : Event) : (note e).result = .ok () := rfl
@[simp] theorem fail_events (e : ParseError) : (fail e : Run α).events = [] := rfl
@[simp] theorem fail_result (e : ParseError) : (fail e : Run α).result = .error e := rfl

@[simp] theorem map_events (f : α → β) (x : Run α) : (f <$> x).events = x.events := rfl
@[simp] theorem map_result (f : α → β) (x : Run α) : (f <$> x).result = x.result.map f := rfl

@[simp] theorem bind_result (x : Run α) (f : α → Run β) :
    (x >>= f).result = x.result >>= fun a => (f a).result := by
  change (Run.bind x f).result = _
  unfold Run.bind
  cases x.result <;> rfl

theorem bind_events_of_ok {x : Run α} {a : α} (h : x.result = .ok a) (f : α → Run β) :
    (x >>= f).events = x.events ++ (f a).events := by
  change (Run.bind x f).events = _
  simp only [Run.bind, h]

theorem bind_events_of_error {x : Run α} {e : ParseError} (h : x.result = .error e)
    (f : α → Run β) : (x >>= f).events = x.events := by
  change (Run.bind x f).events = _
  simp only [Run.bind, h]

end
end Run
end RuleTree
