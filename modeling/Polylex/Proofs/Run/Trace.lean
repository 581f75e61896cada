import Polylex.Run.Session

/-!
# Computations that report

A `Polylex.Traced` computation reports diagnostics and ends with a value or an error. What
has been reported before an error stays reported.
-/

namespace Polylex

/-- The diagnostics of a computation, in the order in which they were found, and its value
or error. -/
structure Traced (α : Type) where
  diagnostics : List Diagnostic
  outcome : Except TokenizeError α

namespace Traced

/-- A value, with nothing to report. -/
def value {α : Type} (a : α) : Traced α := ⟨[], .ok a⟩

/-- An error, with nothing to report. -/
def fail {α : Type} (e : TokenizeError) : Traced α := ⟨[], .error e⟩

/-- Nothing but diagnostics. -/
def report (ds : List Diagnostic) : Traced Unit := ⟨ds, .ok ()⟩

/-- One computation after another, unless the first fails. -/
def andThen {α β : Type} (x : Traced α) (f : α → Traced β) : Traced β :=
  match x.outcome with
  | .error e => ⟨x.diagnostics, .error e⟩
  | .ok a => ⟨x.diagnostics ++ (f a).diagnostics, (f a).outcome⟩

instance : Monad Traced where
  pure := value
  bind := andThen

@[simp] theorem pure_eq {α : Type} (a : α) : (pure a : Traced α) = ⟨[], .ok a⟩ := rfl

@[simp] theorem bind_ok {α β : Type} (ds : List Diagnostic) (a : α) (f : α → Traced β) :
    (⟨ds, .ok a⟩ : Traced α) >>= f = ⟨ds ++ (f a).diagnostics, (f a).outcome⟩ := rfl

@[simp] theorem bind_error {α β : Type} (ds : List Diagnostic) (e : TokenizeError)
    (f : α → Traced β) : (⟨ds, .error e⟩ : Traced α) >>= f = ⟨ds, .error e⟩ := rfl

/-- Two computations in sequence have a value if the first has one and the second, run on it,
has one too. -/
theorem outcome_bind_eq_ok_iff {α β : Type} {x : Traced α} {f : α → Traced β} {b : β} :
    (x >>= f).outcome = .ok b ↔ ∃ a, x.outcome = .ok a ∧ (f a).outcome = .ok b := by
  obtain ⟨ds, outcome⟩ := x
  cases outcome with
  | error e => simp
  | ok a => simp

end Traced

end Polylex
