import Mathlib.Data.List.Induction
import PromptRegistry.Proofs.Session.Step
import PromptRegistry.Session.Service

namespace PromptRegistry.Session

def run : Session → List Event → Session × List Effect
  | session, [] => (session, [])
  | session, event :: events =>
      let (next, effects) := session.step event
      let (last, more) := run next events
      (last, effects ++ more)

/-- The session that events lead to from an empty cache. -/
def after (events : List Event) : Session := (start.run events).1

/-- The results that tasks have delivered, in order. -/
def delivered (events : List Event) : List (Nat × Outcome) := results (start.run events).2

theorem run_cons (session : Session) (event : Event) (events : List Event) :
    session.run (event :: events) =
      (((session.step event).1.run events).1,
        (session.step event).2 ++ ((session.step event).1.run events).2) := rfl

theorem run_append (session : Session) (first second : List Event) :
    session.run (first ++ second) =
      (((session.run first).1.run second).1,
        (session.run first).2 ++ ((session.run first).1.run second).2) := by
  induction first generalizing session with
  | nil => simp [run]
  | cons event first ih => simp [run_cons, ih]

theorem run_singleton (session : Session) (event : Event) :
    session.run [event] = session.step event := by
  simp [run]

@[simp] theorem after_nil : after [] = start := rfl

@[simp] theorem delivered_nil : delivered [] = [] := rfl

theorem after_append (prior events : List Event) :
    after (prior ++ events) = ((after prior).run events).1 := by
  rw [after, run_append, after]

theorem delivered_append (prior events : List Event) :
    delivered (prior ++ events) = delivered prior ++ results ((after prior).run events).2 := by
  rw [delivered, run_append, results_append, delivered, after]

theorem after_concat (prior : List Event) (event : Event) :
    after (prior ++ [event]) = ((after prior).step event).1 := by
  rw [after_append, run_singleton]

theorem delivered_concat (prior : List Event) (event : Event) :
    delivered (prior ++ [event]) = delivered prior ++ results ((after prior).step event).2 := by
  rw [delivered_append, run_singleton]

end PromptRegistry.Session

namespace PromptRegistry

/-- Events that need no request: fetches end and spawned refreshes begin. -/
def Session.Event.isQuiet : Session.Event → Bool
  | .wake _ _ | .complete _ => true
  | _ => false

namespace Runner

open Session (Event)

private theorem pendingEvent?_isQuiet {runner : Runner} {event : Event}
    (h : runner.pendingEvent? = some event) : event.isQuiet = true := by
  unfold pendingEvent? at h
  split at h
  · obtain rfl := Option.some.inj h
    rfl
  · split at h
    · obtain rfl := Option.some.inj h
      rfl
    · simp at h

theorem settle_runs (fuel : Nat) (runner : Runner) :
    ∃ quiet : List Event, (∀ event ∈ quiet, event.isQuiet = true) ∧
      (runner.settle fuel).1.session = (runner.session.run quiet).1 ∧
      (runner.settle fuel).2 = (runner.session.run quiet).2 := by
  induction fuel generalizing runner with
  | zero => exact ⟨[], by simp, rfl, rfl⟩
  | succ fuel ih =>
      cases hevent : runner.pendingEvent? with
      | none => exact ⟨[], by simp, by rw [settle, hevent]; rfl, by rw [settle, hevent]; rfl⟩
      | some event =>
          obtain ⟨quiet, hquiet, hsession, heffects⟩ := ih (runner.advance event).1
          refine ⟨event :: quiet, ?_, ?_, ?_⟩
          · exact List.forall_mem_cons.mpr ⟨pendingEvent?_isQuiet hevent, hquiet⟩
          · rw [settle, hevent, Session.run_cons]
            exact hsession
          · rw [settle, hevent, Session.run_cons]
            exact congrArg _ heffects

theorem take_runs (runner : Runner) (event : Event) :
    ∃ quiet : List Event, (∀ event ∈ quiet, event.isQuiet = true) ∧
      (runner.take event).1.session = (runner.session.run (event :: quiet)).1 ∧
      (runner.take event).2 = (runner.session.run (event :: quiet)).2 := by
  obtain ⟨quiet, hquiet, hsession, heffects⟩ := settle_runs
    ((runner.advance event).1.session.inFlight.length +
      2 * (runner.advance event).1.session.spawned.length) (runner.advance event).1
  refine ⟨quiet, hquiet, ?_, ?_⟩
  · rw [Session.run_cons]
    exact hsession
  · rw [Session.run_cons]
    exact congrArg _ heffects

end Runner

theorem Served.outcome?_eq (task : Nat) (effects : List Session.Effect) :
    outcome? task effects =
      (Session.results effects).findSome? fun result =>
        if result.1 = task then some result.2 else none := by
  induction effects with
  | nil => rfl
  | cons effect effects ih =>
      rw [outcome?] at ih
      cases effect with
      | notice notice => exact ih
      | finished number outcome =>
          rw [outcome?, Session.results_finished, List.findSome?_cons, List.findSome?_cons, ih]

theorem Served.prompt_runs (served : Served) (name : String) :
    ∃ quiet : List Session.Event, (∀ event ∈ quiet, event.isQuiet = true) ∧
      let run := served.runner.session.run (.get name (served.runner.source.fetch name) :: quiet)
      (Served.service.prompt name served).2.runner.session = run.1 ∧
        (Served.service.prompt name served).1 =
          match outcome? served.runner.session.nextTask run.2 with
          | some (.prompt compiler) => compiler
          | _ => ⟨none⟩ := by
  obtain ⟨quiet, hquiet, hsession, heffects⟩ :=
    served.runner.take_runs (.get name (served.runner.source.fetch name))
  refine ⟨quiet, hquiet, ?_⟩
  simp only [← hsession, ← heffects, service, PromptService.ofPerform, bind, StateT.bind, perform,
    take, Runner.event, pure]
  cases outcome? served.runner.session.nextTask (served.runner.take _).2 with
  | none => exact ⟨rfl, rfl⟩
  | some outcome => cases outcome <;> exact ⟨rfl, rfl⟩

end PromptRegistry
