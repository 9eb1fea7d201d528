import PromptRegistry.Console.Command
import PromptRegistry.Session.Runner

namespace PromptRegistry

structure Served where
  runner : Runner
  notices : List Notice

namespace Served

open Session (Effect)

def noticesOf (effects : List Effect) : List Notice :=
  effects.filterMap fun
    | .notice notice => some notice
    | .finished _ _ => none

def outcome? (task : Nat) (effects : List Effect) : Option Outcome :=
  effects.findSome? fun
    | .notice _ => none
    | .finished number outcome => if number = task then some outcome else none

/-- Takes an event as the next task, if it is one, and keeps what is reported. -/
def take (event : Session.Event) : StateM Served (Option Outcome) := fun served =>
  let (runner, effects) := served.runner.take event
  (outcome? served.runner.session.nextTask effects,
    ⟨runner, served.notices ++ noticesOf effects⟩)

def perform (request : Request) : StateM Served (Option Outcome) := fun served =>
  take (served.runner.event request) served

end Served

namespace PromptService

/-- What to return where a task has not ended: its fetches are held back. -/
def stillWaiting : Failure := .message "waiting"

/-- The operations of a service, each of which performs one request. -/
def ofPerform {m : Type → Type} [Monad m] (perform : Request → m (Option Outcome)) :
    PromptService m where
  prompt name := do
    match ← perform (.get name) with
    | some (.prompt compiler) => return compiler
    | _ => return ⟨none⟩
  invalidate names := do
    match ← perform (.invalidate names) with
    | some (.batch result) => return result
    | _ => return .error ⟨names, stillWaiting⟩
  createPrompt spec := do
    match ← perform (.create spec) with
    | some (.created result) => return result
    | _ => return .error stillWaiting

end PromptService

def Served.service : PromptService (StateM Served) := .ofPerform Served.perform

end PromptRegistry
