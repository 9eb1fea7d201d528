import PromptRegistry.Session.Step

/-! # Running a session against a source -/

namespace PromptRegistry

structure Source where
  fetch : String → Answer
  create : Spec → Except Failure Record

structure Runner where
  session : Session
  source : Source
  /-- Names whose next fetches are held back. -/
  held : List String
  /-- Numbers of the fetches that are held back. -/
  waiting : List Nat

/-- What a task asks for. -/
inductive Request where
  | get (name : String)
  | refresh (name : String)
  | fetchAndStore (name : String)
  | invalidate (names : List String)
  | create (spec : Spec)
  | spawnRefresh (name : String)
  | store (name : String) (body : Body)
  | release (number : Nat)

namespace Runner

open Session (Event Effect)

def ofSource (source : Source) : Runner := ⟨Session.start, source, [], []⟩

/-- The event of a request, with the answers that the source has at that moment. -/
def event (runner : Runner) : Request → Event
  | .get name => .get name (runner.source.fetch name)
  | .refresh name => .refresh name (runner.source.fetch name)
  | .fetchAndStore name => .fetchAndStore name (runner.source.fetch name)
  | .invalidate names => .invalidate (names.map fun name => (name, runner.source.fetch name))
  | .create spec => .create spec (runner.source.create spec)
  | .spawnRefresh name => .spawnRefresh name
  | .store name body => .store name body
  | .release number => .complete number

/-- Takes one step. Fetches that it begins for held names wait. -/
def advance (runner : Runner) (event : Event) : Runner × List Effect :=
  let (session, effects) := runner.session.step event
  let begun := session.inFlight.filter fun fetch =>
    runner.session.fetches < fetch.number && runner.held.contains fetch.name
  ({ runner with session := session, waiting := runner.waiting ++ begun.map (·.number) }, effects)

/-- The next event that needs no request. -/
def pendingEvent? (runner : Runner) : Option Event :=
  match runner.session.inFlight.find? fun fetch => !runner.waiting.contains fetch.number with
  | some fetch => some (.complete fetch.number)
  | none =>
      match runner.session.spawned with
      | name :: _ => some (.wake 0 (runner.source.fetch name))
      | [] => none

/-- Takes up to so many steps that need no request. -/
def settle : Nat → Runner → Runner × List Effect
  | 0, runner => (runner, [])
  | fuel + 1, runner =>
      match runner.pendingEvent? with
      | none => (runner, [])
      | some event =>
          let (runner, effects) := runner.advance event
          let (runner, more) := settle fuel runner
          (runner, effects ++ more)

/-- Takes a step and lets the session settle. Each fetch in flight takes one more step and each
spawned refresh two. -/
def take (runner : Runner) (event : Event) : Runner × List Effect :=
  let (runner, effects) := runner.advance event
  let fuel := runner.session.inFlight.length + 2 * runner.session.spawned.length
  let (runner, more) := settle fuel runner
  (runner, effects ++ more)

def perform (runner : Runner) (request : Request) : Runner × List Effect :=
  runner.take (runner.event request)

/-- Forgets that a fetch waits, and ends it. -/
def release (runner : Runner) (number : Nat) : Runner × List Effect :=
  perform { runner with waiting := runner.waiting.filter (· != number) } (.release number)

end Runner

end PromptRegistry
