import PromptRegistry.Session.Basic

/-! # Steps of a session -/

namespace PromptRegistry.Session

/-- What was being done when a fetch failed. -/
def fetchContext (name : String) : String := "Failed to fetch prompt: " ++ name

def createContext (name : String) : String := "Failed to create prompt: " ++ name

def nextTask (session : Session) : Nat := session.tasks + 1

def beginTask (session : Session) : Session := { session with tasks := session.nextTask }

def beginFetch (session : Session) (name : String) (answer : Answer) (owner : Owner) : Session :=
  { session with
    fetches := session.fetches + 1
    inFlight := session.inFlight ++ [⟨session.fetches + 1, name, answer, owner⟩] }

def beginMembers (task : Nat) : Session → Nat → List (String × Answer) → Session
  | session, _, [] => session
  | session, position, (name, answer) :: members =>
      beginMembers task (session.beginFetch name answer (.member task position)) (position + 1)
        members

def storeBody (session : Session) (name : String) (body : Body) : Session × List Effect :=
  ({ session with cache := session.cache.store name body },
    [.notice (.stored name (session.cache.nextEntry name body).version)])

/-- Lets the answer of a refresh change the cache. -/
def applyRefresh (session : Session) (name : String) (answer : Answer) :
    Session × List Effect × RefreshOutcome :=
  match answer with
  | .error _ => (session, [.notice (.refreshFailed name)], .failed)
  | .ok body =>
      match session.cache.storeIfChanged name body with
      | (cache, some entry) =>
          ({ session with cache := cache }, [.notice (.refreshed name entry.version)],
            .replaced entry.version)
      | (cache, none) =>
          ({ session with cache := cache }, [.notice (.unchanged name)], .unchanged)

def Member.isDone (member : Member) : Bool :=
  match member.progress with
  | .waiting => false
  | _ => true

/-- The names that failed, with their failures, in the order of the batch. -/
def failures (members : List Member) : List (String × Failure) :=
  members.filterMap fun member =>
    match member.progress with
    | .failed failure => some (member.name, failure)
    | _ => none

def batchResult (members : List Member) : Except BatchFailure Unit :=
  match failures members with
  | [] => .ok ()
  | (name, failure) :: rest => .error ⟨name :: rest.map Prod.fst, failure⟩

/-- Ends a batch when no name is waiting any more. -/
def finishBatch (batch : Batch) : Option (List Effect) :=
  if batch.members.all Member.isDone then
    some ((failures batch.members).map (fun failed => .notice (.prefillFailed failed.1)) ++
      [.finished batch.task (.batch (batchResult batch.members))])
  else none

def setProgress (progress : Progress) (position : Nat) (members : List Member) : List Member :=
  members.modify position fun member => { member with progress := progress }

/-- Records how a name of a batch ended, and ends the batch with its last name. -/
def updateBatches (task position : Nat) (progress : Progress) :
    List Batch → List Batch × List Effect
  | [] => ([], [])
  | batch :: batches =>
      if batch.task = task then
        let batch := { batch with members := setProgress progress position batch.members }
        match finishBatch batch with
        | some effects => (batches, effects)
        | none => (batch :: batches, [])
      else
        let (batches, effects) := updateBatches task position progress batches
        (batch :: batches, effects)

def endMember (session : Session) (task position : Nat) (progress : Progress) :
    Session × List Effect :=
  let (batches, effects) := updateBatches task position progress session.batches
  ({ session with batches := batches }, effects)

/-- Hands the answer of a fetch to its owner. -/
def deliver (session : Session) (fetch : Fetch) : Session × List Effect :=
  match fetch.owner, fetch.answer with
  | .read task, .ok body =>
      let (session, effects) := session.storeBody fetch.name body
      (session, effects ++ [.finished task (.prompt ⟨some body⟩)])
  | .read task, .error _ =>
      (session, [.notice (.unavailable fetch.name), .finished task (.prompt ⟨none⟩)])
  | .store task, .ok body =>
      let (session, effects) := session.storeBody fetch.name body
      (session, effects ++ [.finished task (.body (.ok body))])
  | .store task, .error failure =>
      (session, [.finished task (.body (.error (.context (fetchContext fetch.name) failure)))])
  | .refresh task, answer =>
      let (session, effects, outcome) := session.applyRefresh fetch.name answer
      (session, effects ++ [.finished task (.refresh outcome)])
  | .background, answer =>
      let (session, effects, _) := session.applyRefresh fetch.name answer
      (session, effects)
  | .member task position, .ok body =>
      let (session, stored) := session.storeBody fetch.name body
      let (session, effects) := session.endMember task position .stored
      (session, stored ++ effects)
  | .member task position, .error failure =>
      session.endMember task position (.failed (.context (fetchContext fetch.name) failure))

def complete (session : Session) (number : Nat) : Session × List Effect :=
  match session.inFlight.find? (·.number == number) with
  | none => (session, [])
  | some fetch =>
      { session with inFlight := session.inFlight.filter (·.number != number) }.deliver fetch

def get (session : Session) (name : String) (answer : Answer) : Session × List Effect :=
  let task := session.nextTask
  match session.cache.lookup? name with
  | some body =>
      ({ session.beginTask with spawned := session.spawned ++ [name] },
        [.notice (.serving name), .finished task (.prompt ⟨some body⟩)])
  | none => (session.beginTask.beginFetch name answer (.read task), [])

/-- A batch without names ends at once. -/
def invalidate (session : Session) (members : List (String × Answer)) : Session × List Effect :=
  let batch : Batch := ⟨session.nextTask, members.map fun member => ⟨member.1, .waiting⟩⟩
  let session := beginMembers batch.task session.beginTask 0 members
  match finishBatch batch with
  | some effects => (session, effects)
  | none => ({ session with batches := session.batches ++ [batch] }, [])

def step (session : Session) : Event → Session × List Effect
  | .get name answer => session.get name answer
  | .refresh name answer =>
      (session.beginTask.beginFetch name answer (.refresh session.nextTask), [])
  | .fetchAndStore name answer =>
      (session.beginTask.beginFetch name answer (.store session.nextTask), [])
  | .invalidate members => session.invalidate members
  | .create spec answer =>
      (session.beginTask,
        [.finished session.nextTask (.created (within (createContext spec.name) answer))])
  | .spawnRefresh name => ({ session with spawned := session.spawned ++ [name] }, [])
  | .store name body => ({ session with cache := session.cache.store name body }, [])
  | .wake position answer =>
      match session.spawned[position]? with
      | none => (session, [])
      | some name =>
          ({ session with spawned := session.spawned.eraseIdx position }.beginFetch name answer
            .background, [])
  | .complete number => session.complete number

end PromptRegistry.Session
