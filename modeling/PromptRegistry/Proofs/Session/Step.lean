import PromptRegistry.Proofs.Cache.Store
import PromptRegistry.Session.Step

/-!
# What one step does

Later proofs use these equations and never open the step itself.
-/

namespace PromptRegistry.Session

/-- The results among the effects, each with the number of its task. -/
def results (effects : List Effect) : List (Nat × Outcome) :=
  effects.filterMap fun
    | .notice _ => none
    | .finished task outcome => some (task, outcome)

@[simp] theorem results_nil : results [] = [] := rfl

@[simp] theorem results_notice (notice : Notice) (effects : List Effect) :
    results (.notice notice :: effects) = results effects := rfl

@[simp] theorem results_finished (task : Nat) (outcome : Outcome) (effects : List Effect) :
    results (.finished task outcome :: effects) = (task, outcome) :: results effects := rfl

@[simp] theorem results_append (first second : List Effect) :
    results (first ++ second) = results first ++ results second :=
  List.filterMap_append

/-- Whether the body of a fetch is stored whatever is cached. -/
def Owner.overwrites : Owner → Bool
  | .read _ | .store _ | .member _ _ => true
  | .refresh _ | .background => false

/-- What the end of a fetch stores. -/
def Fetch.write? (fetch : Fetch) (cache : Cache) : Option (String × Body) :=
  match fetch.answer with
  | .error _ => none
  | .ok body =>
      if fetch.owner.overwrites ∨ cache.lookup? fetch.name ≠ some body then some (fetch.name, body)
      else none

theorem write?_name {fetch : Fetch} {cache : Cache} {name : String} {body : Body}
    (h : fetch.write? cache = some (name, body)) :
    fetch.name = name ∧ fetch.answer = .ok body ∧
      (fetch.owner.overwrites = true ∨ cache.lookup? fetch.name ≠ some body) := by
  unfold Fetch.write? at h
  split at h
  · simp at h
  case h_2 stored hanswer =>
    split at h
    case isTrue hwrites =>
      obtain ⟨rfl, rfl⟩ := Prod.mk.inj (Option.some.inj h)
      exact ⟨rfl, hanswer, hwrites⟩
    case isFalse => simp at h

def Fetch.refreshOutcome (fetch : Fetch) (cache : Cache) : RefreshOutcome :=
  match fetch.answer, fetch.write? cache with
  | .error _, _ => .failed
  | .ok _, some _ => .replaced (cache.lastVersion + 1)
  | .ok _, none => .unchanged

/-- The result that the end of a fetch is for a task which waits for it alone. -/
def Fetch.result? (fetch : Fetch) (cache : Cache) : Option (Nat × Outcome) :=
  match fetch.owner with
  | .read task => some (task, .prompt ⟨fetch.answer.toOption⟩)
  | .store task => some (task, .body (within (fetchContext fetch.name) fetch.answer))
  | .refresh task => some (task, .refresh (fetch.refreshOutcome cache))
  | .background | .member _ _ => none

/-- How far a name of a batch has come when its fetch has ended. -/
def Fetch.progress (fetch : Fetch) : Progress :=
  match fetch.answer with
  | .ok _ => .stored
  | .error failure => .failed (.context (fetchContext fetch.name) failure)

def Fetch.settle (fetch : Fetch) (batches : List Batch) : List Batch × List Effect :=
  match fetch.owner with
  | .member task position => updateBatches task position fetch.progress batches
  | _ => (batches, [])

private theorem applyRefresh_session (session : Session) (fetch : Fetch)
    (h : fetch.owner.overwrites = false) :
    (session.applyRefresh fetch.name fetch.answer).1 =
      { session with cache := session.cache.written (fetch.write? session.cache) } := by
  obtain ⟨number, name, answer, owner⟩ := fetch
  cases answer with
  | error failure => rfl
  | ok body =>
      by_cases hbody : session.cache.lookup? name = some body <;>
        simp_all [applyRefresh, Cache.storeIfChanged, Fetch.write?, Cache.written]

private theorem applyRefresh_results (session : Session) (fetch : Fetch) :
    results (session.applyRefresh fetch.name fetch.answer).2.1 = [] := by
  unfold applyRefresh
  split
  · rfl
  · split <;> rfl

private theorem applyRefresh_outcome (session : Session) (fetch : Fetch)
    (h : fetch.owner.overwrites = false) :
    (session.applyRefresh fetch.name fetch.answer).2.2 = fetch.refreshOutcome session.cache := by
  obtain ⟨number, name, answer, owner⟩ := fetch
  cases answer with
  | error failure => rfl
  | ok body =>
      by_cases hbody : session.cache.lookup? name = some body <;>
        simp_all [applyRefresh, Cache.storeIfChanged, Fetch.write?, Fetch.refreshOutcome,
          Cache.nextEntry]

/-- A fetch that ends changes the cache and the open batches, and nothing else. -/
theorem deliver_session (session : Session) (fetch : Fetch) :
    (session.deliver fetch).1 =
      { session with
        cache := session.cache.written (fetch.write? session.cache)
        batches := (fetch.settle session.batches).1 } := by
  obtain ⟨number, name, answer, owner⟩ := fetch
  cases owner with
  | refresh task => exact applyRefresh_session session ⟨number, name, answer, .refresh task⟩ rfl
  | background => exact applyRefresh_session session ⟨number, name, answer, .background⟩ rfl
  | read task => cases answer <;> rfl
  | store task => cases answer <;> rfl
  | member task position => cases answer <;> rfl

theorem deliver_results (session : Session) (fetch : Fetch) :
    results (session.deliver fetch).2 =
      (fetch.result? session.cache).toList ++ results (fetch.settle session.batches).2 := by
  obtain ⟨number, name, answer, owner⟩ := fetch
  cases owner with
  | refresh task =>
      have hresults := applyRefresh_results session ⟨number, name, answer, .refresh task⟩
      have houtcome := applyRefresh_outcome session ⟨number, name, answer, .refresh task⟩ rfl
      simp only [deliver, results_append, hresults, houtcome]
      rfl
  | background => exact applyRefresh_results session ⟨number, name, answer, .background⟩
  | read task => cases answer <;> rfl
  | store task => cases answer <;> rfl
  | member task position => cases answer <;> rfl

@[simp] def Event.isTask : Event → Bool
  | .get _ _ | .refresh _ _ | .fetchAndStore _ _ | .invalidate _ | .create _ _ => true
  | .spawnRefresh _ | .store _ _ | .wake _ _ | .complete _ => false

@[simp] def ended? (session : Session) : Event → Option Fetch
  | .complete number => session.inFlight.find? (·.number == number)
  | _ => none

@[simp] def remains (session : Session) : Event → List Fetch
  | .complete number => session.inFlight.filter (·.number != number)
  | _ => session.inFlight

@[simp] def begins (session : Session) : Event → List Fetch
  | .get name answer =>
      if session.cache.lookup? name = none then
        [⟨session.fetches + 1, name, answer, .read session.nextTask⟩]
      else []
  | .refresh name answer => [⟨session.fetches + 1, name, answer, .refresh session.nextTask⟩]
  | .fetchAndStore name answer => [⟨session.fetches + 1, name, answer, .store session.nextTask⟩]
  | .invalidate members =>
      members.mapIdx fun position member =>
        ⟨session.fetches + 1 + position, member.1, member.2, .member session.nextTask position⟩
  | .wake position answer =>
      session.spawned[position]?.toList.map fun name =>
        ⟨session.fetches + 1, name, answer, .background⟩
  | .create _ _ | .spawnRefresh _ | .store _ _ | .complete _ => []

@[simp] def write? (session : Session) : Event → Option (String × Body)
  | .store name body => some (name, body)
  | .complete number => (session.ended? (.complete number)).bind (·.write? session.cache)
  | _ => none

/-- The names whose background refresh has not begun after an event. -/
@[simp] def due (session : Session) : Event → List String
  | .get name _ =>
      if session.cache.lookup? name = none then session.spawned else session.spawned ++ [name]
  | .spawnRefresh name => session.spawned ++ [name]
  | .wake position _ => session.spawned.eraseIdx position
  | _ => session.spawned

/-- The batch that an event opens. One without names is never open. -/
@[simp] def opens (session : Session) : Event → List Batch
  | .invalidate (member :: members) =>
      [⟨session.nextTask, (member :: members).map fun member => ⟨member.1, .waiting⟩⟩]
  | _ => []

@[simp] def settles (session : Session) : Event → List Batch × List Effect
  | .complete number =>
      match session.ended? (.complete number) with
      | none => (session.batches, [])
      | some fetch => fetch.settle session.batches
  | _ => (session.batches, [])

/-- The results that an event delivers to the task it begins, or to that of the fetch it ends. -/
@[simp] def delivers (session : Session) : Event → List (Nat × Outcome)
  | .get name _ =>
      (session.cache.lookup? name).toList.map fun body => (session.nextTask, .prompt ⟨some body⟩)
  | .invalidate [] => [(session.nextTask, .batch (.ok ()))]
  | .create spec answer =>
      [(session.nextTask, .created (within (createContext spec.name) answer))]
  | .complete number =>
      ((session.ended? (.complete number)).bind (·.result? session.cache)).toList
  | _ => []

private theorem beginMembers_eq (task : Nat) (session : Session) (position : Nat)
    (members : List (String × Answer)) :
    beginMembers task session position members =
      { session with
        fetches := session.fetches + members.length
        inFlight := session.inFlight ++ members.mapIdx fun offset member =>
          ⟨session.fetches + 1 + offset, member.1, member.2,
            .member task (position + offset)⟩ } := by
  induction members generalizing session position with
  | nil => simp [beginMembers]
  | cons member members ih =>
      have hnumber (offset : Nat) :
          session.fetches + 1 + 1 + offset = session.fetches + 1 + (offset + 1) := by omega
      have hposition (offset : Nat) : position + 1 + offset = position + (offset + 1) := by omega
      have hcount : session.fetches + 1 + members.length = session.fetches + (members.length + 1) :=
        by omega
      rw [beginMembers, ih]
      simp only [beginFetch, List.length_cons, List.mapIdx_cons, List.append_assoc,
        List.singleton_append, Nat.add_zero, hnumber, hposition, hcount]

private theorem finishBatch_waiting (task : Nat) (member : String × Answer)
    (members : List (String × Answer)) :
    finishBatch ⟨task, (member :: members).map fun member => ⟨member.1, .waiting⟩⟩ = none := by
  simp [finishBatch, Member.isDone]

theorem remains_of_none {session : Session} {event : Event} (h : session.ended? event = none) :
    session.remains event = session.inFlight := by
  cases event with
  | complete number =>
      apply List.filter_eq_self.mpr
      intro fetch hfetch
      simpa using List.find?_eq_none.mp h fetch hfetch
  | _ => rfl

theorem mem_remains {session : Session} {event : Event} {fetch : Fetch}
    (hfetch : fetch ∈ session.inFlight) (hevent : event ≠ .complete fetch.number) :
    fetch ∈ session.remains event := by
  cases event with
  | complete number =>
      have hne : fetch.number ≠ number := fun heq => hevent (congrArg _ heq.symm)
      exact List.mem_filter.mpr ⟨hfetch, by simpa using hne⟩
  | _ => exact hfetch

theorem remains_subset {session : Session} {event : Event} :
    session.remains event ⊆ session.inFlight := by
  cases event with
  | complete number => exact fun fetch hfetch => (List.mem_filter.mp hfetch).1
  | _ => exact fun fetch hfetch => hfetch

theorem settles_of_none {session : Session} {event : Event} (h : session.ended? event = none) :
    session.settles event = (session.batches, []) := by
  cases event with
  | complete number => rw [settles, h]
  | _ => rfl

theorem settles_of_some {session : Session} {event : Event} {fetch : Fetch}
    (h : session.ended? event = some fetch) :
    session.settles event = fetch.settle session.batches := by
  cases event with
  | complete number => rw [settles, h]
  | _ => simp at h

theorem ended?_eq_some {session : Session} {event : Event} {fetch : Fetch}
    (h : session.ended? event = some fetch) :
    event = .complete fetch.number ∧ fetch ∈ session.inFlight := by
  cases event with
  | complete number =>
      obtain rfl : fetch.number = number := by simpa using List.find?_some h
      exact ⟨rfl, List.mem_of_find?_eq_some h⟩
  | _ => simp at h

private theorem complete_of_none (session : Session) (number : Nat)
    (h : session.inFlight.find? (·.number == number) = none) :
    session.complete number = (session, []) := by
  rw [complete, h]

private theorem complete_of_some (session : Session) (number : Nat) (fetch : Fetch)
    (h : session.inFlight.find? (·.number == number) = some fetch) :
    session.complete number =
      { session with inFlight := session.inFlight.filter (·.number != number) }.deliver fetch := by
  rw [complete, h]

theorem mem_opens {session : Session} {event : Event} {batch : Batch}
    (h : batch ∈ session.opens event) :
    ∃ members, event = .invalidate members ∧
      batch = ⟨session.nextTask, members.map fun member => ⟨member.1, .waiting⟩⟩ := by
  cases event with
  | invalidate members =>
      cases members with
      | nil => simp at h
      | cons member members => exact ⟨member :: members, rfl, List.mem_singleton.mp h⟩
  | _ => simp at h

/-- All that a step changes in a session. -/
theorem step_session (session : Session) (event : Event) :
    (session.step event).1 =
      { cache := session.cache.written (session.write? event)
        tasks := session.tasks + event.isTask.toNat
        fetches := session.fetches + (session.begins event).length
        inFlight := session.remains event ++ session.begins event
        spawned := session.due event
        batches := (session.settles event).1 ++ session.opens event } := by
  cases event with
  | get name answer =>
      cases hbody : session.cache.lookup? name <;>
        simp [step, get, beginTask, beginFetch, nextTask, Cache.written, hbody]
  | refresh name answer => simp [step, beginTask, beginFetch, nextTask, Cache.written]
  | fetchAndStore name answer => simp [step, beginTask, beginFetch, nextTask, Cache.written]
  | invalidate members =>
      cases members with
      | nil =>
          simp [step, invalidate, beginMembers, finishBatch, beginTask, nextTask, Cache.written]
      | cons member members =>
          rw [step, invalidate, finishBatch_waiting]
          simp [beginMembers_eq, beginTask, nextTask, Cache.written]
  | create spec answer => simp [step, beginTask, nextTask, Cache.written]
  | spawnRefresh name => simp [step, Cache.written]
  | store name body => simp [step, Cache.written]
  | wake position answer =>
      cases hname : session.spawned[position]? with
      | none =>
          have hposition := List.getElem?_eq_none_iff.mp hname
          simp [step, Cache.written, hname, List.eraseIdx_of_length_le hposition]
      | some name => simp [step, beginFetch, Cache.written, hname]
  | complete number =>
      cases hfetch : session.inFlight.find? (·.number == number) with
      | none =>
          have hended : session.ended? (.complete number) = none := hfetch
          rw [step, complete_of_none session number hfetch, remains_of_none hended]
          simp [hfetch, Cache.written]
      | some fetch =>
          rw [step, complete_of_some session number fetch hfetch, deliver_session]
          simp [hfetch]

theorem step_results (session : Session) (event : Event) :
    results (session.step event).2 =
      session.delivers event ++ results (session.settles event).2 := by
  cases event with
  | get name answer => cases hbody : session.cache.lookup? name <;> simp [step, get, hbody]
  | invalidate members =>
      cases members with
      | nil => rfl
      | cons member members =>
          rw [step, invalidate, finishBatch_waiting]
          rfl
  | wake position answer => cases hname : session.spawned[position]? <;> simp [step, hname]
  | complete number =>
      cases hfetch : session.inFlight.find? (·.number == number) with
      | none => simp [step, complete_of_none session number hfetch, hfetch]
      | some fetch =>
          rw [step, complete_of_some session number fetch hfetch, deliver_results]
          simp [hfetch]
  | refresh name answer => rfl
  | fetchAndStore name answer => rfl
  | create spec answer => rfl
  | spawnRefresh name => rfl
  | store name body => rfl

end PromptRegistry.Session
