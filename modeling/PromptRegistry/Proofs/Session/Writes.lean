import PromptRegistry.Proofs.Session.History

namespace PromptRegistry.Session

/-- A step stores a body under a name. -/
inductive Writes (session : Session) : Event → String → Body → Prop
  | direct (name : String) (body : Body) : Writes session (.store name body) name body
  | fetched {fetch : Fetch} {body : Body} (hfetch : fetch ∈ session.inFlight)
      (hanswer : fetch.answer = .ok body) (howner : fetch.owner.overwrites = true) :
      Writes session (.complete fetch.number) fetch.name body
  | refreshed {fetch : Fetch} {body : Body} (hfetch : fetch ∈ session.inFlight)
      (hanswer : fetch.answer = .ok body) (howner : fetch.owner.overwrites = false)
      (hchanged : session.cache.lookup? fetch.name ≠ some body) :
      Writes session (.complete fetch.number) fetch.name body

/-- How many steps of a run write. -/
def writeCount (session : Session) : List Event → Nat
  | [] => 0
  | event :: events =>
      (session.write? event).toList.length + (session.step event).1.writeCount events

def madeEntry? (session : Session) (event : Event) : Option Entry :=
  (session.write? event).map fun stored => session.cache.nextEntry stored.1 stored.2

def madeEntries (session : Session) : List Event → List Entry
  | [] => []
  | event :: events =>
      (session.madeEntry? event).toList ++ (session.step event).1.madeEntries events

/-- A refresh reports what its end did to the cache. -/
structure Reports (session : Session) (fetch : Fetch) (outcome : RefreshOutcome) : Prop where
  replaced (version : Nat) : outcome = .replaced version ↔
    version = session.cache.lastVersion + 1 ∧
      ∃ body, Writes session (.complete fetch.number) fetch.name body
  unchanged : outcome = .unchanged ↔
    (∃ body, fetch.answer = .ok body) ∧
      ∀ name body, ¬Writes session (.complete fetch.number) name body
  failed : outcome = .failed ↔ ∃ failure, fetch.answer = .error failure

theorem write?_eq_some_iff {prior : List Event} {event : Event} {name : String} {body : Body} :
    (after prior).write? event = some (name, body) ↔ Writes (after prior) event name body := by
  constructor
  · intro h
    cases event with
    | store stored content =>
        obtain ⟨rfl, rfl⟩ := Prod.mk.inj (Option.some.inj h)
        exact .direct stored content
    | complete number =>
        obtain ⟨fetch, hfind, hwrite⟩ := Option.bind_eq_some_iff.mp h
        have hmem := List.mem_of_find?_eq_some hfind
        obtain rfl : fetch.number = number := by simpa using List.find?_some hfind
        obtain ⟨rfl, hanswer, howner⟩ := write?_name hwrite
        by_cases hover : fetch.owner.overwrites = true
        · exact .fetched hmem hanswer hover
        · exact .refreshed hmem hanswer (Bool.not_eq_true _ ▸ hover) (howner.resolve_left hover)
    | _ => simp at h
  · intro h
    cases h with
    | direct => rfl
    | fetched hfetch hanswer howner =>
        simp [find?_inFlight hfetch, Fetch.write?, hanswer, howner]
    | refreshed hfetch hanswer howner hchanged =>
        simp [find?_inFlight hfetch, Fetch.write?, hanswer, hchanged]

theorem run_lastVersion (session : Session) (events : List Event) :
    (session.run events).1.cache.lastVersion =
      session.cache.lastVersion + session.writeCount events := by
  induction events generalizing session with
  | nil => rfl
  | cons event events ih =>
      rw [run_cons, ih, writeCount, step_session]
      cases session.write? event with
      | none => simp [Cache.written]
      | some stored =>
          simp only [Cache.written, Cache.lastVersion_store, Option.toList_some,
            List.length_singleton]
          omega

theorem madeEntries_versions (session : Session) (events : List Event) :
    (session.madeEntries events).map Entry.version =
      List.range' (session.cache.lastVersion + 1) (session.writeCount events) := by
  induction events generalizing session with
  | nil => rfl
  | cons event events ih =>
      rw [madeEntries, List.map_append, ih, writeCount, madeEntry?, step_session]
      cases session.write? event with
      | none => simp [Cache.written]
      | some stored =>
          simp [Cache.written, Cache.nextEntry, List.range'_succ, Nat.add_comm 1]

private theorem refresh_results {prior : List Event} {fetch : Fetch} {task : Nat}
    (hfetch : fetch ∈ (after prior).inFlight) (howner : fetch.owner = .refresh task) :
    results ((after prior).step (.complete fetch.number)).2 =
      [(task, .refresh (fetch.refreshOutcome (after prior).cache))] := by
  rw [step_results]
  simp [find?_inFlight hfetch, Fetch.result?, Fetch.settle, howner]

private theorem refreshOutcome_reports {prior : List Event} {fetch : Fetch}
    (hfetch : fetch ∈ (after prior).inFlight) :
    Reports (after prior) fetch (fetch.refreshOutcome (after prior).cache) := by
  have hwrites (name : String) (body : Body) :
      Writes (after prior) (.complete fetch.number) name body ↔
        fetch.write? (after prior).cache = some (name, body) := by
    rw [← write?_eq_some_iff]
    simp [find?_inFlight hfetch]
  cases hanswer : fetch.answer with
  | error failure =>
      have hwrite : fetch.write? (after prior).cache = none := by simp [Fetch.write?, hanswer]
      constructor <;> simp [Fetch.refreshOutcome, hanswer, hwrites, hwrite]
  | ok body =>
      cases hwrite : fetch.write? (after prior).cache with
      | none => constructor <;> simp [Fetch.refreshOutcome, hanswer, hwrites, hwrite]
      | some stored =>
          obtain ⟨name, stored⟩ := stored
          obtain ⟨rfl, -, -⟩ := write?_name hwrite
          constructor <;> simp [Fetch.refreshOutcome, hanswer, hwrites, hwrite, eq_comm]

/-- A step writes one name or nothing, the version counts the writes, and a refresh reports what its
end did. -/
theorem step_writes_one_or_nothing (prior : List Event) (event : Event) :
    let session := after prior
    let next := (session.step event).1
    ((∀ name body, ¬Writes session event name body) → next.cache = session.cache) ∧
      (∀ name body, Writes session event name body →
        next.cache.entry? name = some ⟨name, body, session.cache.lastVersion + 1⟩ ∧
          next.cache.lastVersion = session.cache.lastVersion + 1 ∧
          ∀ other, other ≠ name → next.cache.entry? other = session.cache.entry? other) ∧
      (∀ name body, session.write? event = some (name, body) ↔ Writes session event name body) ∧
      session.cache.lastVersion = start.writeCount prior ∧
      ∀ fetch ∈ session.inFlight, ∀ task, fetch.owner = .refresh task →
        ∃ outcome, results (session.step (.complete fetch.number)).2 = [(task, .refresh outcome)] ∧
          Reports session fetch outcome := by
  intro session next
  have hcache : next.cache = session.cache.written (session.write? event) := by
    simp only [next, step_session]
  refine ⟨?_, ?_, fun _ _ => write?_eq_some_iff, ?_, ?_⟩
  · intro hnone
    cases hwrite : session.write? event with
    | none => rw [hcache, hwrite, Cache.written]
    | some stored => exact absurd (write?_eq_some_iff.mp hwrite) (hnone stored.1 stored.2)
  · intro name body hwrites
    rw [hcache, write?_eq_some_iff.mpr hwrites]
    exact ⟨Cache.entry?_store_self _ _ _, rfl, fun other => Cache.entry?_store_of_ne _ _⟩
  · have hcount := run_lastVersion start prior
    rwa [show start.cache.lastVersion = 0 from rfl, Nat.zero_add] at hcount
  · intro fetch hfetch task howner
    exact ⟨_, refresh_results hfetch howner, refreshOutcome_reports hfetch⟩

end PromptRegistry.Session
