import PromptRegistry.Proofs.Session.Outcomes
import PromptRegistry.Proofs.Session.Run

namespace PromptRegistry.Session

def readFetch (session : Session) (name : String) (answer : Answer) : Fetch :=
  ⟨session.fetches + 1, name, answer, .read session.nextTask⟩

/-- How a read of a cached name goes, whatever happens later. -/
structure ReadsCached (prior : List Event) (name : String) (answer : Answer) (body : Body) :
    Prop where
  delivers : results ((after prior).step (.get name answer)).2 =
    [((after prior).nextTask, .prompt ⟨some body⟩)]
  /-- It begins a task and spawns a refresh. No fetch begins and the cache stays as it is. -/
  changes : ((after prior).step (.get name answer)).1 =
    { after prior with
      tasks := (after prior).nextTask
      spawned := (after prior).spawned ++ [name] }
  result : ∀ later, outcomes (after prior).nextTask (prior ++ .get name answer :: later) =
    [.prompt ⟨some body⟩]
  stays : ∀ later, ∃ other, (after (prior ++ later)).cache.lookup? name = some other
  /-- A service on the session returns the same, and goes on as a run does. -/
  served : ∀ served : Served, served.runner.session = after prior →
    (Served.service.prompt name served).1 = ⟨some body⟩ ∧
      ∃ quiet : List Event, (∀ event ∈ quiet, event.isQuiet = true) ∧
        (Served.service.prompt name served).2.runner.session =
          after (prior ++ .get name (served.runner.source.fetch name) :: quiet)

/-- How a read of a name that is not cached goes, whatever happens later. -/
structure ReadsFetched (prior : List Event) (name : String) (answer : Answer) : Prop where
  delivers : results ((after prior).step (.get name answer)).2 = []
  /-- It begins a task and a fetch, and the cache stays as it is. -/
  changes : ((after prior).step (.get name answer)).1 =
    { after prior with
      tasks := (after prior).nextTask
      fetches := (after prior).fetches + 1
      inFlight := (after prior).inFlight ++ [(after prior).readFetch name answer] }
  /-- Until its own fetch ends the task waits for that fetch and for no other. -/
  waits : ∀ later, .complete ((after prior).fetches + 1) ∉ later →
    outcomes (after prior).nextTask (prior ++ .get name answer :: later) = [] ∧
      ∀ fetch, fetch ∈ (after (prior ++ .get name answer :: later)).inFlight ∧
          fetch.owner.task? = some (after prior).nextTask ↔
        fetch = (after prior).readFetch name answer
  result : ∀ later, .complete ((after prior).fetches + 1) ∈ later →
    ∃ compiler : Compiler,
      outcomes (after prior).nextTask (prior ++ .get name answer :: later) = [.prompt compiler] ∧
        (∀ body, answer = .ok body → compiler = ⟨some body⟩) ∧
        (compiler = ⟨none⟩ ↔ ∃ failure, answer = .error failure)
  /-- A fetch that fails writes nothing when it ends. -/
  failure : ∀ failure, answer = .error failure →
    ∀ later, .complete ((after prior).fetches + 1) ∉ later →
      (after (prior ++ .get name answer :: later ++
          [.complete ((after prior).fetches + 1)])).cache =
        (after (prior ++ .get name answer :: later)).cache

private theorem run_lookup? {session : Session} {name : String} {body : Body}
    (h : session.cache.lookup? name = some body) (later : List Event) :
    ∃ other, (session.run later).1.cache.lookup? name = some other := by
  induction later generalizing session body with
  | nil => exact ⟨body, h⟩
  | cons event later ih =>
      have hkept := Cache.lookup?_written_isSome (session.write? event) (by rw [h]; rfl)
      obtain ⟨other, hother⟩ := Option.isSome_iff_exists.mp hkept
      rw [run_cons]
      exact ih (by rw [step_session]; exact hother)

theorem get_results_of_some {session : Session} {name : String} {body : Body}
    (h : session.cache.lookup? name = some body) (answer : Answer) :
    results (session.step (.get name answer)).2 = [(session.nextTask, .prompt ⟨some body⟩)] := by
  rw [step_results]
  simp [h]

private theorem prompt_of_cached {served : Served} {name : String} {body : Body}
    (h : served.runner.session.cache.lookup? name = some body) :
    (Served.service.prompt name served).1 = ⟨some body⟩ := by
  obtain ⟨quiet, -, -, hprompt⟩ := served.prompt_runs name
  have hstep := get_results_of_some h (served.runner.source.fetch name)
  rw [hprompt, Served.outcome?_eq, run_cons, results_append, hstep, List.cons_append,
    List.findSome?_cons, if_pos rfl]

private theorem reads_cached {prior : List Event} {name : String} {body : Body}
    (h : (after prior).cache.lookup? name = some body) (answer : Answer) :
    ReadsCached prior name answer body where
  delivers := get_results_of_some h answer
  changes := by
    rw [step_session]
    simp [h, Cache.written, nextTask]
  result := fun later => by
    apply outcomes_of_mem
    rw [List.append_cons]
    apply mem_delivered_append
    rw [delivered_concat, get_results_of_some h answer]
    exact List.mem_append_right _ (List.mem_singleton.mpr rfl)
  stays := fun later => by
    rw [after_append]
    exact run_lookup? h later
  served := fun served hserved => by
    obtain ⟨quiet, hquiet, hsession, -⟩ := served.prompt_runs name
    refine ⟨prompt_of_cached (by rwa [hserved]), quiet, hquiet, ?_⟩
    rw [hsession, hserved, after_append]

theorem readFetch_mem {prior : List Event} {name : String} (answer : Answer)
    (h : (after prior).cache.lookup? name = none) :
    (after prior).readFetch name answer ∈ (after (prior ++ [.get name answer])).inFlight := by
  rw [after_concat, step_session]
  simp [h, readFetch]

/-- While the fetch of a read is in flight its task waits for nothing else. -/
private theorem readFetch_alone {events : List Event} {session : Session} {name : String}
    {answer : Answer} (h : session.readFetch name answer ∈ (after events).inFlight)
    (fetch : Fetch) :
    fetch ∈ (after events).inFlight ∧ fetch.owner.task? = some session.nextTask ↔
      fetch = session.readFetch name answer := by
  have hbalanced := after_balanced events
  have hasked : IsRequest events session.nextTask (.get name answer) := hbalanced.asked _ h
  constructor
  · rintro ⟨hfetch, hown⟩
    have hrequest := hbalanced.asked fetch hfetch
    unfold Fetch.AskedBy at hrequest
    cases howner : fetch.owner with
    | read task =>
        rw [howner] at hown
        obtain rfl := Option.some.inj hown
        exact hbalanced.owner_unique hfetch h howner (by simp [howner])
    | background => simp [howner, Owner.task?] at hown
    | member task position =>
        rw [howner] at hown hrequest
        obtain rfl := Option.some.inj hown
        obtain ⟨members, hmembers, -⟩ := hrequest
        cases hasked.unique hmembers
    | _ =>
        rw [howner] at hown hrequest
        obtain rfl := Option.some.inj hown
        cases hasked.unique hrequest
  · rintro rfl
    exact ⟨h, rfl⟩

private theorem reads_fetched {prior : List Event} {name : String}
    (h : (after prior).cache.lookup? name = none) (answer : Answer) :
    ReadsFetched prior name answer where
  delivers := by
    rw [step_results]
    simp [h]
  changes := by
    rw [step_session]
    simp [h, Cache.written, nextTask, readFetch]
  waits := fun later hlater => by
    have hfetch := inFlight_of_not_complete (readFetch_mem answer h) hlater
    rw [List.append_cons]
    exact ⟨outcomes_of_waiting ((after_balanced _).waiting hfetch rfl), readFetch_alone hfetch⟩
  result := fun later hlater => by
    have hmem := delivered_of_complete (readFetch_mem answer h) (fun _ => rfl) hlater
    rw [← List.append_cons] at hmem
    refine ⟨_, outcomes_of_mem hmem, ?_, ?_⟩
    · rintro body rfl
      rfl
    · cases answer <;> simp [Except.toOption, readFetch]
  failure := fun failure hanswer later hlater => by
    have hfetch := inFlight_of_not_complete (readFetch_mem answer h) hlater
    rw [← List.append_cons] at hfetch
    have hended : (after (prior ++ .get name answer :: later)).ended?
        (.complete ((after prior).fetches + 1)) = some ((after prior).readFetch name answer) :=
      find?_inFlight hfetch
    subst hanswer
    rw [after_concat, step_session, write?, hended]
    rfl

private theorem body_of_read {prior : List Event} {name : String} {answer : Answer}
    {later : List Event} {compiler : Compiler}
    (h : .prompt compiler ∈
      outcomes (after prior).nextTask (prior ++ .get name answer :: later)) :
    compiler = ⟨((after prior).cache.lookup? name).or answer.toOption⟩ := by
  cases hbody : (after prior).cache.lookup? name with
  | some body =>
      rw [(reads_cached hbody answer).result later] at h
      simpa using h
  | none =>
      have hread := reads_fetched hbody answer
      by_cases hlater : .complete ((after prior).fetches + 1) ∈ later
      · obtain ⟨returned, hresult, hok, hnone⟩ := hread.result later hlater
        rw [hresult, List.mem_singleton] at h
        obtain rfl := Outcome.prompt.inj h
        cases answer with
        | ok body => exact hok body rfl
        | error failure => exact hnone.mpr ⟨failure, rfl⟩
      · rw [(hread.waits later hlater).1] at h
        simp at h

/-- A read of a cached name returns the cached body, any other read the answer of its own fetch, and
what it returned compiles like that body from then on. -/
theorem get_returns_body (prior : List Event) (name : String) (answer : Answer) :
    (∀ body, (after prior).cache.lookup? name = some body →
        ReadsCached prior name answer body) ∧
      ((after prior).cache.lookup? name = none → ReadsFetched prior name answer) ∧
      ∀ later compiler,
        .prompt compiler ∈ outcomes (after prior).nextTask (prior ++ .get name answer :: later) →
          let given : Compiler := ⟨((after prior).cache.lookup? name).or answer.toOption⟩
          (∀ more, outcomes (after prior).nextTask
              (prior ++ .get name answer :: later ++ more) = [.prompt compiler]) ∧
            ∀ bindings, compiler.compileText bindings = given.compileText bindings ∧
              compiler.compileChat bindings = given.compileChat bindings := by
  refine ⟨fun body h => reads_cached h answer, fun h => reads_fetched h answer, ?_⟩
  intro later compiler h given
  refine ⟨mem_outcomes_append h, fun bindings => ?_⟩
  obtain rfl : compiler = given := body_of_read h
  exact ⟨rfl, rfl⟩

/-- A read that waits is not served what others store meanwhile. -/
example :
    outcomes 1 [.get "a" (.ok (.text "own")), .store "a" (.text "other"), .complete 1] =
      [.prompt ⟨some (.text "own")⟩] :=
  rfl

end PromptRegistry.Session
