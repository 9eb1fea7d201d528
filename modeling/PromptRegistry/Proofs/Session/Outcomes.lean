import PromptRegistry.Proofs.Session.Balance

namespace PromptRegistry.Session

def outcomes (task : Nat) (events : List Event) : List Outcome :=
  (delivered events).filterMap fun result => if result.1 = task then some result.2 else none

theorem mem_outcomes_iff {events : List Event} {task : Nat} {outcome : Outcome} :
    outcome ∈ outcomes task events ↔ (task, outcome) ∈ delivered events := by
  constructor
  · intro h
    obtain ⟨⟨number, delivered⟩, hmem, hresult⟩ := List.mem_filterMap.mp h
    obtain ⟨rfl, hsome⟩ := Option.ite_none_right_eq_some.mp hresult
    obtain rfl := Option.some.inj hsome
    exact hmem
  · intro h
    exact List.mem_filterMap.mpr ⟨_, h, if_pos rfl⟩

private theorem filterMap_of_not_mem {task : Nat} {part : List (Nat × Outcome)}
    (h : task ∉ part.map Prod.fst) :
    part.filterMap (fun result => if result.1 = task then some result.2 else none) = [] := by
  apply List.filterMap_eq_nil_iff.mpr
  intro result hresult
  have hne : result.1 ≠ task := fun heq => h (heq ▸ List.mem_map_of_mem hresult)
  exact if_neg hne

theorem outcomes_of_mem {events : List Event} {task : Nat} {outcome : Outcome}
    (h : (task, outcome) ∈ delivered events) : outcomes task events = [outcome] := by
  have hnodup := (after_balanced events).finished_nodup
  obtain ⟨before, behind, hdelivered⟩ := List.append_of_mem h
  rw [hdelivered, List.map_append, List.map_cons] at hnodup
  obtain ⟨-, hbehind, hbefore⟩ := List.nodup_append.mp hnodup
  have hfirst : task ∉ before.map Prod.fst := fun hmem =>
    hbefore task hmem task (List.mem_cons_self ..) rfl
  rw [outcomes, hdelivered, List.filterMap_append, filterMap_of_not_mem hfirst,
    List.filterMap_cons, if_pos rfl, filterMap_of_not_mem (List.nodup_cons.mp hbehind).1]
  rfl

theorem outcomes_of_waiting {events : List Event} {task : Nat}
    (h : task ∈ (after events).waitingTasks) : outcomes task events = [] :=
  filterMap_of_not_mem ((after_balanced events).not_finished h)

theorem outcomes_eq_nil_iff {events : List Event} {task : Nat} {request : Event}
    (h : IsRequest events task request) :
    outcomes task events = [] ↔
      ∃ fetch ∈ (after events).inFlight, fetch.owner.task? = some task := by
  have hbalanced := after_balanced events
  constructor
  · intro hnone
    have hrange : task ∈ List.range' 1 (after events).tasks := by
      obtain ⟨earlier, later, hrequests, rfl⟩ := h
      rw [hbalanced.counted, hrequests, List.mem_range'_1, List.length_append, List.length_cons]
      omega
    rcases List.mem_append.mp (hbalanced.tasks.symm.subset hrange) with hdone | hwaiting
    · obtain ⟨⟨number, outcome⟩, hmem, rfl⟩ := List.mem_map.mp hdone
      rw [outcomes_of_mem hmem] at hnone
      simp at hnone
    · exact hbalanced.owns hwaiting
  · rintro ⟨fetch, hfetch, htask⟩
    exact outcomes_of_waiting (hbalanced.waiting hfetch htask)

theorem mem_delivered_append {prior : List Event} {result : Nat × Outcome}
    (h : result ∈ delivered prior) (later : List Event) : result ∈ delivered (prior ++ later) := by
  rw [delivered_append]
  exact List.mem_append_left _ h

theorem mem_outcomes_append {events : List Event} {task : Nat} {outcome : Outcome}
    (h : outcome ∈ outcomes task events) (more : List Event) :
    outcomes task (events ++ more) = [outcome] :=
  outcomes_of_mem (mem_delivered_append (mem_outcomes_iff.mp h) more)

theorem inFlight_of_not_complete {prior later : List Event} {fetch : Fetch}
    (hfetch : fetch ∈ (after prior).inFlight) (hlater : .complete fetch.number ∉ later) :
    fetch ∈ (after (prior ++ later)).inFlight := by
  induction later using List.reverseRecOn with
  | nil => rwa [List.append_nil]
  | append_singleton later event ih =>
      rw [List.mem_append, not_or, List.mem_singleton] at hlater
      rw [← List.append_assoc, after_concat, step_session]
      exact List.mem_append_left _ (mem_remains (ih hlater.1) (Ne.symm hlater.2))

theorem delivered_of_complete {prior later : List Event} {fetch : Fetch}
    {result : Nat × Outcome} (hfetch : fetch ∈ (after prior).inFlight)
    (hresult : ∀ cache, fetch.result? cache = some result)
    (hlater : .complete fetch.number ∈ later) : result ∈ delivered (prior ++ later) := by
  obtain ⟨before, behind, rfl, hbefore⟩ := List.eq_append_cons_of_mem hlater
  have hwaiting := inFlight_of_not_complete hfetch hbefore
  rw [← List.append_assoc, List.append_cons]
  apply mem_delivered_append
  rw [delivered_concat, step_results, delivers, ended?, find?_inFlight hwaiting]
  simp [hresult]

theorem fetches_le (prior later : List Event) :
    (after prior).fetches ≤ (after (prior ++ later)).fetches := by
  induction later using List.reverseRecOn with
  | nil => rw [List.append_nil]
  | append_singleton later event ih =>
      rw [← List.append_assoc, after_concat, step_session]
      exact ih.trans (Nat.le_add_right _ _)

private theorem lt_of_mem_begins {session : Session} {event : Event} {fetch : Fetch}
    (h : fetch ∈ session.begins event) : session.fetches < fetch.number := by
  cases event with
  | get name answer =>
      simp only [begins] at h
      split at h <;> simp_all
  | invalidate members =>
      obtain ⟨position, _, rfl⟩ := List.mem_mapIdx.mp h
      change session.fetches < session.fetches + 1 + position
      omega
  | wake position answer =>
      obtain ⟨name, -, rfl⟩ := List.mem_map.mp h
      exact Nat.lt_succ_self _
  | _ => simp_all

theorem not_inFlight_of_complete {prior later : List Event} {number : Nat}
    (hnumber : number ≤ (after prior).fetches) (hlater : .complete number ∈ later) :
    ∀ fetch ∈ (after (prior ++ later)).inFlight, fetch.number ≠ number := by
  induction later using List.reverseRecOn with
  | nil => simp at hlater
  | append_singleton later event ih =>
      rw [← List.append_assoc, after_concat, step_session]
      intro fetch hfetch
      rcases List.mem_append.mp hfetch with hremains | hbegins
      · rcases List.mem_append.mp hlater with hearlier | hlast
        · exact ih hearlier fetch (remains_subset hremains)
        · obtain rfl := List.mem_singleton.mp hlast
          simpa using (List.mem_filter.mp hremains).2
      · have hlow := lt_of_mem_begins hbegins
        have hfetches := fetches_le prior later
        omega

/-- A task waits for no other fetches than those it was begun with. -/
theorem mem_begins_of_inFlight {prior later : List Event} {event : Event} {fetch : Fetch}
    (hevent : event.isTask = true) (hfetch : fetch ∈ (after (prior ++ event :: later)).inFlight)
    (htask : fetch.owner.task? = some (after prior).nextTask) :
    fetch ∈ (after prior).begins event := by
  induction later using List.reverseRecOn with
  | nil =>
      rw [after_concat, step_session] at hfetch
      refine (List.mem_append.mp hfetch).resolve_left fun hremains => ?_
      have hbalanced := after_balanced prior
      have hle := hbalanced.waiting_le (hbalanced.waiting (remains_subset hremains) htask)
      exact Nat.not_succ_le_self _ hle
  | append_singleton later last ih =>
      rw [← List.cons_append, ← List.append_assoc, after_concat, step_session] at hfetch
      rcases List.mem_append.mp hfetch with hremains | hbegins
      · exact ih (remains_subset hremains)
      · rcases begins_owner hbegins with hback | hnext
        · rw [hback] at htask
          cases htask
        · -- a fetch that begins later belongs to a later task
          have hsame := Option.some.inj (htask.symm.trans hnext)
          have hcounted := (after_balanced (prior ++ event :: later)).counted
          rw [requests_append, requests, requests, List.filter_cons_of_pos hevent,
            List.length_append, List.length_cons] at hcounted
          have hprior := (after_balanced prior).counted
          rw [requests] at hprior
          simp only [nextTask] at hsame
          omega

end PromptRegistry.Session
