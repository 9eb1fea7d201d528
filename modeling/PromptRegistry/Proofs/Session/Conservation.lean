import Mathlib.Data.List.Perm.Basic
import PromptRegistry.Proofs.Session.Balance

/-! # No fetch is lost and no task forgotten -/

namespace PromptRegistry.Session

/-- A task that was begun and has not delivered its result. -/
def Pending (events : List Event) (task : Nat) : Prop :=
  (1 ≤ task ∧ task ≤ (requests events).length) ∧ task ∉ (delivered events).map Prod.fst

/-- The names of the fetches that an event asks for, at once or in the background. -/
def Event.wanted : Event → List String
  | .get name _ | .refresh name _ | .fetchAndStore name _ | .spawnRefresh name => [name]
  | .invalidate members => members.map Prod.fst
  | .create _ _ | .store _ _ | .wake _ _ | .complete _ => []

/-- The names that a batch is given, with repetitions. -/
def Event.listed : Event → List String
  | .invalidate members => members.map Prod.fst
  | _ => []

/-- What holds of the fetches and tasks of a run, whatever its events and their order. -/
structure Conserved (events : List Event) : Prop where
  inFlight : (after events).inFlight.map Fetch.asked = (History.ofEvents events).pending
  /-- A fetch belongs to a pending task that asked for it, or to no task. -/
  owned : ∀ fetch ∈ (after events).inFlight, fetch.AskedBy events ∧
    ∀ task, fetch.owner.task? = some task → Pending events task
  /-- No two fetches have one owner. -/
  owners : (after events).inFlight.Pairwise fun first second =>
    first.owner = second.owner → first.owner = .background
  /-- A batch waits at a position as long as the fetch of that position is in flight. -/
  seats : ∀ task position,
    (∃ fetch ∈ (after events).inFlight, fetch.owner = .member task position) ↔
      Awaited (after events).batches task position
  pending : ∀ task, Pending events task ↔
    ∃ fetch ∈ (after events).inFlight, fetch.owner.task? = some task
  created : ∀ task spec answer, IsRequest events task (.create spec answer) → ¬Pending events task
  /-- No result comes twice or from a task that was not begun. -/
  once : ((delivered events).map Prod.fst).Nodup ∧
    ∀ task ∈ (delivered events).map Prod.fst, 1 ≤ task ∧ task ≤ (requests events).length
  completed : ∀ number,
    let next := after (events ++ [.complete number])
    next.fetches = (after events).fetches ∧ next.spawned = (after events).spawned ∧
      next.inFlight = (after events).inFlight.filter (·.number != number)
  drained : ∀ order : List Nat, order.Perm ((after events).inFlight.map Fetch.number) →
    let last := events ++ order.map .complete
    (after last).inFlight = [] ∧ (after last).fetches = (after events).fetches ∧
      ((delivered last).map Prod.fst).Perm (List.range' 1 (requests events).length)
  /-- The fetches that were begun or are still due are those that were asked for. -/
  names : ((History.ofEvents events).begun.map Prod.fst ++ (after events).spawned).Perm
    (events.flatMap Event.wanted)
  fetches : (after events).fetches = (History.ofEvents events).begun.length
  total : (after events).spawned = [] →
    (after events).fetches =
      events.countP (· matches .get ..) + events.countP (· matches .refresh ..) +
        events.countP (· matches .spawnRefresh _) + events.countP (· matches .fetchAndStore ..) +
        (events.flatMap Event.listed).length

private theorem pending_iff_waiting {events : List Event} {task : Nat} :
    Pending events task ↔ task ∈ (after events).waitingTasks := by
  have h := after_balanced events
  have hmem := h.tasks.mem_iff (a := task)
  rw [List.mem_append, List.mem_range'_1, h.counted] at hmem
  constructor
  · rintro ⟨hrange, hnot⟩
    exact (hmem.mpr (by omega)).resolve_left hnot
  · intro hwaiting
    have hrange := hmem.mp (.inr hwaiting)
    exact ⟨by omega, h.not_finished hwaiting⟩

private theorem create_owns_nothing {events : List Event} {task : Nat} {spec : Spec}
    {answer : Except Failure Record} (h : IsRequest events task (.create spec answer))
    {fetch : Fetch} (hasked : fetch.AskedBy events) : fetch.owner.task? ≠ some task := by
  obtain ⟨number, name, answer, owner⟩ := fetch
  intro hown
  cases owner with
  | background => simp [Owner.task?] at hown
  | member owner position =>
      obtain rfl := Option.some.inj hown
      obtain ⟨members, hrequest, -⟩ := hasked
      cases h.unique hrequest
  | _ =>
      obtain rfl := Option.some.inj hown
      cases h.unique hasked

private theorem after_complete (events : List Event) (number : Nat) :
    (after (events ++ [.complete number])).fetches = (after events).fetches ∧
      (after (events ++ [.complete number])).spawned = (after events).spawned ∧
      (after (events ++ [.complete number])).inFlight =
        (after events).inFlight.filter (·.number != number) := by
  rw [after_concat, step_session]
  simp

private theorem after_completes (events : List Event) (order : List Nat) :
    (after (events ++ order.map .complete)).fetches = (after events).fetches ∧
      (after (events ++ order.map .complete)).inFlight =
        (after events).inFlight.filter fun fetch => !order.contains fetch.number := by
  induction order generalizing events with
  | nil => simp
  | cons number order ih =>
      obtain ⟨hfetches, -, hflight⟩ := after_complete events number
      obtain ⟨hcount, hrest⟩ := ih (events ++ [.complete number])
      rw [List.map_cons, List.append_cons]
      refine ⟨hcount.trans hfetches, ?_⟩
      rw [hrest, hflight, List.filter_filter]
      apply List.filter_congr
      intro fetch _
      rw [Bool.eq_iff_iff]
      simp
      tauto

private theorem delivered_perm {events : List Event} (h : (after events).inFlight = []) :
    ((delivered events).map Prod.fst).Perm (List.range' 1 (requests events).length) := by
  have hbalanced := after_balanced events
  have hwaiting : (after events).waitingTasks = [] := by
    apply List.eq_nil_iff_forall_not_mem.mpr
    intro task htask
    obtain ⟨fetch, hfetch, -⟩ := hbalanced.owns htask
    simp [h] at hfetch
  have htasks := hbalanced.tasks
  rwa [hwaiting, List.append_nil, hbalanced.counted] at htasks

private theorem drained_of_perm {events : List Event} {order : List Nat}
    (h : order.Perm ((after events).inFlight.map Fetch.number)) :
    (after (events ++ order.map .complete)).inFlight = [] := by
  rw [(after_completes events order).2]
  apply List.filter_eq_nil_iff.mpr
  intro fetch hfetch
  have hmem : fetch.number ∈ order := h.symm.subset (List.mem_map_of_mem hfetch)
  simpa using hmem

private theorem requests_completes (events : List Event) (order : List Nat) :
    requests (events ++ order.map .complete) = requests events := by
  have hnone : requests (order.map .complete) = [] := by simp [requests]
  rw [requests_append, hnone, List.append_nil]

private theorem begin_wanted (history : History) (fetches : List (String × Answer)) :
    ((history.begin fetches).begun.map Prod.fst ++ history.due).Perm
      ((history.begun.map Prod.fst ++ history.due) ++ fetches.map Prod.fst) := by
  rw [History.begin, List.map_append, List.append_assoc, List.append_assoc]
  exact List.perm_append_comm.append_left _

private theorem record_wanted (history : History) (event : Event) :
    ((history.record event).begun.map Prod.fst ++ (history.record event).due).Perm
      ((history.begun.map Prod.fst ++ history.due) ++ event.wanted) := by
  cases event with
  | get name answer =>
      rw [History.record]
      cases valueAt? name history.arrived with
      | none => exact begin_wanted history [(name, answer)]
      | some body =>
          rw [Event.wanted, List.append_assoc]
  | refresh name answer => exact begin_wanted history [(name, answer)]
  | fetchAndStore name answer => exact begin_wanted history [(name, answer)]
  | invalidate members => exact begin_wanted history members
  | spawnRefresh name =>
      rw [History.record, Event.wanted, List.append_assoc]
  | wake position answer =>
      rw [Event.wanted, List.append_nil, History.record]
      cases hname : history.due[position]? with
      | none => exact .refl _
      | some name =>
          obtain ⟨hposition, rfl⟩ := List.getElem?_eq_some_iff.mp hname
          simp only [History.begin, List.map_append, List.append_assoc, List.map_singleton,
            List.singleton_append]
          exact (List.getElem_cons_eraseIdx_perm hposition).append_left _
  | complete number =>
      rw [Event.wanted, List.append_nil, History.record]
      cases history.pending.find? (·.2 == number) <;> exact .refl _
  | _ => rw [Event.wanted, List.append_nil]; exact .refl _

/-- Each name that is asked for is fetched once. None is shared and none is dropped. -/
private theorem names_perm (events : List Event) :
    ((History.ofEvents events).begun.map Prod.fst ++ (after events).spawned).Perm
      (events.flatMap Event.wanted) := by
  rw [(after_follows events).spawned]
  induction events using List.reverseRecOn with
  | nil => exact .refl _
  | append_singleton events event ih =>
      rw [History.ofEvents_concat, List.flatMap_append, List.flatMap_singleton]
      exact (record_wanted _ event).trans (ih.append_right _)

private theorem wanted_length (events : List Event) :
    (events.flatMap Event.wanted).length =
      events.countP (· matches .get ..) + events.countP (· matches .refresh ..) +
        events.countP (· matches .spawnRefresh _) + events.countP (· matches .fetchAndStore ..) +
        (events.flatMap Event.listed).length := by
  induction events with
  | nil => rfl
  | cons event events ih =>
      rw [List.flatMap_cons, List.length_append, ih]
      cases event <;> simp [Event.wanted, Event.listed] <;> omega

/-- Fetches and tasks are conserved, whatever the events and their order. -/
theorem run_conserved (events : List Event) : Conserved events where
  inFlight := (after_follows events).pending
  owned := fun fetch hfetch =>
    ⟨(after_balanced events).asked fetch hfetch, fun task hown =>
      pending_iff_waiting.mpr ((after_balanced events).waiting hfetch hown)⟩
  owners := (after_balanced events).owners
  seats := (after_balanced events).seats
  pending := fun task => by
    rw [pending_iff_waiting]
    constructor
    · exact (after_balanced events).owns
    · rintro ⟨fetch, hfetch, hown⟩
      exact (after_balanced events).waiting hfetch hown
  created := fun task spec answer hrequest hpending => by
    have hbalanced := after_balanced events
    obtain ⟨fetch, hfetch, hown⟩ := hbalanced.owns (pending_iff_waiting.mp hpending)
    exact create_owns_nothing hrequest (hbalanced.asked fetch hfetch) hown
  once := by
    have hbalanced := after_balanced events
    refine ⟨hbalanced.finished_nodup, ?_⟩
    intro task hdone
    have hrange := hbalanced.tasks.subset (List.mem_append_left _ hdone)
    rw [List.mem_range'_1, hbalanced.counted] at hrange
    omega
  completed := after_complete events
  drained := fun order horder => by
    have hempty := drained_of_perm horder
    refine ⟨hempty, (after_completes events order).1, ?_⟩
    rw [← requests_completes events order]
    exact delivered_perm hempty
  names := names_perm events
  fetches := (after_follows events).fetches
  total := fun hstarted => by
    have hnames := names_perm events
    rw [hstarted, List.append_nil] at hnames
    rw [(after_follows events).fetches, ← wanted_length, ← hnames.length_eq, List.length_map]

end PromptRegistry.Session
