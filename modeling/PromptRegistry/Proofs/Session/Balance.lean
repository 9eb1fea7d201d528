import Mathlib.Data.List.Pairwise
import PromptRegistry.Proofs.Session.Batches
import PromptRegistry.Proofs.Session.History

/-! # Who waits for what -/

namespace PromptRegistry.Session

/-- The task that waits for a fetch. -/
def Owner.task? : Owner → Option Nat
  | .read task | .store task | .refresh task | .member task _ => some task
  | .background => none

/-- The task that waits for a fetch and for no other. -/
def Owner.alone? : Owner → Option Nat
  | .read task | .store task | .refresh task => some task
  | .background | .member _ _ => none

def waitingTasks (session : Session) : List Nat :=
  session.inFlight.filterMap (·.owner.alone?) ++ session.batches.map Batch.task

/-- The events that begin tasks. That of task 1 is the first. -/
def requests (events : List Event) : List Event := events.filter Event.isTask

def IsRequest (events : List Event) (task : Nat) (event : Event) : Prop :=
  ∃ earlier later, requests events = earlier ++ event :: later ∧ task = earlier.length + 1

def Fetch.AskedBy (events : List Event) (fetch : Fetch) : Prop :=
  match fetch.owner with
  | .read task => IsRequest events task (.get fetch.name fetch.answer)
  | .store task => IsRequest events task (.fetchAndStore fetch.name fetch.answer)
  | .refresh task => IsRequest events task (.refresh fetch.name fetch.answer)
  | .member task position =>
      ∃ members, IsRequest events task (.invalidate members) ∧
        members[position]? = some (fetch.name, fetch.answer)
  | .background => True

/-- Tasks, fetches in flight and open batches fit together. -/
structure Balanced (events : List Event) (finished : List (Nat × Outcome)) (session : Session) :
    Prop where
  counted : session.tasks = (requests events).length
  tasks : (finished.map Prod.fst ++ session.waitingTasks).Perm (List.range' 1 session.tasks)
  owners : session.inFlight.Pairwise fun first second =>
    first.owner = second.owner → first.owner = .background
  asked : ∀ fetch ∈ session.inFlight, fetch.AskedBy events
  seats : ∀ task position,
    (∃ fetch ∈ session.inFlight, fetch.owner = .member task position) ↔
      Awaited session.batches task position
  waits : ∀ batch ∈ session.batches, ∃ position, batch.AwaitsAt position

theorem requests_append (first second : List Event) :
    requests (first ++ second) = requests first ++ requests second := by
  rw [requests, List.filter_append]
  rfl

theorem IsRequest.concat {events : List Event} {task : Nat} {request : Event}
    (h : IsRequest events task request) (event : Event) :
    IsRequest (events ++ [event]) task request := by
  obtain ⟨earlier, later, hrequests, rfl⟩ := h
  refine ⟨earlier, later ++ requests [event], ?_, rfl⟩
  rw [requests_append, hrequests, List.append_assoc, List.cons_append]

theorem IsRequest.unique {events : List Event} {task : Nat} {first second : Event}
    (hfirst : IsRequest events task first) (hsecond : IsRequest events task second) :
    first = second := by
  obtain ⟨earlier, later, hrequests, htask⟩ := hfirst
  obtain ⟨before, behind, hrequests', htask'⟩ := hsecond
  have hlength : earlier.length = before.length := by omega
  obtain ⟨-, htails⟩ := List.append_inj (hrequests.symm.trans hrequests') hlength
  exact (List.cons.inj htails).1

theorem isRequest_last {events : List Event} {task : Nat} {event : Event}
    (hevent : event.isTask = true) (htask : task = (requests events).length + 1) :
    IsRequest (events ++ [event]) task event := by
  refine ⟨requests events, [], ?_, htask⟩
  rw [requests_append]
  exact congrArg _ (List.filter_cons_of_pos hevent)

theorem Fetch.AskedBy.concat {events : List Event} {fetch : Fetch} (h : fetch.AskedBy events)
    (event : Event) : fetch.AskedBy (events ++ [event]) := by
  obtain ⟨number, name, answer, owner⟩ := fetch
  cases owner with
  | read task => exact IsRequest.concat h event
  | store task => exact IsRequest.concat h event
  | refresh task => exact IsRequest.concat h event
  | background => trivial
  | member task position =>
      obtain ⟨members, hrequest, hmember⟩ := h
      exact ⟨members, hrequest.concat event, hmember⟩

variable {events : List Event} {finished : List (Nat × Outcome)} {session : Session}

theorem Balanced.waiting (h : Balanced events finished session) {fetch : Fetch} {task : Nat}
    (hfetch : fetch ∈ session.inFlight) (htask : fetch.owner.task? = some task) :
    task ∈ session.waitingTasks := by
  obtain ⟨number, name, answer, owner⟩ := fetch
  have halone (hown : owner.alone? = some task) : task ∈ session.waitingTasks :=
    List.mem_append_left _ (List.mem_filterMap.mpr ⟨_, hfetch, hown⟩)
  cases owner with
  | read _ => exact halone htask
  | store _ => exact halone htask
  | refresh _ => exact halone htask
  | background => simp [Owner.task?] at htask
  | member _ position =>
      obtain rfl := Option.some.inj htask
      exact List.mem_append_right _ ((h.seats _ position).mp ⟨_, hfetch, rfl⟩).mem_tasks

theorem Balanced.owns (h : Balanced events finished session) {task : Nat}
    (htask : task ∈ session.waitingTasks) :
    ∃ fetch ∈ session.inFlight, fetch.owner.task? = some task := by
  rcases List.mem_append.mp htask with halone | hbatch
  · obtain ⟨fetch, hfetch, hown⟩ := List.mem_filterMap.mp halone
    refine ⟨fetch, hfetch, ?_⟩
    cases howner : fetch.owner <;> simp_all [Owner.alone?, Owner.task?]
  · obtain ⟨batch, hmem, rfl⟩ := List.mem_map.mp hbatch
    obtain ⟨position, hposition⟩ := h.waits batch hmem
    obtain ⟨fetch, hfetch, howner⟩ :=
      (h.seats batch.task position).mpr ⟨batch, hmem, rfl, hposition⟩
    exact ⟨fetch, hfetch, by rw [howner, Owner.task?]⟩

theorem Balanced.owner_unique (h : Balanced events finished session) {first second : Fetch}
    (hfirst : first ∈ session.inFlight) (hsecond : second ∈ session.inFlight)
    (howner : first.owner = second.owner) (hback : first.owner ≠ .background) : first = second := by
  have hsymm : Std.Symm fun first second : Fetch =>
      first.owner = second.owner → first.owner = .background :=
    ⟨fun _ _ hback heq => heq.trans (hback heq.symm)⟩
  by_contra hne
  exact hback (h.owners.forall hfirst hsecond hne howner)

theorem Balanced.waiting_le (h : Balanced events finished session) {task : Nat}
    (htask : task ∈ session.waitingTasks) : task ≤ session.tasks := by
  have hrange := h.tasks.subset (List.mem_append_right _ htask)
  simp only [List.mem_range'_1] at hrange
  omega

theorem Balanced.finished_nodup (h : Balanced events finished session) :
    (finished.map Prod.fst).Nodup :=
  (List.nodup_append.mp (h.tasks.nodup_iff.mpr List.nodup_range')).1

theorem Balanced.not_finished (h : Balanced events finished session) {task : Nat}
    (htask : task ∈ session.waitingTasks) : task ∉ finished.map Prod.fst := by
  have hapart := (List.nodup_append.mp (h.tasks.nodup_iff.mpr List.nodup_range')).2.2
  exact fun hdone => hapart task hdone task htask rfl

theorem Balanced.batches_nodup (h : Balanced events finished session) :
    (session.batches.map Batch.task).Nodup := by
  have hnodup := h.tasks.nodup_iff.mpr List.nodup_range'
  exact (List.nodup_append.mp (List.nodup_append.mp hnodup).2.1).2.1

theorem begins_owner {event : Event} {fetch : Fetch} (h : fetch ∈ session.begins event) :
    fetch.owner = .background ∨ fetch.owner.task? = some session.nextTask := by
  cases event with
  | get name answer =>
      simp only [begins] at h
      split at h <;> simp_all [Owner.task?]
  | invalidate members =>
      obtain ⟨position, _, rfl⟩ := List.mem_mapIdx.mp h
      exact .inr rfl
  | wake position answer =>
      obtain ⟨name, -, rfl⟩ := List.mem_map.mp h
      exact .inl rfl
  | _ => simp_all [Owner.task?]

private theorem begins_pairwise (session : Session) (event : Event) :
    (session.begins event).Pairwise fun first second =>
      first.owner = second.owner → first.owner = .background := by
  cases event with
  | get name answer => simp only [begins]; split <;> simp
  | invalidate members =>
      apply List.pairwise_iff_getElem.mpr
      intro first second hfirst hsecond hlt
      simp
      omega
  | wake position answer => cases h : session.spawned[position]? <;> simp [h]
  | _ => simp

private theorem begins_asked_by (h : Balanced events finished session) {event : Event}
    {fetch : Fetch} (hfetch : fetch ∈ session.begins event) :
    fetch.AskedBy (events ++ [event]) := by
  have hnext : session.nextTask = (requests events).length + 1 := by rw [nextTask, h.counted]
  cases event with
  | get name answer =>
      simp only [begins] at hfetch
      split at hfetch
      · obtain rfl := List.mem_singleton.mp hfetch
        exact isRequest_last rfl hnext
      · simp at hfetch
  | refresh name answer =>
      obtain rfl := List.mem_singleton.mp hfetch
      exact isRequest_last rfl hnext
  | fetchAndStore name answer =>
      obtain rfl := List.mem_singleton.mp hfetch
      exact isRequest_last rfl hnext
  | invalidate members =>
      obtain ⟨position, hposition, rfl⟩ := List.mem_mapIdx.mp hfetch
      exact ⟨members, isRequest_last rfl hnext, by simp [hposition]⟩
  | wake position answer =>
      obtain ⟨name, -, rfl⟩ := List.mem_map.mp hfetch
      trivial
  | _ => simp at hfetch

private theorem begins_seats (session : Session) (event : Event) (task position : Nat) :
    (∃ fetch ∈ session.begins event, fetch.owner = .member task position) ↔
      Awaited (session.opens event) task position := by
  cases event with
  | get name answer => simp only [begins]; split <;> simp
  | invalidate members =>
      cases members with
      | nil => simp
      | cons member members =>
          simp only [begins, opens, awaited_cons, awaited_nil, or_false, Batch.AwaitsAt,
            List.mem_mapIdx, List.getElem?_map]
          constructor
          · rintro ⟨_, ⟨place, hplace, rfl⟩, howner⟩
            obtain ⟨rfl, rfl⟩ := Owner.member.inj howner
            exact ⟨rfl, _, by rw [List.getElem?_eq_getElem hplace]; rfl⟩
          · rintro ⟨rfl, name, hname⟩
            obtain ⟨asked, hasked, -⟩ := Option.map_eq_some_iff.mp hname
            obtain ⟨hplace, -⟩ := List.getElem?_eq_some_iff.mp hasked
            exact ⟨_, ⟨position, hplace, rfl⟩, rfl⟩
  | _ => simp

private theorem opens_waits {event : Event} {batch : Batch} (h : batch ∈ session.opens event) :
    ∃ position, batch.AwaitsAt position := by
  cases event with
  | invalidate members =>
      cases members with
      | nil => simp at h
      | cons member members =>
          obtain rfl := List.mem_singleton.mp h
          exact ⟨0, member.1, rfl⟩
  | _ => simp at h

private theorem begins_tasks {event : Event} (h : session.ended? event = none) :
    (session.delivers event).map Prod.fst ++
        ((session.begins event).filterMap (·.owner.alone?) ++
          (session.opens event).map Batch.task) =
      List.range' (1 + session.tasks) event.isTask.toNat := by
  have hnext : session.nextTask = 1 + session.tasks := Nat.add_comm _ _
  cases event with
  | get name answer =>
      cases hbody : session.cache.lookup? name <;> simp [hbody, hnext, Owner.alone?]
  | invalidate members =>
      have hmembers : ((session.begins (.invalidate members)).filterMap (·.owner.alone?)) = [] := by
        apply List.filterMap_eq_nil_iff.mpr
        intro fetch hfetch
        obtain ⟨position, _, rfl⟩ := List.mem_mapIdx.mp hfetch
        rfl
      rw [hmembers]
      cases members <;> simp [hnext]
  | wake position answer =>
      cases hname : session.spawned[position]? <;> simp [hname, Owner.alone?]
  | complete number =>
      rw [delivers, h]
      rfl
  | _ => simp [hnext, Owner.alone?]

private theorem Balanced.step_begin (h : Balanced events finished session) {event : Event}
    (hended : session.ended? event = none) :
    Balanced (events ++ [event]) (finished ++ results (session.step event).2)
      (session.step event).1 := by
  rw [step_results, step_session, remains_of_none hended, settles_of_none hended]
  constructor
  · rw [requests_append, List.length_append, ← h.counted]
    cases event <;> rfl
  · rw [← List.range'_append_1, ← begins_tasks hended, List.perm_iff_count]
    intro task
    have hcount := List.perm_iff_count.mp h.tasks task
    simp only [waitingTasks, results_nil, List.append_nil, List.map_append, List.filterMap_append,
      List.count_append] at hcount ⊢
    omega
  · apply List.pairwise_append.mpr ⟨h.owners, begins_pairwise session event, ?_⟩
    intro first hfirst second hsecond heq
    rcases begins_owner hsecond with hback | hnext
    · rw [heq, hback]
    · -- the task of the new fetch was not begun before
      have hle := h.waiting_le (h.waiting hfirst (heq ▸ hnext))
      exact absurd hle (Nat.not_succ_le_self _)
  · intro fetch hfetch
    rcases List.mem_append.mp hfetch with hfetch | hfetch
    · exact (h.asked fetch hfetch).concat event
    · exact begins_asked_by h hfetch
  · intro task position
    rw [awaited_append, ← h.seats, ← begins_seats session event]
    simp [or_and_right, exists_or]
  · intro batch hbatch
    rcases List.mem_append.mp hbatch with hbatch | hbatch
    · exact h.waits batch hbatch
    · exact opens_waits hbatch

private theorem perm_cons_filter {fetches : List Fetch} {fetch : Fetch}
    (hnumbers : (fetches.map Fetch.number).Nodup) (hfetch : fetch ∈ fetches) :
    fetches.Perm (fetch :: fetches.filter (·.number != fetch.number)) := by
  induction fetches with
  | nil => simp at hfetch
  | cons first rest ih =>
      obtain ⟨hfresh, hrest⟩ := List.nodup_cons.mp hnumbers
      rcases List.mem_cons.mp hfetch with rfl | hfetch
      · have hkeep : rest.filter (·.number != fetch.number) = rest := by
          apply List.filter_eq_self.mpr
          intro other hother
          have hne : other.number ≠ fetch.number := fun heq =>
            hfresh (heq ▸ List.mem_map_of_mem hother)
          simpa using hne
        rw [List.filter_cons_of_neg (by simp), hkeep]
      · have hne : first.number ≠ fetch.number := fun heq =>
          hfresh (heq ▸ List.mem_map_of_mem hfetch)
        rw [List.filter_cons_of_pos (by simpa using hne)]
        exact ((ih hrest hfetch).cons first).trans (.swap _ _ _)

private theorem result?_task (fetch : Fetch) (cache : Cache) :
    (fetch.result? cache).toList.map Prod.fst = fetch.owner.alone?.toList := by
  unfold Fetch.result?
  split <;> simp_all [Owner.alone?]

private theorem settle_tasks (fetch : Fetch) (batches : List Batch) :
    ((results (fetch.settle batches).2).map Prod.fst ++
        (fetch.settle batches).1.map Batch.task).Perm (batches.map Batch.task) := by
  unfold Fetch.settle
  split
  · exact updateBatches_tasks _ _ _ _
  · exact .refl _

private theorem awaited_settle {fetch : Fetch} {batches : List Batch}
    (htasks : (batches.map Batch.task).Nodup) (task position : Nat) :
    Awaited (fetch.settle batches).1 task position ↔
      Awaited batches task position ∧ fetch.owner ≠ .member task position := by
  unfold Fetch.settle
  split
  case h_1 owner place howner =>
    rw [awaited_updateBatches fetch.progress_isEnd htasks, howner]
    simp [eq_comm]
  case h_2 hother =>
    exact (and_iff_left (hother task position)).symm

private theorem settle_open {fetch : Fetch} {batches : List Batch}
    (h : ∀ batch ∈ batches, ∃ position, batch.AwaitsAt position) :
    ∀ batch ∈ (fetch.settle batches).1, ∃ position, batch.AwaitsAt position := by
  unfold Fetch.settle
  split
  · exact updateBatches_open h
  · exact h

/-- The task of a fetch that ends goes from the waiting ones to the finished ones, or stays with an
open batch. -/
private theorem Balanced.tasks_end (h : Balanced events finished session) {fetch : Fetch}
    {rest : List Fetch} (hperm : session.inFlight.Perm (fetch :: rest)) :
    ((finished ++ ((fetch.result? session.cache).toList ++
          results (fetch.settle session.batches).2)).map Prod.fst ++
        (rest.filterMap (·.owner.alone?) ++ (fetch.settle session.batches).1.map Batch.task)).Perm
      (List.range' 1 session.tasks) := by
  rw [List.perm_iff_count]
  intro task
  have hcount := List.perm_iff_count.mp h.tasks task
  have hsettled := List.perm_iff_count.mp (settle_tasks fetch session.batches) task
  have hflight := List.perm_iff_count.mp (hperm.filterMap (·.owner.alone?)) task
  have hsplit : (fetch :: rest).filterMap (·.owner.alone?) =
      fetch.owner.alone?.toList ++ rest.filterMap (·.owner.alone?) := by
    cases halone : fetch.owner.alone? <;> simp [halone]
  rw [hsplit, ← result?_task fetch session.cache] at hflight
  simp only [waitingTasks, List.map_append, List.count_append] at hcount hsettled hflight ⊢
  omega

private theorem Balanced.step_end (h : Balanced events finished session)
    (hnumbers : (session.inFlight.map Fetch.number).Nodup) {fetch : Fetch}
    (hfind : session.ended? (.complete fetch.number) = some fetch) :
    Balanced (events ++ [.complete fetch.number])
      (finished ++ results (session.step (.complete fetch.number)).2)
      (session.step (.complete fetch.number)).1 := by
  obtain ⟨-, hfetch⟩ := ended?_eq_some hfind
  have hperm := perm_cons_filter hnumbers hfetch
  rw [step_results, step_session, settles_of_some hfind]
  simp only [remains, begins, opens, due, delivers, hfind, List.append_nil, Option.bind_some]
  constructor
  · simpa [requests] using h.counted
  · exact h.tasks_end hperm
  · exact h.owners.filter _
  · intro other hother
    exact (h.asked other (List.mem_of_mem_filter hother)).concat _
  · intro task position
    rw [awaited_settle h.batches_nodup, ← h.seats]
    constructor
    · rintro ⟨other, hother, howner⟩
      obtain ⟨hmem, hnumber⟩ := List.mem_filter.mp hother
      refine ⟨⟨other, hmem, howner⟩, fun hsame => ?_⟩
      obtain rfl := h.owner_unique hmem hfetch (howner.trans hsame.symm) (by simp [howner])
      simp at hnumber
    · rintro ⟨⟨other, hother, howner⟩, hne⟩
      rcases List.mem_cons.mp (hperm.subset hother) with rfl | hrest
      · exact absurd howner hne
      · exact ⟨other, hrest, howner⟩
  · exact settle_open h.waits

theorem Balanced.step (h : Balanced events finished session)
    (hnumbers : (session.inFlight.map Fetch.number).Nodup) (event : Event) :
    Balanced (events ++ [event]) (finished ++ results (session.step event).2)
      (session.step event).1 := by
  cases hended : session.ended? event with
  | none => exact h.step_begin hended
  | some fetch =>
      obtain ⟨rfl, -⟩ := ended?_eq_some hended
      exact h.step_end hnumbers hended

theorem after_balanced (events : List Event) :
    Balanced events (delivered events) (after events) := by
  induction events using List.reverseRecOn with
  | nil =>
      refine ⟨rfl, .refl _, .nil, by simp [after_nil, start], fun task position => ?_, ?_⟩
      · simp [after_nil, start]
      · simp [after_nil, start]
  | append_singleton events event ih =>
      rw [after_concat, delivered_concat]
      exact ih.step (inFlight_numbers_nodup events) event

end PromptRegistry.Session
