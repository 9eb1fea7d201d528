import Mathlib.Data.List.Nodup
import PromptRegistry.Proofs.Index.Lookup
import PromptRegistry.Proofs.Session.Run

/-! # The history of a run -/

namespace PromptRegistry.Session

/-- What has happened so far. -/
structure History where
  /-- The fetches begun, the first with number 1, the next with number 2, and so on. -/
  begun : List (String × Answer)
  /-- The numbers of the fetches that have ended. -/
  ended : List Nat
  /-- The bodies that were stored directly or came with a fetch that ended well, the last first. -/
  arrived : List (String × Body)
  /-- The names whose background refresh has not begun. -/
  due : List String

namespace History

def empty : History := ⟨[], [], [], []⟩

/-- The fetches that were begun and have not ended, with their numbers. -/
def pending (history : History) : List ((String × Answer) × Nat) :=
  (history.begun.zipIdx 1).filter fun fetch => !history.ended.contains fetch.2

def begin (history : History) (fetches : List (String × Answer)) : History :=
  { history with begun := history.begun ++ fetches }

def finish (history : History) (number : Nat) (name : String) (answer : Answer) : History :=
  { history with
    ended := number :: history.ended
    arrived := answer.toOption.toList.map (name, ·) ++ history.arrived }

def record (history : History) : Event → History
  | .get name answer =>
      match valueAt? name history.arrived with
      | some _ => { history with due := history.due ++ [name] }
      | none => history.begin [(name, answer)]
  | .refresh name answer => history.begin [(name, answer)]
  | .fetchAndStore name answer => history.begin [(name, answer)]
  | .invalidate members => history.begin members
  | .create _ _ => history
  | .spawnRefresh name => { history with due := history.due ++ [name] }
  | .store name body => { history with arrived := (name, body) :: history.arrived }
  | .wake position answer =>
      match history.due[position]? with
      | some name => { history.begin [(name, answer)] with due := history.due.eraseIdx position }
      | none => history
  | .complete number =>
      match history.pending.find? (·.2 == number) with
      | some ((name, answer), _) => history.finish number name answer
      | none => history

def ofEvents (events : List Event) : History := events.foldl record empty

theorem ofEvents_concat (events : List Event) (event : Event) :
    ofEvents (events ++ [event]) = (ofEvents events).record event := by
  simp [ofEvents]

theorem pending_numbers (history : History) :
    (history.pending.map Prod.snd).Sublist (List.range' 1 history.begun.length) := by
  rw [← List.zipIdx_map_snd 1 history.begun]
  exact List.filter_sublist.map Prod.snd

end History

def Fetch.asked (fetch : Fetch) : (String × Answer) × Nat :=
  ((fetch.name, fetch.answer), fetch.number)

/-- A session has come to what its history tells. -/
structure Follows (history : History) (session : Session) : Prop where
  fetches : session.fetches = history.begun.length
  ended : ∀ number ∈ history.ended, number ≤ history.begun.length
  pending : session.inFlight.map Fetch.asked = history.pending
  spawned : session.spawned = history.due
  entries : ∀ name, session.cache.held? name = (valueAt? name history.arrived).map (name, ·)

private theorem begins_asked (session : Session) (event : Event) :
    (session.begins event).map Fetch.asked =
      ((session.begins event).map fun fetch => (fetch.name, fetch.answer)).zipIdx
        (session.fetches + 1) := by
  cases event with
  | get name answer => simp only [begins]; split <;> rfl
  | wake position answer => cases h : session.spawned[position]? <;> simp [h, Fetch.asked]
  | invalidate members =>
      apply List.ext_getElem?
      intro position
      simp [Fetch.asked, Function.comp_def]
  | refresh name answer => rfl
  | fetchAndStore name answer => rfl
  | create spec answer => rfl
  | spawnRefresh name => rfl
  | store name body => rfl
  | complete number => rfl

private theorem pending_begin {history : History}
    (hended : ∀ number ∈ history.ended, number ≤ history.begun.length)
    (fetches : List (String × Answer)) :
    (history.begin fetches).pending =
      history.pending ++ fetches.zipIdx (history.begun.length + 1) := by
  have hfresh : (fetches.zipIdx (history.begun.length + 1)).filter
      (fun fetch => !history.ended.contains fetch.2) =
        fetches.zipIdx (history.begun.length + 1) := by
    apply List.filter_eq_self.mpr
    intro fetch hfetch
    have hlow := List.le_snd_of_mem_zipIdx hfetch
    have hnot : fetch.2 ∉ history.ended := fun hmem => by
      have hhigh := hended _ hmem
      omega
    simpa using hnot
  simp only [History.pending, History.begin, List.zipIdx_append, List.filter_append, hfresh,
    Nat.add_comm 1]

private theorem pending_finish (history : History) (number : Nat) (name : String)
    (answer : Answer) :
    (history.finish number name answer).pending =
      history.pending.filter fun fetch => fetch.2 != number := by
  rw [History.pending, History.pending, List.filter_filter]
  apply List.filter_congr
  intro fetch _
  rw [Bool.eq_iff_iff]
  simp [History.finish]

theorem Follows.lookup {history : History} {session : Session} (h : Follows history session)
    (name : String) : session.cache.lookup? name = valueAt? name history.arrived := by
  rw [Cache.lookup?_eq_held?, h.entries]
  simp [Function.comp_def]

private theorem Follows.of_begins {history : History} {session : Session}
    (h : Follows history session) (event : Event) (hwrite : session.write? event = none)
    (hremains : session.remains event = session.inFlight) :
    Follows
      { history.begin ((session.begins event).map fun fetch => (fetch.name, fetch.answer)) with
        due := session.due event }
      (session.step event).1 := by
  rw [step_session, hwrite, hremains]
  refine ⟨?_, ?_, ?_, rfl, h.entries⟩
  · simp [History.begin, h.fetches]
  · intro number hnumber
    have hle := h.ended number hnumber
    simp only [History.begin, List.length_append]
    omega
  · rw [List.map_append, h.pending, begins_asked, h.fetches]
    exact (pending_begin h.ended _).symm

private theorem Follows.store {history : History} {session : Session} (h : Follows history session)
    (name : String) (body : Body) :
    ∀ other, (session.cache.store name body).held? other =
      (valueAt? other ((name, body) :: history.arrived)).map (other, ·) := by
  intro other
  by_cases hname : other = name
  · subst hname
    simp [valueAt?]
  · rw [Cache.held?_store_of_ne _ _ hname, valueAt?, if_neg hname]
    exact h.entries other

private theorem Follows.arrive {history : History} {session : Session} (h : Follows history session)
    (fetch : Fetch) :
    ∀ other, (session.cache.written (fetch.write? session.cache)).held? other =
      (valueAt? other (fetch.answer.toOption.toList.map (fetch.name, ·) ++ history.arrived)).map
        (other, ·) := by
  obtain ⟨number, name, answer, owner⟩ := fetch
  cases answer with
  | error failure => exact h.entries
  | ok body =>
      by_cases hstored : owner.overwrites ∨ session.cache.lookup? name ≠ some body
      · have hwrite : Fetch.write? ⟨number, name, .ok body, owner⟩ session.cache =
          some (name, body) := if_pos hstored
        rw [hwrite]
        exact h.store name body
      · -- an unchanged refresh: the body was there already
        have hwrite : Fetch.write? ⟨number, name, .ok body, owner⟩ session.cache = none :=
          if_neg hstored
        have hbody : valueAt? name history.arrived = some body := by
          rw [← h.lookup]
          exact not_not.mp (not_or.mp hstored).2
        intro other
        rw [hwrite]
        refine (h.entries other).trans ?_
        by_cases hname : other = name
        · subst hname
          simp [Except.toOption, valueAt?, hbody]
        · simp [Except.toOption, valueAt?, hname]

private theorem Follows.complete {history : History} {session : Session}
    (h : Follows history session) (number : Nat) :
    Follows (history.record (.complete number)) (session.step (.complete number)).1 := by
  have hfind : history.pending.find? (·.2 == number) =
      (session.inFlight.find? (·.number == number)).map Fetch.asked := by
    rw [← h.pending, List.find?_map]
    rfl
  rw [step_session, History.record, hfind]
  cases hfetch : session.inFlight.find? (·.number == number) with
  | none =>
      have hended : session.ended? (.complete number) = none := hfetch
      rw [remains_of_none hended]
      simpa [hfetch, Cache.written] using h
  | some fetch =>
      obtain rfl : fetch.number = number := by simpa using List.find?_some hfetch
      have hmem := List.mem_of_find?_eq_some hfetch
      refine ⟨?_, ?_, ?_, ?_, ?_⟩
      · simpa [History.finish] using h.fetches
      · intro number hnumber
        rcases List.mem_cons.mp hnumber with rfl | hnumber
        · have hpending : fetch.number ∈ history.pending.map Prod.snd := by
            rw [← h.pending, List.map_map]
            exact List.mem_map_of_mem hmem
          have hrange := history.pending_numbers.subset hpending
          simp only [List.mem_range'_1] at hrange
          change fetch.number ≤ history.begun.length
          omega
        · exact h.ended number hnumber
      · simp [pending_finish, ← h.pending, List.filter_map, Function.comp_def, Fetch.asked]
      · simpa [History.finish] using h.spawned
      · simpa [History.finish, hfetch, Fetch.asked] using h.arrive fetch

theorem Follows.step {history : History} {session : Session} (h : Follows history session)
    (event : Event) : Follows (history.record event) (session.step event).1 := by
  cases event with
  | get name answer =>
      have hbegins := h.of_begins (.get name answer) rfl rfl
      rw [History.record, ← h.lookup]
      cases hbody : session.cache.lookup? name with
      | none => simpa [hbody, History.begin, h.spawned] using hbegins
      | some body => simpa [hbody, History.begin, h.spawned] using hbegins
  | refresh name answer =>
      simpa [History.record, History.begin, h.spawned] using
        h.of_begins (.refresh name answer) rfl rfl
  | fetchAndStore name answer =>
      simpa [History.record, History.begin, h.spawned] using
        h.of_begins (.fetchAndStore name answer) rfl rfl
  | invalidate members =>
      have hbegins := h.of_begins (.invalidate members) rfl rfl
      have hmembers : ((session.begins (.invalidate members)).map fun fetch =>
          (fetch.name, fetch.answer)) = members := by
        apply List.ext_getElem?
        intro position
        simp [Function.comp_def]
      rw [hmembers] at hbegins
      simpa [History.record, History.begin, h.spawned] using hbegins
  | create spec answer =>
      simpa [History.record, History.begin, h.spawned] using
        h.of_begins (.create spec answer) rfl rfl
  | spawnRefresh name =>
      simpa [History.record, History.begin, h.spawned] using
        h.of_begins (.spawnRefresh name) rfl rfl
  | wake position answer =>
      have hbegins := h.of_begins (.wake position answer) rfl rfl
      rw [History.record]
      cases hname : history.due[position]? with
      | none =>
          have hposition := List.getElem?_eq_none_iff.mp hname
          simpa [hname, History.begin, List.eraseIdx_of_length_le hposition, h.spawned] using
            hbegins
      | some name => simpa [hname, History.begin, h.spawned] using hbegins
  | store name body =>
      rw [step_session]
      refine ⟨?_, h.ended, ?_, h.spawned, h.store name body⟩
      · simpa [History.record] using h.fetches
      · rw [begins, List.append_nil]
        exact h.pending
  | complete number => exact h.complete number

theorem after_follows (events : List Event) : Follows (History.ofEvents events) (after events) := by
  induction events using List.reverseRecOn with
  | nil => exact ⟨rfl, by simp [History.ofEvents, History.empty], rfl, rfl, fun _ => rfl⟩
  | append_singleton events event ih =>
      rw [History.ofEvents_concat, after_concat]
      exact ih.step event

theorem inFlight_numbers (events : List Event) :
    ((after events).inFlight.map Fetch.number).Sublist (List.range' 1 (after events).fetches) := by
  have h := after_follows events
  have hnumbers : (after events).inFlight.map Fetch.number =
      (History.ofEvents events).pending.map Prod.snd := by
    rw [← h.pending, List.map_map]
    rfl
  rw [hnumbers, h.fetches]
  exact History.pending_numbers _

theorem inFlight_numbers_nodup (events : List Event) :
    ((after events).inFlight.map Fetch.number).Nodup :=
  (inFlight_numbers events).nodup List.nodup_range'

theorem find?_inFlight {events : List Event} {fetch : Fetch}
    (h : fetch ∈ (after events).inFlight) :
    (after events).inFlight.find? (·.number == fetch.number) = some fetch := by
  cases hfind : (after events).inFlight.find? (·.number == fetch.number) with
  | none =>
      have hne := List.find?_eq_none.mp hfind fetch h
      simp at hne
  | some other =>
      have hmem := List.mem_of_find?_eq_some hfind
      have hnumber : other.number = fetch.number := by simpa using List.find?_some hfind
      rw [List.inj_on_of_nodup_map (inFlight_numbers_nodup events) hmem h hnumber]

/-- The cache holds a name once a body came in for it, and then the body that came in last. The
order in which fetches were begun plays no part. -/
theorem last_arrival_wins (events : List Event) (name : String) :
    let cache := (after events).cache
    let arrived := (History.ofEvents events).arrived
    ( cache.entry? name = none ↔ ∀ arrival ∈ arrived, arrival.1 ≠ name) ∧
      ∀ entry, cache.entry? name = some entry →
        entry.name = name ∧
          ∃ later earlier, arrived = later ++ (name, entry.body) :: earlier ∧
            ∀ arrival ∈ later, arrival.1 ≠ name := by
  intro cache arrived
  have h := (after_follows events).entries name
  constructor
  · rw [← valueAt?_eq_none_iff, ← Cache.held?_eq_none_iff, h, Option.map_eq_none_iff]
  · intro entry hentry
    rw [Cache.held?, hentry] at h
    obtain ⟨body, hbody, heq⟩ := Option.map_eq_some_iff.mp h.symm
    obtain ⟨rfl, rfl⟩ := Prod.mk.inj heq
    exact ⟨rfl, exists_append_of_valueAt?_eq_some hbody⟩

/-- Of two refreshes the one that ends last decides, though it was begun first. -/
example :
    (after [.refresh "a" (.ok (.text "first")), .refresh "a" (.ok (.text "second")), .complete 2,
      .complete 1]).cache.lookup? "a" = some (.text "first") := by
  decide

end PromptRegistry.Session
