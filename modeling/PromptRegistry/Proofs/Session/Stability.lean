import PromptRegistry.Proofs.Session.Reads

/-! # Prompts that do not change -/

namespace PromptRegistry.Session

/-- An answer brings no other body. -/
def Confirms (body : Body) (answer : Answer) : Prop :=
  ∀ fetched, answer = .ok fetched → fetched = body

/-- A name has an entry, and every fetch of it in flight is a refresh that confirms the body. -/
structure Steady (session : Session) (name : String) (entry : Entry) : Prop where
  cached : session.cache.entry? name = some entry
  fetches : ∀ fetch ∈ session.inFlight, fetch.name = name →
    fetch.owner.overwrites = false ∧ Confirms entry.body fetch.answer

/-- An event does no more to a name than read, refresh or create it, and each fetch of the name that
it begins confirms the body. What it does to other names is free. -/
def Event.Spares (session : Session) (name : String) (body : Body) : Event → Prop
  | .get _ _ | .create _ _ | .spawnRefresh _ | .complete _ => True
  | .refresh asked answer => asked = name → Confirms body answer
  | .wake position answer => session.spawned[position]? = some name → Confirms body answer
  | .fetchAndStore asked _ | .store asked _ => asked ≠ name
  | .invalidate members => ∀ member ∈ members, member.1 ≠ name

def Spared (name : String) (body : Body) : Session → List Event → Prop
  | _, [] => True
  | session, event :: events =>
      event.Spares session name body ∧ Spared name body (session.step event).1 events

variable {session : Session} {name : String} {entry : Entry}

theorem Steady.lookup (h : Steady session name entry) :
    session.cache.lookup? name = some entry.body := by
  rw [Cache.lookup?, h.cached]
  rfl

private theorem Steady.write_ne (h : Steady session name entry) {event : Event}
    (hevent : event.Spares session name entry.body) {stored : String} {body : Body}
    (hwrite : session.write? event = some (stored, body)) : name ≠ stored := by
  cases event with
  | store asked content =>
      obtain ⟨rfl, -⟩ := Prod.mk.inj (Option.some.inj hwrite)
      exact Ne.symm hevent
  | complete number =>
      obtain ⟨fetch, hfind, hstored⟩ := Option.bind_eq_some_iff.mp hwrite
      obtain ⟨rfl, hanswer, hreason⟩ := write?_name hstored
      intro hname
      obtain ⟨howner, hconfirms⟩ := h.fetches fetch (ended?_eq_some hfind).2 hname.symm
      -- the refresh finds the body that it brings
      obtain rfl := hconfirms body hanswer
      rcases hreason with hover | hchanged
      · rw [howner] at hover
        cases hover
      · exact hchanged (hname ▸ h.lookup)
  | _ => simp at hwrite

private theorem Steady.begins_confirm (h : Steady session name entry) {event : Event}
    (hevent : event.Spares session name entry.body) {fetch : Fetch}
    (hfetch : fetch ∈ session.begins event) (hname : fetch.name = name) :
    fetch.owner.overwrites = false ∧ Confirms entry.body fetch.answer := by
  cases event with
  | get asked answer =>
      -- the name is cached, so that a read of it begins no fetch
      simp only [begins] at hfetch
      split at hfetch
      case isTrue hmiss =>
        obtain rfl := List.mem_singleton.mp hfetch
        obtain rfl : asked = name := hname
        rw [h.lookup] at hmiss
        cases hmiss
      case isFalse => simp at hfetch
  | refresh asked answer =>
      obtain rfl := List.mem_singleton.mp hfetch
      exact ⟨rfl, hevent hname⟩
  | fetchAndStore asked answer =>
      obtain rfl := List.mem_singleton.mp hfetch
      exact absurd hname hevent
  | invalidate members =>
      obtain ⟨position, hposition, rfl⟩ := List.mem_mapIdx.mp hfetch
      exact absurd hname (hevent _ (List.getElem_mem hposition))
  | wake position answer =>
      obtain ⟨asked, hasked, rfl⟩ := List.mem_map.mp hfetch
      obtain rfl : asked = name := hname
      exact ⟨rfl, hevent (Option.mem_toList.mp hasked)⟩
  | _ => simp at hfetch

theorem Steady.step (h : Steady session name entry) {event : Event}
    (hevent : event.Spares session name entry.body) :
    Steady (session.step event).1 name entry := by
  rw [step_session]
  constructor
  · change Cache.entry? (session.cache.written (session.write? event)) name = some entry
    cases hwrite : session.write? event with
    | none => exact h.cached
    | some stored =>
        rw [Cache.written, Cache.entry?_store_of_ne _ _ (h.write_ne hevent hwrite)]
        exact h.cached
  · intro fetch hfetch hname
    rcases List.mem_append.mp hfetch with hremains | hbegins
    · exact h.fetches fetch (remains_subset hremains) hname
    · exact h.begins_confirm hevent hbegins hname

theorem Steady.run (h : Steady session name entry) {events : List Event}
    (hevents : Spared name entry.body session events) :
    Steady (session.run events).1 name entry := by
  induction events generalizing session with
  | nil => exact h
  | cons event events ih =>
      rw [run_cons]
      exact ih (h.step hevents.1) hevents.2

private theorem spared_of_append {body : Body} {before behind : List Event}
    (h : Spared name body session (before ++ behind)) : Spared name body session before := by
  induction before generalizing session with
  | nil => trivial
  | cons event before ih => exact ⟨h.1, ih h.2⟩

/-- A steady name keeps its entry, version and all, in every state of a run that spares it, and
every read of it in the run returns its body. -/
theorem steady_entry_unchanged {prior later : List Event} {name : String} {entry : Entry}
    (hsteady : Steady (after prior) name entry)
    (hlater : Spared name entry.body (after prior) later) :
    ∀ before behind, later = before ++ behind →
      (after (prior ++ before)).cache.entry? name = some entry ∧
        ∀ answer rest, behind = .get name answer :: rest →
          outcomes (after (prior ++ before)).nextTask (prior ++ later) =
            [.prompt ⟨some entry.body⟩] := by
  rintro before behind rfl
  have hbefore : Steady (after (prior ++ before)) name entry := by
    rw [after_append]
    exact hsteady.run (spared_of_append hlater)
  refine ⟨hbefore.cached, ?_⟩
  rintro answer rest rfl
  apply outcomes_of_mem
  rw [← List.append_assoc, List.append_cons]
  apply mem_delivered_append
  rw [delivered_concat, get_results_of_some hbefore.lookup]
  exact List.mem_append_right _ (List.mem_singleton.mpr rfl)

/-- Here a refresh that fails, one that brings the same body and one that begins later meet reads of
the name and writes to another. -/
theorem steady_entry_unchanged_among_refreshes :
    let prior : List Event := [.store "a" (.text "same"), .refresh "a" (.error .transport),
      .refresh "a" (.ok (.text "same")), .fetchAndStore "b" (.ok (.text "other"))]
    let before : List Event := [.get "a" (.ok (.text "unasked")), .complete 3, .complete 2,
      .wake 0 (.ok (.text "same")), .store "b" (.text "new"), .complete 4]
    let behind : List Event := [.get "a" (.error .transport), .complete 1]
    let entry : Entry := ⟨"a", .text "same", 1⟩
    Steady (after prior) "a" entry ∧ Spared "a" entry.body (after prior) (before ++ behind) ∧
      (after (prior ++ before)).cache.entry? "a" = some entry ∧
      outcomes (after (prior ++ before)).nextTask (prior ++ (before ++ behind)) =
        [.prompt ⟨some (.text "same")⟩] := by
  intro prior before behind entry
  have hsame : Confirms entry.body (.ok (.text "same")) := fun fetched h => (Except.ok.inj h).symm
  have hfailed : Confirms entry.body (.error .transport) := fun fetched h => nomatch h
  have hsteady : Steady (after prior) "a" entry := by
    refine ⟨rfl, ?_⟩
    have hflight : (after prior).inFlight =
        [⟨1, "a", .error .transport, .refresh 1⟩, ⟨2, "a", .ok (.text "same"), .refresh 2⟩,
          ⟨3, "b", .ok (.text "other"), .store 3⟩] := rfl
    rw [hflight]
    simp [Owner.overwrites, hsame, hfailed]
  have hspared : Spared "a" entry.body (after prior) (before ++ behind) :=
    ⟨trivial, trivial, trivial, fun _ => hsame, by simp [Event.Spares], trivial, trivial, trivial,
      trivial⟩
  obtain ⟨hentry, hreads⟩ := steady_entry_unchanged hsteady hspared before behind rfl
  exact ⟨hsteady, hspared, hentry, hreads _ _ rfl⟩

end PromptRegistry.Session
