import PromptRegistry.Proofs.Session.Outcomes
import PromptRegistry.Proofs.Session.Writes

/-!
# Fetches that end in another order

The ends of two fetches of different names can be exchanged: each writes, if at all, under its own
name, and whether a refresh writes depends on that name alone.
-/

namespace PromptRegistry

/-- What a refresh did but for the version that it reports. -/
def RefreshOutcome.unversioned : RefreshOutcome → RefreshOutcome
  | .replaced _ => .replaced 0
  | outcome => outcome

def Outcome.unversioned : Outcome → Outcome
  | .refresh outcome => .refresh outcome.unversioned
  | outcome => outcome

theorem Outcome.eq_of_unversioned {first second : Outcome}
    (h : first.unversioned = second.unversioned) (hfirst : ∀ outcome, first ≠ .refresh outcome) :
    first = second := by
  cases first with
  | refresh outcome => exact absurd rfl (hfirst outcome)
  | _ =>
      cases second with
      | refresh outcome => cases h
      | _ => exact h

/-- Two caches hold the same bodies under the same names and have counted as many stores. -/
structure Cache.Alike (first second : Cache) : Prop where
  held : ∀ name, first.held? name = second.held? name
  lastVersion : first.lastVersion = second.lastVersion

namespace Cache.Alike

variable {first second third : Cache}

theorem refl (cache : Cache) : cache.Alike cache := ⟨fun _ => rfl, rfl⟩

theorem symm (h : first.Alike second) : second.Alike first :=
  ⟨fun name => (h.held name).symm, h.lastVersion.symm⟩

theorem trans (h : first.Alike second) (h' : second.Alike third) : first.Alike third :=
  ⟨fun name => (h.held name).trans (h'.held name), h.lastVersion.trans h'.lastVersion⟩

theorem lookup (h : first.Alike second) (name : String) :
    first.lookup? name = second.lookup? name := by
  rw [lookup?_eq_held?, lookup?_eq_held?, h.held]

theorem names (h : first.Alike second) : first.names = second.names := by
  apply Index.keys_congr
  intro name
  have hkey (cache : Cache) : cache.entries.get? name = none ↔ cache.held? name = none :=
    held?_eq_none_iff.symm
  rw [hkey, hkey, h.held]

theorem written (h : first.Alike second) (stored : Option (String × Body)) :
    (first.written stored).Alike (second.written stored) := by
  rcases stored with _ | ⟨name, body⟩
  · exact h
  · refine ⟨fun other => ?_, congrArg (· + 1) h.lastVersion⟩
    by_cases hname : other = name
    · subst hname
      rw [Cache.written, Cache.written, held?_store_self, held?_store_self]
    · rw [Cache.written, Cache.written, held?_store_of_ne _ _ hname, held?_store_of_ne _ _ hname,
        h.held]

end Cache.Alike

theorem Cache.written_comm (cache : Cache) {first second : Option (String × Body)}
    (h : ∀ stored ∈ first, ∀ other ∈ second, stored.1 ≠ other.1) :
    ((cache.written first).written second).Alike ((cache.written second).written first) := by
  rcases first with _ | ⟨name, body⟩
  · exact .refl _
  · rcases second with _ | ⟨other, content⟩
    · exact .refl _
    · have hne : name ≠ other := h _ rfl _ rfl
      refine ⟨fun asked => ?_, rfl⟩
      simp only [Cache.written]
      by_cases hname : asked = name
      · subst hname
        rw [held?_store_of_ne _ _ hne, held?_store_self, held?_store_self]
      · by_cases hother : asked = other
        · subst hother
          rw [held?_store_self, held?_store_of_ne _ _ hname, held?_store_self]
        · rw [held?_store_of_ne _ _ hother, held?_store_of_ne _ _ hname,
            held?_store_of_ne _ _ hname, held?_store_of_ne _ _ hother]

namespace Session

/-- Two sessions differ in the versions of cached entries alone. -/
structure Alike (first second : Session) : Prop where
  cache : first.cache.Alike second.cache
  tasks : first.tasks = second.tasks
  fetches : first.fetches = second.fetches
  inFlight : first.inFlight = second.inFlight
  spawned : first.spawned = second.spawned
  batches : first.batches = second.batches

theorem Alike.refl (session : Session) : session.Alike session :=
  ⟨.refl _, rfl, rfl, rfl, rfl, rfl⟩

theorem Alike.trans {first second third : Session} (h : first.Alike second)
    (h' : second.Alike third) : first.Alike third :=
  ⟨h.cache.trans h'.cache, h.tasks.trans h'.tasks, h.fetches.trans h'.fetches,
    h.inFlight.trans h'.inFlight, h.spawned.trans h'.spawned, h.batches.trans h'.batches⟩

theorem Alike.symm {first second : Session} (h : first.Alike second) : second.Alike first :=
  ⟨h.cache.symm, h.tasks.symm, h.fetches.symm, h.inFlight.symm, h.spawned.symm, h.batches.symm⟩

theorem Fetch.write?_congr (fetch : Fetch) {first second : Cache}
    (h : first.lookup? fetch.name = second.lookup? fetch.name) :
    fetch.write? first = fetch.write? second := by
  rw [Fetch.write?, Fetch.write?, h]

theorem Fetch.refreshOutcome_congr (fetch : Fetch) {first second : Cache}
    (h : first.Alike second) : fetch.refreshOutcome first = fetch.refreshOutcome second := by
  rw [Fetch.refreshOutcome, Fetch.refreshOutcome, fetch.write?_congr (h.lookup _), h.lastVersion]

theorem Fetch.result?_congr (fetch : Fetch) {first second : Cache} (h : first.Alike second) :
    fetch.result? first = fetch.result? second := by
  rw [Fetch.result?, Fetch.result?, fetch.refreshOutcome_congr h]

section Step

variable {first second : Session} (h : first.Alike second) (event : Event)

include h

private theorem Alike.write?_eq : first.write? event = second.write? event := by
  cases event with
  | complete number =>
      simp only [write?, ended?, h.inFlight]
      congr 1
      funext fetch
      exact fetch.write?_congr (h.cache.lookup fetch.name)
  | _ => rfl

private theorem Alike.begins_eq : first.begins event = second.begins event := by
  cases event <;> simp only [begins, nextTask, h.cache.lookup, h.fetches, h.tasks, h.spawned]

private theorem Alike.settles_eq : first.settles event = second.settles event := by
  cases event <;> simp only [settles, ended?, h.inFlight, h.batches]

private theorem Alike.opens_eq : first.opens event = second.opens event := by
  cases event with
  | invalidate members => cases members <;> simp only [opens, nextTask, h.tasks]
  | _ => rfl

private theorem Alike.delivers_eq : first.delivers event = second.delivers event := by
  cases event with
  | get name answer => simp only [delivers, nextTask, h.cache.lookup, h.tasks]
  | invalidate members => cases members <;> simp only [delivers, nextTask, h.tasks]
  | create spec answer => simp only [delivers, nextTask, h.tasks]
  | complete number =>
      simp only [delivers, ended?, h.inFlight]
      congr 2
      funext fetch
      exact fetch.result?_congr h.cache
  | _ => rfl

theorem Alike.step :
    (first.step event).1.Alike (second.step event).1 ∧
      results (first.step event).2 = results (second.step event).2 := by
  constructor
  · rw [step_session, step_session, h.write?_eq, h.begins_eq, h.settles_eq, h.opens_eq]
    refine ⟨h.cache.written _, by rw [h.tasks], by rw [h.fetches], ?_, ?_, rfl⟩
    · cases event <;> simp only [remains, h.inFlight]
    · cases event <;> simp only [due, h.cache.lookup, h.spawned]
  · rw [step_results, step_results, h.delivers_eq, h.settles_eq]

end Step

theorem Alike.run {first second : Session} (h : first.Alike second) (events : List Event) :
    (first.run events).1.Alike (second.run events).1 ∧
      results (first.run events).2 = results (second.run events).2 := by
  induction events generalizing first second with
  | nil => exact ⟨h, rfl⟩
  | cons event events ih =>
      obtain ⟨hstep, hresults⟩ := h.step event
      obtain ⟨hrun, hmore⟩ := ih hstep
      rw [run_cons, run_cons, results_append, results_append, hresults, hmore]
      exact ⟨hrun, rfl⟩

def unversioned (delivered : List (Nat × Outcome)) : List (Nat × Outcome) :=
  delivered.map fun result => (result.1, result.2.unversioned)

theorem unversioned_append (first second : List (Nat × Outcome)) :
    unversioned (first ++ second) = unversioned first ++ unversioned second :=
  List.map_append

/-- Two runs lead to sessions that differ in versions alone, and deliver the same but for these. -/
def SameRun (first second : Session × List Effect) : Prop :=
  first.1.Alike second.1 ∧ (unversioned (results first.2)).Perm (unversioned (results second.2))

theorem SameRun.refl (run : Session × List Effect) : SameRun run run := ⟨.refl _, .refl _⟩

theorem SameRun.trans {first second third : Session × List Effect} (h : SameRun first second)
    (h' : SameRun second third) : SameRun first third :=
  ⟨h.1.trans h'.1, h.2.trans h'.2⟩

theorem SameRun.symm {first second : Session × List Effect} (h : SameRun first second) :
    SameRun second first :=
  ⟨h.1.symm, h.2.symm⟩

theorem SameRun.cons {session : Session} {first second : List Event} (event : Event)
    (h : SameRun ((session.step event).1.run first) ((session.step event).1.run second)) :
    SameRun (session.run (event :: first)) (session.run (event :: second)) := by
  rw [run_cons, run_cons]
  refine ⟨h.1, ?_⟩
  rw [results_append, results_append, unversioned_append, unversioned_append]
  exact h.2.append_left _

theorem SameRun.append {session : Session} {first second : List Event}
    (h : SameRun (session.run first) (session.run second)) (more : List Event) :
    SameRun (session.run (first ++ more)) (session.run (second ++ more)) := by
  obtain ⟨hrun, hresults⟩ := h.1.run more
  rw [run_append, run_append]
  refine ⟨hrun, ?_⟩
  rw [results_append, results_append, hresults, unversioned_append, unversioned_append]
  exact h.2.append_right _

theorem Fetch.refreshOutcome_unversioned (fetch : Fetch) {first second : Cache}
    (h : first.lookup? fetch.name = second.lookup? fetch.name) :
    (fetch.refreshOutcome first).unversioned = (fetch.refreshOutcome second).unversioned := by
  rw [Fetch.refreshOutcome, Fetch.refreshOutcome, fetch.write?_congr h]
  split <;> rfl

theorem Fetch.result?_unversioned (fetch : Fetch) {first second : Cache}
    (h : first.lookup? fetch.name = second.lookup? fetch.name) :
    unversioned (fetch.result? first).toList = unversioned (fetch.result? second).toList := by
  have houtcome := fetch.refreshOutcome_unversioned h
  obtain ⟨number, name, answer, owner⟩ := fetch
  cases owner with
  | refresh task =>
      simp only [Fetch.result?, unversioned, Outcome.unversioned, houtcome, Option.toList_some,
        List.map_singleton]
  | _ => rfl

theorem step_complete {session : Session} {fetch : Fetch}
    (h : session.ended? (.complete fetch.number) = some fetch) :
    (session.step (.complete fetch.number)).1 =
        { session with
          cache := session.cache.written (fetch.write? session.cache)
          inFlight := session.inFlight.filter (·.number != fetch.number)
          batches := (fetch.settle session.batches).1 } ∧
      results (session.step (.complete fetch.number)).2 =
        (fetch.result? session.cache).toList ++ results (fetch.settle session.batches).2 := by
  rw [step_session, step_results, settles_of_some h]
  simp only [write?, delivers, h]
  simp

theorem settle_comm {prior : List Event} {first second : Fetch}
    (hfirst : first ∈ (after prior).inFlight) (hsecond : second ∈ (after prior).inFlight)
    (hne : first ≠ second) : Interchangeable first.settle second.settle (after prior).batches := by
  have hbalanced := after_balanced prior
  have hsettle {fetch : Fetch} {task position : Nat} (h : fetch.owner = .member task position) :
      fetch.settle = updateBatches task position fetch.progress := by
    funext batches
    rw [Fetch.settle, h]
  have hidle {fetch : Fetch} (h : ∀ task position, fetch.owner ≠ .member task position)
      (batches : List Batch) : fetch.settle batches = (batches, []) := by
    unfold Fetch.settle
    split
    · exact absurd ‹_› (h _ _)
    · rfl
  cases howner : first.owner with
  | member task position =>
      cases howner' : second.owner with
      | member other place =>
          rw [hsettle howner, hsettle howner']
          refine updateBatches_comm first.progress_isEnd second.progress_isEnd
            hbalanced.batches_nodup ((hbalanced.seats _ _).mp ⟨first, hfirst, howner⟩)
            ((hbalanced.seats _ _).mp ⟨second, hsecond, howner'⟩) ?_
          rintro ⟨rfl, rfl⟩
          exact hne (hbalanced.owner_unique hfirst hsecond (howner.trans howner'.symm)
            (by simp [howner]))
      | _ => exact (interchangeable_of_unchanged (hidle (by simp [howner'])) _).symm
  | _ => exact interchangeable_of_unchanged (hidle (by simp [howner])) _

theorem Fetch.lookup?_written_of_ne (fetch : Fetch) (cache : Cache) {name : String}
    (h : name ≠ fetch.name) :
    (cache.written (fetch.write? cache)).lookup? name = cache.lookup? name := by
  cases hwrite : fetch.write? cache with
  | none => rfl
  | some stored =>
      obtain ⟨hstored, -⟩ := write?_name hwrite
      exact Cache.lookup?_store_of_ne cache stored.2 (hstored ▸ h)

theorem Fetch.lookup?_written_self (fetch : Fetch) (cache : Cache) :
    (cache.written (fetch.write? cache)).lookup? fetch.name =
      fetch.answer.toOption.or (cache.lookup? fetch.name) := by
  obtain ⟨number, name, answer, owner⟩ := fetch
  cases answer with
  | error failure => rfl
  | ok body =>
      by_cases hwrites : owner.overwrites ∨ cache.lookup? name ≠ some body
      · have hwrite : Fetch.write? ⟨number, name, .ok body, owner⟩ cache = some (name, body) :=
          if_pos hwrites
        rw [hwrite]
        exact Cache.lookup?_store_self cache name body
      · have hwrite : Fetch.write? ⟨number, name, .ok body, owner⟩ cache = none := if_neg hwrites
        rw [hwrite]
        exact not_not.mp (not_or.mp hwrites).2

def ends (order : List Fetch) : List Event := order.map fun fetch => .complete fetch.number

private theorem inFlight_of_not_mem {prior : List Event} {fetch : Fetch} {order : List Fetch}
    (hfetch : fetch ∈ (after prior).inFlight)
    (horder : ∀ other ∈ order, other ∈ (after prior).inFlight) (hfresh : fetch ∉ order) :
    fetch ∈ (after (prior ++ ends order)).inFlight := by
  apply inFlight_of_not_complete hfetch
  intro hmem
  obtain ⟨other, hother, hcomplete⟩ := List.mem_map.mp hmem
  have hnumber : other.number = fetch.number := Event.complete.inj hcomplete
  have hfind := find?_inFlight (horder other hother)
  rw [hnumber, find?_inFlight hfetch] at hfind
  exact hfresh (Option.some.inj hfind ▸ hother)

/-- What two fetches of different names leave and deliver, each as if it had ended alone but for the
open batches. -/
private theorem run_two {prior : List Event} {first second : Fetch}
    (hfirst : first ∈ (after prior).inFlight) (hsecond : second ∈ (after prior).inFlight)
    (hname : first.name ≠ second.name) :
    let session := after prior
    let run := session.run [.complete first.number, .complete second.number]
    run.1 = { session with
        cache := (session.cache.written (first.write? session.cache)).written
          (second.write? session.cache)
        inFlight := session.inFlight.filter fun fetch =>
          fetch.number != second.number && fetch.number != first.number
        batches := (second.settle (first.settle session.batches).1).1 } ∧
      unversioned (results run.2) =
        (unversioned (first.result? session.cache).toList ++
            unversioned (results (first.settle session.batches).2)) ++
          (unversioned (second.result? session.cache).toList ++
            unversioned (results (second.settle (first.settle session.batches).1).2)) := by
  intro session run
  have hfind : session.ended? (.complete first.number) = some first := find?_inFlight hfirst
  obtain ⟨hstep, hresults⟩ := step_complete hfind
  have hne : second ≠ first := fun heq => hname (congrArg Fetch.name heq.symm)
  have hwaits : second ∈ (after (prior ++ [.complete first.number])).inFlight :=
    inFlight_of_not_mem hsecond (List.forall_mem_singleton.mpr hfirst) (by simpa using hne)
  have hfind' : (session.step (.complete first.number)).1.ended? (.complete second.number) =
      some second := by
    have hfound := find?_inFlight hwaits
    rwa [after_concat] at hfound
  obtain ⟨hstep', hresults'⟩ := step_complete hfind'
  have hlookup : (session.cache.written (first.write? session.cache)).lookup? second.name =
      session.cache.lookup? second.name := first.lookup?_written_of_ne _ hname.symm
  have hrun : run = session.run [.complete first.number, .complete second.number] := rfl
  rw [run_cons, run_singleton] at hrun
  constructor
  · rw [hrun, hstep', hstep]
    simp only [List.filter_filter, second.write?_congr hlookup]
  · rw [hrun, results_append, hresults, hresults', hstep]
    simp only [unversioned_append, second.result?_unversioned hlookup]

private theorem perm_append_append_comm {α : Type} (a b c d : List α) :
    ((a ++ b) ++ (c ++ d)).Perm ((a ++ c) ++ (b ++ d)) := by
  rw [List.append_assoc, List.append_assoc]
  exact (List.perm_append_comm_assoc b c d).append_left a

theorem ends_swap {prior : List Event} {first second : Fetch}
    (hfirst : first ∈ (after prior).inFlight) (hsecond : second ∈ (after prior).inFlight)
    (hname : first.name ≠ second.name) :
    SameRun ((after prior).run [.complete first.number, .complete second.number])
      ((after prior).run [.complete second.number, .complete first.number]) := by
  obtain ⟨hsession, hresults⟩ := run_two hfirst hsecond hname
  obtain ⟨hsession', hresults'⟩ := run_two hsecond hfirst hname.symm
  have hne : first ≠ second := fun heq => hname (congrArg Fetch.name heq)
  obtain ⟨hbatches, hsettled⟩ := settle_comm hfirst hsecond hne
  rw [SameRun, hsession, hsession', hresults, hresults', hbatches]
  constructor
  · refine ⟨Cache.written_comm _ ?_, rfl, rfl, ?_, rfl, rfl⟩
    · intro stored hstored other hother
      rw [← (write?_name hstored).1, ← (write?_name hother).1]
      exact hname
    · simp only [Bool.and_comm]
  · have hmap := hsettled.map fun result => (result.1, Outcome.unversioned result.2)
    rw [List.map_append, List.map_append] at hmap
    refine (perm_append_append_comm _ _ _ _).trans ?_
    refine (List.perm_append_comm.append hmap).trans ?_
    exact perm_append_append_comm _ _ _ _

private theorem inFlight_of_ne {prior : List Event} {fetch other : Fetch}
    (hfetch : fetch ∈ (after prior).inFlight) (hother : other ∈ (after prior).inFlight)
    (hne : fetch ≠ other) : fetch ∈ (after (prior ++ [.complete other.number])).inFlight :=
  inFlight_of_not_mem hfetch (List.forall_mem_singleton.mpr hother) (by simpa using hne)

private theorem ends_ahead {prior : List Event} {fetch : Fetch} {before behind : List Fetch}
    (hnodup : before.Nodup) (hfetch : fetch ∈ (after prior).inFlight)
    (hbefore : ∀ other ∈ before, other ∈ (after prior).inFlight ∧ other.name ≠ fetch.name) :
    SameRun ((after prior).run (ends (before ++ fetch :: behind)))
      ((after prior).run (ends (fetch :: before ++ behind))) := by
  induction before generalizing prior with
  | nil => exact .refl _
  | cons other before ih =>
      obtain ⟨⟨hother, hname⟩, hrest⟩ := List.forall_mem_cons.mp hbefore
      obtain ⟨hfresh, hnodup⟩ := List.nodup_cons.mp hnodup
      have hne : fetch ≠ other := fun heq => hname (congrArg Fetch.name heq.symm)
      have hbefore' : ∀ third ∈ before,
          third ∈ (after (prior ++ [.complete other.number])).inFlight ∧
            third.name ≠ fetch.name := fun third hthird =>
        ⟨inFlight_of_ne (hrest third hthird).1 hother fun heq => hfresh (heq ▸ hthird),
          (hrest third hthird).2⟩
      have hlater := ih hnodup (inFlight_of_ne hfetch hother hne) hbefore'
      rw [after_concat] at hlater
      exact (hlater.cons _).trans ((ends_swap hother hfetch hname).append (ends (before ++ behind)))

private theorem perm_of_filter_name {first second : List Fetch}
    (h : ∀ name, first.filter (·.name == name) = second.filter (·.name == name)) :
    first.Perm second := by
  classical
  rw [List.perm_iff_count]
  intro fetch
  have hcount := congrArg (List.count fetch) (h fetch.name)
  rwa [List.count_filter (by simp), List.count_filter (by simp)] at hcount

private theorem filter_name_tail {fetch : Fetch} {first before behind : List Fetch}
    (hbefore : ∀ other ∈ before, other.name ≠ fetch.name)
    (h : ∀ name, (fetch :: first).filter (·.name == name) =
      (before ++ fetch :: behind).filter (·.name == name)) (name : String) :
    first.filter (·.name == name) = (before ++ behind).filter (·.name == name) := by
  have hname := h name
  rw [List.filter_append] at hname ⊢
  by_cases hfetch : fetch.name = name
  · subst hfetch
    have hnone : before.filter (·.name == fetch.name) = [] := by
      apply List.filter_eq_nil_iff.mpr
      intro other hother
      simpa using hbefore other hother
    rw [hnone, List.filter_cons_of_pos (by simp), List.filter_cons_of_pos (by simp)] at hname
    rw [hnone]
    exact (List.cons.inj hname).2
  · rwa [List.filter_cons_of_neg (by simpa using hfetch),
      List.filter_cons_of_neg (by simpa using hfetch)] at hname

/-- Two orders that agree for each name are one another's run but for versions. -/
theorem ends_sameRun {prior : List Event} {first second : List Fetch} (hnodup : first.Nodup)
    (hflight : ∀ fetch ∈ first, fetch ∈ (after prior).inFlight)
    (horder : ∀ name, first.filter (·.name == name) = second.filter (·.name == name)) :
    SameRun ((after prior).run (ends first)) ((after prior).run (ends second)) := by
  induction first generalizing prior second with
  | nil =>
      rw [(perm_of_filter_name horder).nil_eq]
      exact .refl _
  | cons fetch first ih =>
      obtain ⟨hfetch, hrest⟩ := List.forall_mem_cons.mp hflight
      have hperm := perm_of_filter_name horder
      -- the fetch that ends first in one order is moved ahead in the other, where only fetches of
      -- other names stand before it
      have hfirst := (horder fetch.name).symm
      rw [List.filter_cons_of_pos (by simp)] at hfirst
      obtain ⟨before, behind, rfl, hbefore, -, -⟩ := List.filter_eq_cons_iff.mp hfirst
      have hother : ∀ other ∈ before, other.name ≠ fetch.name := by simpa using hbefore
      have hahead : SameRun ((after prior).run (ends (before ++ fetch :: behind)))
          ((after prior).run (ends (fetch :: before ++ behind))) := by
        refine ends_ahead (hperm.nodup hnodup).of_append_left hfetch fun other hmem => ?_
        exact ⟨hflight other (hperm.symm.subset (List.mem_append_left _ hmem)), hother other hmem⟩
      obtain ⟨hfresh, hnodup⟩ := List.nodup_cons.mp hnodup
      have hflight' : ∀ third ∈ first,
          third ∈ (after (prior ++ [.complete fetch.number])).inFlight := fun third hthird =>
        inFlight_of_ne (hrest third hthird) hfetch fun heq => hfresh (heq ▸ hthird)
      have hlater := ih hnodup hflight' (filter_name_tail hother horder)
      rw [after_concat] at hlater
      exact (hlater.cons _).trans hahead.symm

/-- The body under a name depends on the order of its own fetches alone: it is that of the last of
them that succeeded. -/
private theorem ends_lookup {prior : List Event} {order : List Fetch} (name : String)
    (hnodup : order.Nodup) (hflight : ∀ fetch ∈ order, fetch ∈ (after prior).inFlight) :
    (after (prior ++ ends order)).cache.lookup? name =
      (order.filter (·.name == name)).foldl (fun body fetch => fetch.answer.toOption.or body)
        ((after prior).cache.lookup? name) := by
  induction order using List.reverseRecOn with
  | nil => simp [ends]
  | append_singleton order fetch ih =>
      have hfetch := hflight fetch (by simp)
      have hrest : ∀ other ∈ order, other ∈ (after prior).inFlight := fun other hother =>
        hflight other (List.mem_append_left _ hother)
      obtain ⟨hnodup, -, hfresh⟩ := List.nodup_append.mp hnodup
      have hnot : fetch ∉ order := fun hmem => hfresh fetch hmem fetch List.mem_cons_self rfl
      have hstep := (step_complete (find?_inFlight (inFlight_of_not_mem hfetch hrest hnot))).1
      have hends : ends (order ++ [fetch]) = ends order ++ [.complete fetch.number] :=
        List.map_append
      rw [hends, ← List.append_assoc, after_concat, hstep, List.filter_append, List.foldl_append,
        ← ih hnodup hrest]
      by_cases hname : fetch.name = name
      · subst hname
        rw [List.filter_cons_of_pos (by simp)]
        exact fetch.lookup?_written_self _
      · rw [List.filter_cons_of_neg (by simpa using hname)]
        exact fetch.lookup?_written_of_ne _ (Ne.symm hname)

private theorem ends_refreshOutcome {prior : List Event} {fetch : Fetch}
    {before behind before' behind' : List Fetch} (hnodup : (before ++ fetch :: behind).Nodup)
    (hflight : ∀ other ∈ before ++ fetch :: behind, other ∈ (after prior).inFlight)
    (horder : ∀ name, (before ++ fetch :: behind).filter (·.name == name) =
      (before' ++ fetch :: behind').filter (·.name == name)) :
    (fetch.refreshOutcome (after (prior ++ ends before)).cache).unversioned =
      (fetch.refreshOutcome (after (prior ++ ends before')).cache).unversioned := by
  have hperm := perm_of_filter_name horder
  have hnodup' := hperm.nodup hnodup
  have hflight' : ∀ other ∈ before', other ∈ (after prior).inFlight := fun other hother =>
    hflight other (hperm.symm.subset (List.mem_append_left _ hother))
  have hfresh {before behind : List Fetch} (h : (before ++ fetch :: behind).Nodup) :
      fetch ∉ before ∧ fetch ∉ behind := by
    obtain ⟨-, hbehind, hapart⟩ := List.nodup_append.mp h
    exact ⟨fun hmem => hapart fetch hmem fetch List.mem_cons_self rfl,
      (List.nodup_cons.mp hbehind).1⟩
  have hfilter : before.filter (·.name == fetch.name) = before'.filter (·.name == fetch.name) := by
    have hname := horder fetch.name
    rw [List.filter_append, List.filter_append, List.filter_cons_of_pos (by simp),
      List.filter_cons_of_pos (by simp)] at hname
    refine ((List.append_cons_inj_of_notMem ?_ ?_).mp hname).1
    · exact fun hmem => (hfresh hnodup).1 (List.mem_of_mem_filter hmem)
    · exact fun hmem => (hfresh hnodup).2 (List.mem_of_mem_filter hmem)
  apply fetch.refreshOutcome_unversioned
  rw [ends_lookup _ hnodup.of_append_left fun other hother =>
      hflight other (List.mem_append_left _ hother),
    ends_lookup _ hnodup'.of_append_left hflight', hfilter]

/-- Two orders in which fetches end make no difference but for the versions of entries. -/
structure SameButVersions (prior : List Event) (first second : List Fetch) : Prop where
  names : (after (prior ++ ends first)).cache.names = (after (prior ++ ends second)).cache.names
  bodies : ∀ name, (after (prior ++ ends first)).cache.lookup? name =
    (after (prior ++ ends second)).cache.lookup? name
  counter : (after (prior ++ ends first)).cache.lastVersion =
    (after (prior ++ ends second)).cache.lastVersion
  /-- Also the fetches still in flight and the batches still open are the same. -/
  sessions : (after (prior ++ ends first)).Alike (after (prior ++ ends second))
  results : ∀ task, (∀ outcome, .refresh outcome ∉ outcomes task (prior ++ ends first)) →
    outcomes task (prior ++ ends first) = outcomes task (prior ++ ends second)
  refreshes : ∀ task, (outcomes task (prior ++ ends first)).map Outcome.unversioned =
    (outcomes task (prior ++ ends second)).map Outcome.unversioned
  /-- Each refresh comes to the same but for the version, also one that no task waits for. -/
  reports : ∀ fetch before behind before' behind',
    first = before ++ fetch :: behind → second = before' ++ fetch :: behind' →
      (fetch.refreshOutcome (after (prior ++ ends before)).cache).unversioned =
        (fetch.refreshOutcome (after (prior ++ ends before')).cache).unversioned
  ascending : ∀ order : List Fetch,
    ((after prior).madeEntries (ends order)).Pairwise (·.version < ·.version)

private theorem outcomes_unversioned (task : Nat) (events : List Event) :
    (outcomes task events).map Outcome.unversioned =
      (unversioned (delivered events)).filterMap fun result =>
        if result.1 = task then some result.2 else none := by
  rw [outcomes, unversioned, List.map_filterMap, List.filterMap_map]
  congr 1
  funext result
  by_cases htask : result.1 = task <;> simp [htask]

private theorem outcomes_perm {task : Nat} {first second : List Event}
    (h : (unversioned (delivered first)).Perm (unversioned (delivered second))) :
    (outcomes task first).map Outcome.unversioned =
      (outcomes task second).map Outcome.unversioned := by
  have hperm := h.filterMap fun result => if result.1 = task then some result.2 else none
  rw [← outcomes_unversioned, ← outcomes_unversioned] at hperm
  -- a task delivers at most once, so that a permutation is an equality
  cases houtcomes : outcomes task first with
  | nil =>
      rw [houtcomes] at hperm
      exact hperm.nil_eq
  | cons outcome rest =>
      have hmem : outcome ∈ outcomes task first := by rw [houtcomes]; exact List.mem_cons_self
      have hsingle := outcomes_of_mem (mem_outcomes_iff.mp hmem)
      rw [hsingle] at houtcomes hperm
      rw [← houtcomes]
      exact (List.perm_singleton.mp hperm.symm).symm

private theorem eq_of_map_unversioned {first second : List Outcome}
    (h : first.map Outcome.unversioned = second.map Outcome.unversioned)
    (hfirst : ∀ outcome, .refresh outcome ∉ first) : first = second := by
  induction first generalizing second with
  | nil => exact (List.map_eq_nil_iff.mp h.symm).symm
  | cons outcome first ih =>
      cases second with
      | nil => simp at h
      | cons other second =>
          obtain ⟨hhead, htail⟩ := List.cons.inj h
          have hother : outcome = other := Outcome.eq_of_unversioned hhead fun result heq =>
            hfirst result (heq ▸ List.mem_cons_self)
          have hrest := ih htail fun result hmem => hfirst result (List.mem_cons_of_mem _ hmem)
          rw [hother, hrest]

/-- In whichever order fetches end, it makes no difference but for versions as long as the fetches
of each single name end in the same order. -/
theorem ends_commute {prior : List Event} {first second : List Fetch} (hnodup : first.Nodup)
    (hflight : ∀ fetch ∈ first, fetch ∈ (after prior).inFlight)
    (horder : ∀ name, first.filter (·.name == name) = second.filter (·.name == name)) :
    SameButVersions prior first second := by
  obtain ⟨hrun, hresults⟩ := ends_sameRun hnodup hflight horder
  rw [← after_append, ← after_append] at hrun
  have hdelivered : (unversioned (delivered (prior ++ ends first))).Perm
      (unversioned (delivered (prior ++ ends second))) := by
    rw [delivered_append, delivered_append, unversioned_append, unversioned_append]
    exact hresults.append_left _
  constructor
  · exact hrun.cache.names
  · exact hrun.cache.lookup
  · exact hrun.cache.lastVersion
  · exact hrun
  · exact fun task hother => eq_of_map_unversioned (outcomes_perm hdelivered) hother
  · exact fun task => outcomes_perm hdelivered
  · rintro fetch before behind before' behind' rfl rfl
    exact ends_refreshOutcome hnodup hflight horder
  · intro order
    apply List.pairwise_map.mp
    rw [madeEntries_versions]
    exact List.pairwise_lt_range'

/-- Here reads, refreshes and the names of a batch end in turn: those of one name keep their order,
while the refresh that comes first in one run comes second in the other. -/
theorem ends_commute_of_two_names :
    let prior : List Event := [.store "a" (.text "old"), .refresh "a" (.ok (.text "new")),
      .get "b" (.ok (.text "body")), .invalidate [("a", .ok (.text "new")), ("b", .error .file)]]
    let refresh : Fetch := ⟨1, "a", .ok (.text "new"), .refresh 1⟩
    let read : Fetch := ⟨2, "b", .ok (.text "body"), .read 2⟩
    let again : Fetch := ⟨3, "a", .ok (.text "new"), .member 3 0⟩
    let failing : Fetch := ⟨4, "b", .error .file, .member 3 1⟩
    let first := [refresh, read, again, failing]
    let second := [read, failing, refresh, again]
    first.Nodup ∧ (∀ fetch ∈ first, fetch ∈ (after prior).inFlight) ∧
      (∀ name, first.filter (·.name == name) = second.filter (·.name == name)) ∧
      SameButVersions prior first second := by
  intro prior refresh read again failing first second
  have hnodup : first.Nodup := List.Nodup.of_map Fetch.number (by decide)
  have hflight : ∀ fetch ∈ first, fetch ∈ (after prior).inFlight := fun fetch hfetch => hfetch
  have horder : ∀ name, first.filter (·.name == name) = second.filter (·.name == name) := by
    intro name
    by_cases ha : "a" = name
    · subst ha
      rfl
    · by_cases hb : "b" = name
      · subst hb
        rfl
      · simp [first, second, refresh, read, again, failing, ha, hb]
  exact ⟨hnodup, hflight, horder, ends_commute hnodup hflight horder⟩

end Session

end PromptRegistry
