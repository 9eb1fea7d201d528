import PromptRegistry.Proofs.Session.Outcomes

/-! # Prefilling a batch of names -/

namespace PromptRegistry.Session

def Member.ofAnswer (asked : String × Answer) : Member :=
  ⟨asked.1,
    match asked.2 with
    | .ok _ => .stored
    | .error failure => .failed (.context (fetchContext asked.1) failure)⟩

def summary (members : List (String × Answer)) : Except BatchFailure Unit :=
  batchResult (members.map Member.ofAnswer)

/-- A result sums up the answers to a list of names. -/
structure Sums (members : List (String × Answer)) (result : Except BatchFailure Unit) : Prop where
  ok : result = .ok () ↔ ∀ member ∈ members, member.2.isOk = true
  /-- The names that failed are listed as often as they failed, in the order of the list. -/
  names : ∀ failure, result = .error failure →
    failure.names = (members.filter (!·.2.isOk)).map Prod.fst
  /-- The cause is that of the first name in the list that failed. -/
  first : ∀ failure, result = .error failure →
    ∃ before name cause behind, members = before ++ (name, .error cause) :: behind ∧
      (∀ member ∈ before, member.2.isOk = true) ∧
      failure.first = .context ("Failed to fetch prompt: " ++ name) cause ∧
      failure.failure.chain =
        ("Failed to prefill cache for: " ++ ", ".intercalate failure.names) ::
          ("Failed to fetch prompt: " ++ name) :: cause.chain

private theorem failures_ok (name : String) (body : Body) (members : List (String × Answer)) :
    failures (((name, .ok body) :: members).map Member.ofAnswer) =
      failures (members.map Member.ofAnswer) := rfl

private theorem failures_error (name : String) (cause : Failure)
    (members : List (String × Answer)) :
    failures (((name, .error cause) :: members).map Member.ofAnswer) =
      (name, .context (fetchContext name) cause) :: failures (members.map Member.ofAnswer) := rfl

private theorem failures_names (members : List (String × Answer)) :
    (failures (members.map Member.ofAnswer)).map Prod.fst =
      (members.filter (!·.2.isOk)).map Prod.fst := by
  induction members with
  | nil => rfl
  | cons member members ih =>
      obtain ⟨name, answer⟩ := member
      cases answer with
      | ok body => exact ih
      | error cause => exact congrArg (name :: ·) ih

private theorem failures_eq_nil_iff {members : List (String × Answer)} :
    failures (members.map Member.ofAnswer) = [] ↔ ∀ member ∈ members, member.2.isOk = true := by
  induction members with
  | nil => simp [failures]
  | cons member members ih =>
      obtain ⟨name, answer⟩ := member
      rw [List.forall_mem_cons]
      cases answer with
      | ok body =>
          have hok : Except.isOk (Except.ok body : Answer) = true := rfl
          rw [failures_ok, ih, and_iff_right hok]
      | error cause =>
          rw [failures_error]
          simp [Except.isOk, Except.toBool]

private theorem exists_append_of_failures {members : List (String × Answer)} {name : String}
    {failure : Failure} {rest : List (String × Failure)}
    (h : failures (members.map Member.ofAnswer) = (name, failure) :: rest) :
    ∃ before cause behind, members = before ++ (name, .error cause) :: behind ∧
      (∀ member ∈ before, member.2.isOk = true) ∧
      failure = .context (fetchContext name) cause := by
  induction members with
  | nil => simp [failures] at h
  | cons member members ih =>
      obtain ⟨asked, answer⟩ := member
      cases answer with
      | ok body =>
          obtain ⟨before, cause, behind, rfl, hbefore, hfailure⟩ := ih h
          exact ⟨(asked, .ok body) :: before, cause, behind, rfl,
            List.forall_mem_cons.mpr ⟨rfl, hbefore⟩, hfailure⟩
      | error cause =>
          rw [failures_error] at h
          obtain ⟨rfl, rfl⟩ := Prod.mk.inj (List.cons.inj h).1
          exact ⟨[], cause, members, rfl, by simp, rfl⟩

theorem summary_sums (members : List (String × Answer)) : Sums members (summary members) := by
  have hnames := failures_names members
  have hnil : failures (members.map Member.ofAnswer) = [] ↔
      ∀ member ∈ members, member.2.isOk = true := failures_eq_nil_iff
  unfold summary batchResult
  cases hfailures : failures (members.map Member.ofAnswer) with
  | nil =>
      rw [hfailures] at hnil
      refine ⟨iff_of_true rfl (hnil.mp rfl), ?_, ?_⟩
      · rintro _ ⟨⟩
      · rintro _ ⟨⟩
  | cons failed rest =>
      obtain ⟨name, failure⟩ := failed
      rw [hfailures] at hnames hnil
      have hfailed : ¬∀ member ∈ members, member.2.isOk = true := fun hall => by
        simpa using hnil.mpr hall
      refine ⟨iff_of_false (by simp) hfailed, ?_, ?_⟩
      · rintro _ ⟨⟩
        exact hnames
      · rintro _ ⟨⟩
        obtain ⟨before, cause, behind, hmembers, hbefore, rfl⟩ :=
          exists_append_of_failures hfailures
        exact ⟨before, name, cause, behind, hmembers, hbefore, rfl, rfl⟩

/-- An open batch knows of each name either that its fetch has not ended or its answer. -/
def Batch.Keeps (batch : Batch) (members : List (String × Answer)) : Prop :=
  ∀ position : Nat,
    batch.members[position]? = members[position]?.map (fun asked => ⟨asked.1, .waiting⟩) ∨
      batch.members[position]? = members[position]?.map Member.ofAnswer

theorem Batch.Keeps.record {batch : Batch} {members : List (String × Answer)}
    (h : batch.Keeps members) {fetch : Fetch} {position : Nat}
    (hasked : members[position]? = some (fetch.name, fetch.answer)) :
    (batch.record position fetch.progress).Keeps members := by
  intro place
  simp only [Batch.record, setProgress, List.getElem?_modify]
  by_cases hplace : position = place
  · subst hplace
    -- both what was known before and what is known now differ in the progress alone
    have hanswer : Member.ofAnswer (fetch.name, fetch.answer) = ⟨fetch.name, fetch.progress⟩ := rfl
    rcases h position with hmember | hmember <;> simp [hmember, hasked, hanswer]
  · simpa [hplace] using h place

theorem Batch.Keeps.result {batch : Batch} {members : List (String × Answer)}
    (h : batch.Keeps members) (hclosed : ∀ position, ¬batch.AwaitsAt position) :
    batchResult batch.members = summary members := by
  rw [summary]
  congr 1
  apply List.ext_getElem?
  intro position
  rw [List.getElem?_map]
  rcases h position with hwaiting | hanswer
  · cases hasked : members[position]? with
    | none => rw [hwaiting, hasked, Option.map_none, Option.map_none]
    | some asked =>
        rw [hasked] at hwaiting
        exact absurd ⟨asked.1, hwaiting⟩ (hclosed position)
  · exact hanswer

/-- What is known of batches in a run, of open ones and of those that have delivered. -/
structure Informed (events : List Event) : Prop where
  opened : ∀ batch ∈ (after events).batches,
    ∃ members, IsRequest events batch.task (.invalidate members) ∧ batch.Keeps members
  closed : ∀ result ∈ delivered events, ∃ request, IsRequest events result.1 request ∧
    ∀ members, request = .invalidate members → result.2 = .batch (summary members)

private theorem result?_asked {events : List Event} {fetch : Fetch} {cache : Cache}
    {result : Nat × Outcome} (hasked : fetch.AskedBy events)
    (h : fetch.result? cache = some result) :
    ∃ request, IsRequest events result.1 request ∧ ∀ members, request ≠ .invalidate members := by
  obtain ⟨number, name, answer, owner⟩ := fetch
  cases owner with
  | background => cases h
  | member task position => cases h
  | _ =>
      obtain rfl := Option.some.inj h
      exact ⟨_, hasked, by simp⟩

private theorem delivers_asked {events : List Event} {event : Event} {result : Nat × Outcome}
    (h : result ∈ (after events).delivers event) :
    ∃ request, IsRequest (events ++ [event]) result.1 request ∧
      ∀ members, request = .invalidate members → result.2 = .batch (summary members) := by
  have hbalanced := after_balanced events
  have hnext : (after events).nextTask = (requests events).length + 1 := by
    rw [nextTask, hbalanced.counted]
  cases event with
  | get name answer =>
      obtain ⟨body, -, rfl⟩ := List.mem_map.mp h
      exact ⟨_, isRequest_last rfl hnext, by simp⟩
  | invalidate members =>
      cases members with
      | nil =>
          obtain rfl := List.mem_singleton.mp h
          refine ⟨_, isRequest_last rfl hnext, ?_⟩
          rintro members ⟨⟩
          rfl
      | cons member members => simp at h
  | create spec answer =>
      obtain rfl := List.mem_singleton.mp h
      exact ⟨_, isRequest_last rfl hnext, by simp⟩
  | complete number =>
      obtain ⟨fetch, hfind, hresult⟩ := Option.bind_eq_some_iff.mp (Option.mem_toList.mp h)
      obtain ⟨-, hfetch⟩ := ended?_eq_some hfind
      obtain ⟨request, hrequest, hother⟩ := result?_asked (hbalanced.asked fetch hfetch) hresult
      exact ⟨request, hrequest.concat _, fun members heq => absurd heq (hother members)⟩
  | _ => simp at h

theorem Informed.record {events : List Event} (h : Informed events) {fetch : Fetch} {task : Nat}
    {position : Nat} (hfetch : fetch ∈ (after events).inFlight)
    (howner : fetch.owner = .member task position) {batch : Batch}
    (hbatch : batch ∈ (after events).batches) (htask : batch.task = task) :
    ∃ members, IsRequest events task (.invalidate members) ∧
      (batch.record position fetch.progress).Keeps members := by
  obtain ⟨members, hrequest, hkeeps⟩ := h.opened batch hbatch
  have hasked := (after_balanced events).asked fetch hfetch
  rw [Fetch.AskedBy, howner] at hasked
  obtain ⟨listed, hlisted, hmember⟩ := hasked
  subst htask
  obtain rfl : members = listed := Event.invalidate.inj (hrequest.unique hlisted)
  exact ⟨members, hrequest, hkeeps.record hmember⟩

private theorem Informed.settle {events : List Event} (h : Informed events) {fetch : Fetch}
    (hfetch : fetch ∈ (after events).inFlight) :
    (∀ batch ∈ (fetch.settle (after events).batches).1,
        ∃ members, IsRequest events batch.task (.invalidate members) ∧ batch.Keeps members) ∧
      ∀ result ∈ results (fetch.settle (after events).batches).2,
        ∃ members, IsRequest events result.1 (.invalidate members) ∧
          result.2 = .batch (summary members) := by
  unfold Fetch.settle
  split
  case h_1 task position howner =>
    constructor
    · intro batch hbatch
      rcases mem_updateBatches hbatch with hbatch | ⟨before, hbefore, rfl, rfl⟩
      · exact h.opened batch hbatch
      · exact h.record hfetch howner hbefore rfl
    · intro result hresult
      obtain ⟨batch, hbatch, htask, hclosed, rfl⟩ := results_updateBatches hresult
      obtain ⟨members, hrequest, hkeeps⟩ := h.record hfetch howner hbatch htask
      exact ⟨members, hrequest, congrArg Outcome.batch (hkeeps.result hclosed)⟩
  case h_2 => exact ⟨h.opened, by simp⟩

theorem Informed.step {events : List Event} (h : Informed events) (event : Event) :
    Informed (events ++ [event]) := by
  have hsettles : (∀ batch ∈ ((after events).settles event).1,
        ∃ members, IsRequest events batch.task (.invalidate members) ∧ batch.Keeps members) ∧
      ∀ result ∈ results ((after events).settles event).2,
        ∃ members, IsRequest events result.1 (.invalidate members) ∧
          result.2 = .batch (summary members) := by
    cases hended : (after events).ended? event with
    | none =>
        rw [settles_of_none hended]
        exact ⟨h.opened, by simp⟩
    | some fetch =>
        rw [settles_of_some hended]
        exact h.settle (ended?_eq_some hended).2
  constructor
  · -- a batch that is open was open before or was opened now, when it knows no answer yet
    intro batch hbatch
    rw [after_concat, step_session] at hbatch
    rcases List.mem_append.mp hbatch with hsettled | hopened
    · obtain ⟨members, hrequest, hkeeps⟩ := hsettles.1 batch hsettled
      exact ⟨members, hrequest.concat event, hkeeps⟩
    · obtain ⟨members, rfl, rfl⟩ := mem_opens hopened
      refine ⟨members, isRequest_last rfl ?_, fun position => .inl ?_⟩
      · rw [nextTask, (after_balanced events).counted]
      · rw [List.getElem?_map]
  · -- a result was there before, is delivered at once or closes a batch
    intro result hresult
    rw [delivered_concat, step_results] at hresult
    rcases List.mem_append.mp hresult with hbefore | hstep
    · obtain ⟨request, hrequest, hsummary⟩ := h.closed result hbefore
      exact ⟨request, hrequest.concat event, hsummary⟩
    · rcases List.mem_append.mp hstep with hdelivers | hsettled
      · exact delivers_asked hdelivers
      · obtain ⟨members, hrequest, hsummary⟩ := hsettles.2 result hsettled
        refine ⟨_, hrequest.concat event, ?_⟩
        rintro _ ⟨⟩
        exact hsummary

theorem after_informed (events : List Event) : Informed events := by
  induction events using List.reverseRecOn with
  | nil => exact ⟨by simp [start], by simp⟩
  | append_singleton events event ih => exact ih.step event

def memberFetch (session : Session) (position : Nat) (asked : String × Answer) : Fetch :=
  ⟨session.fetches + 1 + position, asked.1, asked.2, .member session.nextTask position⟩

/-- The fetch for a position of a batch that was begun after some events has ended. -/
def MemberEnded (prior later : List Event) (position : Nat) : Prop :=
  .complete ((after prior).fetches + 1 + position) ∈ later

/-- How a batch goes, whatever happens later and in whatever order its fetches end. -/
structure Prefills (prior : List Event) (members : List (String × Answer)) : Prop where
  /-- Each position has a fetch of its own, also that of a name which is listed again. -/
  begun : (after (prior ++ [.invalidate members])).inFlight =
    (after prior).inFlight ++ members.mapIdx (after prior).memberFetch
  waits : ∀ later, (∃ position < members.length, ¬MemberEnded prior later position) →
    outcomes (after prior).nextTask (prior ++ .invalidate members :: later) = []
  result : ∀ later, (∀ position < members.length, MemberEnded prior later position) →
    outcomes (after prior).nextTask (prior ++ .invalidate members :: later) =
      [.batch (summary members)]
  sums : Sums members (summary members)
  /-- The end of a fetch that succeeded stored its body with a version of its own. -/
  stored : ∀ later position name body, members[position]? = some (name, .ok body) →
    MemberEnded prior later position →
      ∃ before behind,
        later = before ++ .complete ((after prior).fetches + 1 + position) :: behind ∧
          ¬MemberEnded prior before position ∧
          let session := after (prior ++ .invalidate members :: before)
          let next := (session.step (.complete ((after prior).fetches + 1 + position))).1
          next.cache = session.cache.store name body ∧
            next.cache.entry? name = some ⟨name, body, session.cache.lastVersion + 1⟩
  failed : ∀ before position name failure, members[position]? = some (name, .error failure) →
    ¬MemberEnded prior before position →
      let session := after (prior ++ .invalidate members :: before)
      let next := (session.step (.complete ((after prior).fetches + 1 + position))).1
      next.cache = session.cache

private theorem after_invalidate (prior : List Event) (members : List (String × Answer)) :
    (after (prior ++ [.invalidate members])).inFlight =
      (after prior).inFlight ++ members.mapIdx (after prior).memberFetch := by
  rw [after_concat, step_session]
  rfl

private theorem memberFetch_mem {prior : List Event} {members : List (String × Answer)}
    {position : Nat} {asked : String × Answer} (h : members[position]? = some asked) :
    (after prior).memberFetch position asked ∈
      (after (prior ++ [.invalidate members])).inFlight := by
  rw [after_invalidate]
  obtain ⟨hposition, rfl⟩ := List.getElem?_eq_some_iff.mp h
  exact List.mem_append_right _ (List.mem_mapIdx.mpr ⟨position, hposition, rfl⟩)

private theorem memberFetch_inFlight {prior later : List Event} {members : List (String × Answer)}
    {position : Nat} {asked : String × Answer} (h : members[position]? = some asked)
    (hlater : ¬MemberEnded prior later position) :
    (after prior).memberFetch position asked ∈
      (after (prior ++ .invalidate members :: later)).inFlight := by
  rw [List.append_cons]
  exact inFlight_of_not_complete (memberFetch_mem h) hlater

private theorem invalidate_owns_iff {prior later : List Event}
    {members : List (String × Answer)} :
    (∃ fetch ∈ (after (prior ++ .invalidate members :: later)).inFlight,
        fetch.owner.task? = some (after prior).nextTask) ↔
      ∃ position < members.length, ¬MemberEnded prior later position := by
  constructor
  · rintro ⟨fetch, hfetch, htask⟩
    have hbegins : fetch ∈ (after prior).begins (.invalidate members) :=
      mem_begins_of_inFlight rfl hfetch htask
    obtain ⟨position, hposition, rfl⟩ := List.mem_mapIdx.mp hbegins
    refine ⟨position, hposition, fun hended => ?_⟩
    rw [List.append_cons] at hfetch
    have hnumber : (after prior).fetches + 1 + position ≤
        (after (prior ++ [.invalidate members])).fetches := by
      rw [after_concat, step_session]
      simp only [begins, List.length_mapIdx]
      omega
    exact not_inFlight_of_complete hnumber hended _ hfetch rfl
  · rintro ⟨position, hposition, hlater⟩
    have hasked := List.getElem?_eq_getElem hposition
    exact ⟨_, memberFetch_inFlight hasked hlater, rfl⟩

private theorem invalidate_isRequest (prior later : List Event)
    (members : List (String × Answer)) :
    IsRequest (prior ++ .invalidate members :: later) (after prior).nextTask
      (.invalidate members) := by
  refine ⟨requests prior, requests later, ?_, ?_⟩
  · rw [requests_append]
    rfl
  · rw [nextTask, (after_balanced prior).counted]

private theorem member_write {prior before : List Event} {members : List (String × Answer)}
    {position : Nat} {asked : String × Answer} (h : members[position]? = some asked)
    (hbefore : ¬MemberEnded prior before position) :
    let session := after (prior ++ .invalidate members :: before)
    (session.step (.complete ((after prior).fetches + 1 + position))).1.cache =
      session.cache.written (asked.2.toOption.map (asked.1, ·)) := by
  intro session
  have hfind : session.ended? (.complete ((after prior).fetches + 1 + position)) =
      some ((after prior).memberFetch position asked) :=
    find?_inFlight (memberFetch_inFlight h hbefore)
  rw [step_session, write?, hfind]
  obtain ⟨name, answer⟩ := asked
  cases answer with
  | ok body => simp [Fetch.write?, memberFetch, Owner.overwrites, Except.toOption]
  | error failure => rfl

/-- A batch delivers when all its fetches have ended, and its result sums up their answers. -/
theorem batch_sums_up_answers (prior : List Event) (members : List (String × Answer)) :
    Prefills prior members where
  begun := after_invalidate prior members
  waits := fun later hwaiting =>
    (outcomes_eq_nil_iff (invalidate_isRequest prior later members)).mpr
      (invalidate_owns_iff.mpr hwaiting)
  result := fun later hended => by
    have hrequest := invalidate_isRequest prior later members
    have hdone : outcomes (after prior).nextTask (prior ++ .invalidate members :: later) ≠ [] := by
      rw [Ne, outcomes_eq_nil_iff hrequest, invalidate_owns_iff]
      rintro ⟨position, hposition, hnot⟩
      exact hnot (hended position hposition)
    obtain ⟨outcome, houtcome⟩ := List.exists_mem_of_ne_nil _ hdone
    have hdelivered := mem_outcomes_iff.mp houtcome
    obtain ⟨request, hasked, hsummary⟩ := (after_informed _).closed _ hdelivered
    have hbatch : outcome = .batch (summary members) := hsummary _ (hasked.unique hrequest)
    rw [outcomes_of_mem hdelivered, hbatch]
  sums := summary_sums members
  stored := fun later position name body hmember hended => by
    obtain ⟨before, behind, rfl, hbefore⟩ := List.eq_append_cons_of_mem hended
    refine ⟨before, behind, rfl, hbefore, ?_⟩
    intro session next
    have hcache : next.cache = session.cache.store name body := member_write hmember hbefore
    exact ⟨hcache, by rw [hcache, Cache.entry?_store_self]; rfl⟩
  failed := fun before position name failure hmember hbefore => member_write hmember hbefore

/-- The failure of a name that is listed later but ends first is not the one reported. -/
example :
    outcomes 1 [.invalidate [("a", .error (.message "down")), ("b", .ok (.text "hello")),
        ("a", .error (.message "gone"))], .complete 3, .complete 2, .complete 1] =
      [.batch (.error ⟨["a", "a"], .context "Failed to fetch prompt: a" (.message "down")⟩)] :=
  rfl

end PromptRegistry.Session
