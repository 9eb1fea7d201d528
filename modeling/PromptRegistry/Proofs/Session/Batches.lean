import PromptRegistry.Proofs.Session.Step

namespace PromptRegistry.Session

/-- A batch waits for the fetch of its name at a position. -/
def Batch.AwaitsAt (batch : Batch) (position : Nat) : Prop :=
  ∃ name, batch.members[position]? = some ⟨name, .waiting⟩

/-- The open batch of a task waits at a position. -/
def Awaited (batches : List Batch) (task position : Nat) : Prop :=
  ∃ batch ∈ batches, batch.task = task ∧ batch.AwaitsAt position

def Progress.IsEnd (progress : Progress) : Prop := progress ≠ .waiting

theorem Fetch.progress_isEnd (fetch : Fetch) : fetch.progress.IsEnd := by
  unfold Fetch.progress
  split <;> simp [Progress.IsEnd]

@[simp] theorem awaited_nil (task position : Nat) : ¬Awaited [] task position := by
  simp [Awaited]

@[simp] theorem awaited_cons (batch : Batch) (batches : List Batch) (task position : Nat) :
    Awaited (batch :: batches) task position ↔
      (batch.task = task ∧ batch.AwaitsAt position) ∨ Awaited batches task position := by
  simp [Awaited]

theorem awaited_append (first second : List Batch) (task position : Nat) :
    Awaited (first ++ second) task position ↔
      Awaited first task position ∨ Awaited second task position := by
  simp [Awaited, or_and_right, exists_or]

theorem Awaited.mem_tasks {batches : List Batch} {task position : Nat}
    (h : Awaited batches task position) : task ∈ batches.map Batch.task := by
  obtain ⟨batch, hmem, rfl, -⟩ := h
  exact List.mem_map_of_mem hmem

def Batch.record (batch : Batch) (position : Nat) (progress : Progress) : Batch :=
  { batch with members := setProgress progress position batch.members }

private theorem awaitsAt_record {batch : Batch} {progress : Progress} {position other : Nat}
    (h : progress.IsEnd) :
    (batch.record position progress).AwaitsAt other ↔ batch.AwaitsAt other ∧ other ≠ position := by
  simp only [Batch.AwaitsAt, Batch.record, setProgress, List.getElem?_modify]
  by_cases hposition : other = position
  · subst hposition
    have hended : progress ≠ .waiting := h
    simp [hended]
  · simp [hposition, Ne.symm hposition]

private theorem finishBatch_eq_none_iff {batch : Batch} :
    finishBatch batch = none ↔ ∃ position, batch.AwaitsAt position := by
  have hdone (member : Member) : member.isDone = false ↔ ∃ name, member = ⟨name, .waiting⟩ := by
    obtain ⟨name, progress⟩ := member
    cases progress <;> simp [Member.isDone]
  simp only [finishBatch, ite_eq_right_iff, reduceCtorEq, imp_false, Bool.not_eq_true,
    List.all_eq_false, Batch.AwaitsAt]
  constructor
  · rintro ⟨member, hmem, hwaiting⟩
    obtain ⟨name, rfl⟩ := (hdone member).mp (by simpa using hwaiting)
    obtain ⟨position, hposition⟩ := List.mem_iff_getElem?.mp hmem
    exact ⟨position, name, hposition⟩
  · rintro ⟨position, name, hposition⟩
    exact ⟨_, List.mem_of_getElem? hposition, by simp [Member.isDone]⟩

private theorem finishBatch_results {batch : Batch} {effects : List Effect}
    (h : finishBatch batch = some effects) :
    results effects = [(batch.task, .batch (batchResult batch.members))] := by
  unfold finishBatch at h
  split at h
  case isTrue =>
    obtain rfl := Option.some.inj h
    have hnotices (failed : List (String × Failure)) :
        results (failed.map fun failed => .notice (.prefillFailed failed.1)) = [] := by
      simp [results]
    rw [results_append, hnotices]
    rfl
  case isFalse => simp at h

private theorem updateBatches_self (batch : Batch) (batches : List Batch) (position : Nat)
    (progress : Progress) :
    updateBatches batch.task position progress (batch :: batches) =
      match finishBatch (batch.record position progress) with
      | some effects => (batches, effects)
      | none => (batch.record position progress :: batches, []) := by
  simp only [updateBatches, if_true]
  rfl

private theorem updateBatches_of_ne {task : Nat} {batch : Batch} (h : batch.task ≠ task)
    (batches : List Batch) (position : Nat) (progress : Progress) :
    updateBatches task position progress (batch :: batches) =
      (batch :: (updateBatches task position progress batches).1,
        (updateBatches task position progress batches).2) := by
  rw [updateBatches, if_neg h]

theorem updateBatches_tasks (task position : Nat) (progress : Progress) (batches : List Batch) :
    ((results (updateBatches task position progress batches).2).map Prod.fst ++
        (updateBatches task position progress batches).1.map Batch.task).Perm
      (batches.map Batch.task) := by
  induction batches with
  | nil => exact .refl _
  | cons batch batches ih =>
      by_cases htask : batch.task = task
      · subst htask
        rw [updateBatches_self]
        cases hfinish : finishBatch (batch.record position progress) with
        | none => exact .refl _
        | some effects =>
            rw [finishBatch_results hfinish]
            exact .refl _
      · rw [updateBatches_of_ne htask]
        exact List.perm_middle.trans (ih.cons batch.task)

theorem mem_updateBatches {task position : Nat} {progress : Progress} {batches : List Batch}
    {batch : Batch} (h : batch ∈ (updateBatches task position progress batches).1) :
    batch ∈ batches ∨
      ∃ prior ∈ batches, prior.task = task ∧ batch = prior.record position progress := by
  induction batches with
  | nil => simp [updateBatches] at h
  | cons first batches ih =>
      by_cases htask : first.task = task
      · subst htask
        rw [updateBatches_self] at h
        cases hfinish : finishBatch (first.record position progress) with
        | none =>
            rw [hfinish] at h
            rcases List.mem_cons.mp h with rfl | h
            · exact .inr ⟨first, List.mem_cons_self, rfl, rfl⟩
            · exact .inl (List.mem_cons_of_mem _ h)
        | some effects =>
            rw [hfinish] at h
            exact .inl (List.mem_cons_of_mem _ h)
      · rw [updateBatches_of_ne htask] at h
        rcases List.mem_cons.mp h with rfl | h
        · exact .inl List.mem_cons_self
        · rcases ih h with hmem | ⟨prior, hmem, hprior⟩
          · exact .inl (List.mem_cons_of_mem _ hmem)
          · exact .inr ⟨prior, List.mem_cons_of_mem _ hmem, hprior⟩

theorem results_updateBatches {task position : Nat} {progress : Progress} {batches : List Batch}
    {result : Nat × Outcome}
    (h : result ∈ results (updateBatches task position progress batches).2) :
    ∃ batch ∈ batches, batch.task = task ∧
      (∀ place, ¬(batch.record position progress).AwaitsAt place) ∧
      result = (task, .batch (batchResult (batch.record position progress).members)) := by
  induction batches with
  | nil => simp [updateBatches] at h
  | cons batch batches ih =>
      by_cases htask : batch.task = task
      · subst htask
        rw [updateBatches_self] at h
        cases hfinish : finishBatch (batch.record position progress) with
        | none => simp [hfinish] at h
        | some effects =>
            have hclosed : ∀ place, ¬(batch.record position progress).AwaitsAt place :=
              fun place hplace => by
                rw [finishBatch_eq_none_iff.mpr ⟨place, hplace⟩] at hfinish
                cases hfinish
            rw [hfinish, finishBatch_results hfinish, List.mem_singleton] at h
            exact ⟨batch, List.mem_cons_self, rfl, hclosed, h⟩
      · rw [updateBatches_of_ne htask] at h
        obtain ⟨prior, hmem, hprior⟩ := ih h
        exact ⟨prior, List.mem_cons_of_mem _ hmem, hprior⟩

/-- The end of a fetch takes away its own position and no other. -/
theorem awaited_updateBatches {task position : Nat} {progress : Progress} {batches : List Batch}
    (hend : progress.IsEnd) (htasks : (batches.map Batch.task).Nodup) (other place : Nat) :
    Awaited (updateBatches task position progress batches).1 other place ↔
      Awaited batches other place ∧ ¬(other = task ∧ place = position) := by
  induction batches with
  | nil => simp [updateBatches]
  | cons batch batches ih =>
      obtain ⟨hfresh, hrest⟩ := List.nodup_cons.mp htasks
      by_cases htask : batch.task = task
      · subst htask
        have hother : Awaited batches other place → other ≠ batch.task := fun h heq =>
          hfresh (heq ▸ h.mem_tasks)
        have hrecord : (batch.record position progress).AwaitsAt place ↔
            batch.AwaitsAt place ∧ place ≠ position := awaitsAt_record hend
        rw [updateBatches_self, awaited_cons]
        cases hfinish : finishBatch (batch.record position progress) with
        | none =>
            rw [awaited_cons, hrecord]
            grind [Batch.record]
        | some effects =>
            have hclosed : ¬(batch.record position progress).AwaitsAt place := fun h => by
              rw [finishBatch_eq_none_iff.mpr ⟨place, h⟩] at hfinish
              cases hfinish
            rw [hrecord] at hclosed
            grind
      · rw [updateBatches_of_ne htask, awaited_cons, awaited_cons, ih hrest]
        grind

theorem updateBatches_open {task position : Nat} {progress : Progress} {batches : List Batch}
    (h : ∀ batch ∈ batches, ∃ position, batch.AwaitsAt position) :
    ∀ batch ∈ (updateBatches task position progress batches).1,
      ∃ position, batch.AwaitsAt position := by
  induction batches with
  | nil => simp [updateBatches]
  | cons batch batches ih =>
      obtain ⟨hbatch, hrest⟩ := List.forall_mem_cons.mp h
      by_cases htask : batch.task = task
      · subst htask
        rw [updateBatches_self]
        cases hfinish : finishBatch (batch.record position progress) with
        | none => exact List.forall_mem_cons.mpr ⟨finishBatch_eq_none_iff.mp hfinish, hrest⟩
        | some effects => exact hrest
      · rw [updateBatches_of_ne htask]
        exact List.forall_mem_cons.mpr ⟨hbatch, ih hrest⟩

/-- Two changes of the open batches leave and deliver the same, whichever is made first. -/
def Interchangeable (first second : List Batch → List Batch × List Effect) (batches : List Batch) :
    Prop :=
  (second (first batches).1).1 = (first (second batches).1).1 ∧
    (results (first batches).2 ++ results (second (first batches).1).2).Perm
      (results (second batches).2 ++ results (first (second batches).1).2)

theorem Interchangeable.symm {first second : List Batch → List Batch × List Effect}
    {batches : List Batch} (h : Interchangeable first second batches) :
    Interchangeable second first batches :=
  ⟨h.1.symm, h.2.symm⟩

theorem interchangeable_of_unchanged {first second : List Batch → List Batch × List Effect}
    (h : ∀ batches, first batches = (batches, [])) (batches : List Batch) :
    Interchangeable first second batches := by
  simp [Interchangeable, h]

private theorem record_comm (batch : Batch) {position place : Nat} (h : position ≠ place)
    (progress other : Progress) :
    (batch.record position progress).record place other =
      (batch.record place other).record position progress := by
  simp only [Batch.record, setProgress, Batch.mk.injEq, true_and]
  apply List.ext_getElem?
  intro index
  simp only [List.getElem?_modify]
  by_cases hposition : position = index
  · subst hposition
    simp [Ne.symm h]
  · simp [hposition]

private theorem updateBatches_comm_head {batch : Batch} {other : Nat} (h : batch.task ≠ other)
    (position place : Nat) (progress progress' : Progress) (batches : List Batch) :
    Interchangeable (updateBatches batch.task position progress)
      (updateBatches other place progress') (batch :: batches) := by
  have hrecord : (batch.record position progress).task ≠ other := h
  rw [Interchangeable, updateBatches_of_ne h, updateBatches_self, updateBatches_self]
  cases hfinish : finishBatch (batch.record position progress) with
  | none => simp [updateBatches_of_ne hrecord]
  | some effects => exact ⟨rfl, List.perm_append_comm⟩

theorem updateBatches_comm {task position other place : Nat} {progress progress' : Progress}
    {batches : List Batch} (hend : progress.IsEnd) (hend' : progress'.IsEnd)
    (htasks : (batches.map Batch.task).Nodup) (hawaited : Awaited batches task position)
    (hawaited' : Awaited batches other place) (hne : ¬(task = other ∧ position = place)) :
    Interchangeable (updateBatches task position progress)
      (updateBatches other place progress') batches := by
  induction batches with
  | nil => simp at hawaited
  | cons batch batches ih =>
      obtain ⟨hfresh, hrest⟩ := List.nodup_cons.mp htasks
      by_cases htask : batch.task = task
      · subst htask
        by_cases hother : batch.task = other
        · subst hother
          have hplace : position ≠ place := fun heq => hne ⟨rfl, heq⟩
          have hself {index : Nat} (h : Awaited (batch :: batches) batch.task index) :
              batch.AwaitsAt index := by
            rcases (awaited_cons _ _ _ _).mp h with ⟨-, hindex⟩ | hlater
            · exact hindex
            · exact absurd hlater.mem_tasks hfresh
          -- neither of the two closes the batch alone, as it still waits for the other
          have hopen : finishBatch (batch.record position progress) = none :=
            finishBatch_eq_none_iff.mpr
              ⟨place, (awaitsAt_record hend).mpr ⟨hself hawaited', Ne.symm hplace⟩⟩
          have hopen' : finishBatch (batch.record place progress') = none :=
            finishBatch_eq_none_iff.mpr
              ⟨position, (awaitsAt_record hend').mpr ⟨hself hawaited, hplace⟩⟩
          have hfirst (batches : List Batch) :
              updateBatches batch.task place progress' (batch.record position progress :: batches) =
                updateBatches batch.task position progress
                  (batch.record place progress' :: batches) := by
            have hrecords := record_comm batch hplace progress progress'
            have hself :=
              updateBatches_self (batch.record position progress) batches place progress'
            have hself' :=
              updateBatches_self (batch.record place progress') batches position progress
            rw [hrecords] at hself
            exact hself.trans hself'.symm
          rw [Interchangeable, updateBatches_self, updateBatches_self, hopen, hopen']
          simp [hfirst]
        · exact updateBatches_comm_head hother position place progress progress' batches
      · by_cases hother : batch.task = other
        · subst hother
          exact (updateBatches_comm_head htask place position progress' progress batches).symm
        · have hlater : Awaited batches task position :=
            ((awaited_cons _ _ _ _).mp hawaited).resolve_left fun h => htask h.1
          have hlater' : Awaited batches other place :=
            ((awaited_cons _ _ _ _).mp hawaited').resolve_left fun h => hother h.1
          obtain ⟨hbatches, hresults⟩ := ih hrest hlater hlater'
          rw [Interchangeable]
          simp only [updateBatches_of_ne htask, updateBatches_of_ne hother, hbatches]
          exact ⟨trivial, hresults⟩

end PromptRegistry.Session
