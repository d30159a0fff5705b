import BatchGateway.JsonText
import BatchGateway.Lifecycle

-- The timestamps of the rows, in runs whose clock never goes back.
namespace BatchGateway.Timeline
open PythonText PythonJson BatchInput BatchOps Service LabelledRuns Counters RowMoves Lifecycle

variable {codec : Codec} {alpha : ℚ} {s t : Service} {op : Operation} {i : Nat} {row later : Task} {b next : Batch}

-- The clock reading of an operation.
def clockOf : Operation → Option Instant
  | .uploadFile _ _ _ now | .createBatch _ _ _ _ _ now | .claimAndAssign _ now | .completeTask _ _ _ _ now
  | .failTask _ _ now | .cancelBatch _ _ now | .expireBatch _ now | .purgeExpiredResults _ now => some now
  | .grant _ _ _ | .applyHealthResults _ _ | .startup _ => none

def Task.stamps (t : Task) : List Instant := t.startedAt.toList ++ t.finishedAt.toList

def Batch.stamps (b : Batch) : List Instant :=
  b.createdAt :: (b.completedAt.toList ++ b.cancelledAt.toList ++ b.expiredAt.toList ++ b.purgedAt.toList)

-- No row is stamped later than this.
structure Past (now : Instant) (s : Service) : Prop where
  tasks : ∀ t ∈ s.db.tasks, ∀ x ∈ Task.stamps t, x ≤ now
  batches : ∀ b ∈ s.db.batches, ∀ x ∈ Batch.stamps b, x ≤ now

structure Ordered (s : Service) : Prop where
  ended : ∀ b ∈ s.db.batches, ∀ x, Retention.terminalTimestamp b = some (some x) →
    b.createdAt ≤ x ∧ ∀ y, b.purgedAt = some y → x ≤ y
  within : ∀ t ∈ s.db.tasks, ∀ b, s.db.batches[t.batchId]? = some b → ∀ x ∈ Task.stamps t, b.createdAt ≤ x
  finished : ∀ t ∈ s.db.tasks, ∀ x y, t.startedAt = some x → t.finishedAt = some y → x ≤ y
  settled : ∀ t ∈ s.db.tasks, ∀ b, s.db.batches[t.batchId]? = some b → b.status = .completed →
    ∀ x ∈ Task.stamps t, ∀ y, b.completedAt = some y → x ≤ y

theorem task_stamps (moved : TaskMove s op i row later) : ∀ x ∈ Task.stamps later, x ∈ Task.stamps row ∨ clockOf op = some x := by
  have kept : ∀ {start finish : Option Instant} {now x : Instant}, clockOf op = some now →
      x ∈ start.toList ++ (some now).toList → x ∈ start.toList ++ finish.toList ∨ clockOf op = some x := by
    intro start finish now x clock member
    rcases List.mem_append.mp member with old | new
    · exact .inl (List.mem_append_left _ old)
    · cases List.mem_singleton.mp new
      exact .inr clock
  intro x member
  cases moved with
  | kept => exact .inl member
  | claimed named =>
    subst named
    rcases List.mem_append.mp member with new | old
    · cases List.mem_singleton.mp new
      exact .inr rfl
    · exact .inl (List.mem_append_right _ old)
  | completed named =>
    subst named
    exact kept rfl member
  | failed named =>
    subst named
    exact kept rfl member
  | stopped named =>
    rcases named with rfl | rfl
    · exact kept rfl member
    · exact kept rfl member
  | recovered _ running =>
    rw [Dispatcher.Task.recover,if_pos running] at member
    exact .inl (List.mem_append_right _ member)

theorem settles_clock {task : TaskId} {now : Instant} {count : Batch → Batch} (settles : Settles op task now count) :
    clockOf op = some now := by
  cases settles with
  | complete => rfl
  | fail => rfl

theorem batch_stamps (moved : BatchMove s op i b next) :
    ∀ x ∈ Batch.stamps next, x ∈ Batch.stamps b ∨ clockOf op = some x := by
  intro x member
  cases moved with
  | kept => exact .inl member
  | counted settles =>
    obtain ⟨m,n,same⟩ := count_columns settles b
    rw [same] at member
    exact .inl member
  | finished settles _ _ _ =>
    obtain ⟨m,n,same⟩ := count_columns settles b
    rw [same] at member
    rw [settles_clock settles]
    simp only [Batch.stamps,Batch.finish,Option.toList_some,List.mem_cons,List.mem_append,List.mem_nil_iff,
      Option.some.injEq] at member ⊢
    tauto
  | stopped named =>
    rcases named with ⟨rfl,rfl⟩ | ⟨rfl,rfl⟩
    · simp only [Batch.stamps,Batch.terminate,Option.toList_some,List.mem_cons,List.mem_append,List.mem_nil_iff,
        clockOf,Option.some.injEq] at member ⊢
      tauto
    · simp only [Batch.stamps,Batch.terminate,Option.toList_some,List.mem_cons,List.mem_append,List.mem_nil_iff,
        clockOf,Option.some.injEq] at member ⊢
      tauto
  | purged named =>
    subst named
    simp only [Batch.stamps,Retention.Batch.purge,Option.toList_some,List.mem_cons,List.mem_append,List.mem_nil_iff,
      clockOf,Option.some.injEq] at member ⊢
    tauto

theorem created_stamps (created : row ∈ Records.createdTasks s op) : Task.stamps row = [] := by
  cases op with
  | createBatch =>
    obtain ⟨p,_,rfl⟩ := List.mem_map.mp created
    rfl
  | _ => cases created

theorem submitted_stamps (created : b ∈ Records.createdBatches op) : ∀ x ∈ Batch.stamps b, clockOf op = some x := by
  intro x member
  cases op with
  | createBatch =>
    cases List.mem_singleton.mp created
    cases List.mem_singleton.mp member
    rfl
  | _ => cases created

theorem terminal_stamp {b : Batch} {x : Instant} (coherent : BatchCoherent b)
    (ended : Retention.terminalTimestamp b = some (some x)) : x ∈ Batch.stamps b := by
  unfold Retention.terminalTimestamp at ended
  split at ended
  · simp [Batch.stamps,Option.some.inj ended]
  · rw [coherent.failed] at ended
    cases ended
  · simp [Batch.stamps,Option.some.inj ended]
  · simp [Batch.stamps,Option.some.inj ended]
  · cases ended

theorem bounded (xs : List Instant) : ∃ now, ∀ x ∈ xs, x ≤ now := by
  induction xs with
  | nil => exact ⟨0,nofun⟩
  | cons x xs ih =>
    obtain ⟨now,bound⟩ := ih
    refine ⟨max x now,fun y member => ?_⟩
    rcases List.mem_cons.mp member with rfl | old
    · exact le_max_left _ _
    · exact (bound y old).trans (le_max_right _ _)

section Clock
variable {now : Instant}

theorem past_step (valid : Past now s) (step : Step codec alpha s op t) (clock : ∀ x, clockOf op = some x → now ≤ x) :
    Past ((clockOf op).getD now) t := by
  have bound : ∀ x, (x ≤ now ∨ clockOf op = some x) → x ≤ (clockOf op).getD now := by
    rintro x (old | new)
    · cases read : clockOf op with
      | none => exact old
      | some y => exact old.trans (clock y read)
    · rw [new]
      exact le_rfl
  refine ⟨fun later member x stamp => bound x ?_,fun next member x stamp => bound x ?_⟩
  · obtain ⟨i,there⟩ := List.mem_iff_getElem?.mp member
    rcases task_origin step there with ⟨row,found,moved⟩ | ⟨_,created⟩
    · exact (task_stamps moved x stamp).imp (valid.tasks row (List.mem_of_getElem? found) x) id
    · rw [created_stamps created] at stamp
      cases stamp
  · obtain ⟨i,there⟩ := List.mem_iff_getElem?.mp member
    rcases batch_origin step there with ⟨b,found,moved⟩ | ⟨_,created⟩
    · exact (batch_stamps moved x stamp).imp (valid.batches b (List.mem_of_getElem? found) x) id
    · exact .inr (submitted_stamps created x stamp)

-- The terminal timestamp of a later row is an old one, or the clock reading.
theorem ended_kept (coherent : BatchCoherent b) (past : ∀ x ∈ Batch.stamps b, x ≤ now)
    (clock : ∀ x, clockOf op = some x → now ≤ x)
    (valid : ∀ x, Retention.terminalTimestamp b = some (some x) → b.createdAt ≤ x ∧ ∀ y, b.purgedAt = some y → x ≤ y)
    (moved : BatchMove s op i b next) :
    ∀ x, Retention.terminalTimestamp next = some (some x) → next.createdAt ≤ x ∧ ∀ y, next.purgedAt = some y → x ≤ y := by
  have created : b.createdAt ≤ now := past _ (List.mem_cons_self ..)
  have unpurged : b.status = .inProgress → b.purgedAt = none := by
    intro open_
    cases purged : b.purgedAt with
    | none => rfl
    | some p => exact absurd open_ (coherent.purged (by rw [purged]; rfl))
  intro x ended
  cases moved with
  | kept => exact valid x ended
  | counted settles =>
    obtain ⟨m,n,same⟩ := count_columns settles b
    rw [same] at ended ⊢
    exact valid x ended
  | finished settles _ _ due =>
    obtain ⟨m,n,same⟩ := count_columns settles b
    rw [same] at ended due ⊢
    cases ended
    refine ⟨created.trans (clock _ (settles_clock settles)),fun y purged => ?_⟩
    have none_ := unpurged (eq_of_beq (Bool.and_eq_true_iff.mp due).1)
    change b.purgedAt = some y at purged
    rw [none_] at purged
    cases purged
  | stopped named allowed =>
    have none_ := unpurged (open_only coherent allowed)
    rcases named with ⟨rfl,rfl⟩ | ⟨rfl,rfl⟩
    · cases ended
      refine ⟨created.trans (clock _ rfl),fun y purged => ?_⟩
      change b.purgedAt = some y at purged
      rw [none_] at purged
      cases purged
    · cases ended
      refine ⟨created.trans (clock _ rfl),fun y purged => ?_⟩
      change b.purgedAt = some y at purged
      rw [none_] at purged
      cases purged
  | purged named =>
    subst named
    refine ⟨(valid x ended).1,fun y purged => ?_⟩
    cases purged
    exact (past x (terminal_stamp coherent ended)).trans (clock _ rfl)

theorem finished_kept (coherent : TaskCoherent row) (past : ∀ x ∈ Task.stamps row, x ≤ now)
    (clock : ∀ x, clockOf op = some x → now ≤ x) (valid : ∀ x y, row.startedAt = some x → row.finishedAt = some y → x ≤ y)
    (moved : TaskMove s op i row later) : ∀ x y, later.startedAt = some x → later.finishedAt = some y → x ≤ y := by
  have late : ∀ {x y}, clockOf op = some y → row.startedAt = some x → x ≤ y := by
    intro x y read started
    refine (past x ?_).trans (clock y read)
    rw [Task.stamps,started]
    exact List.mem_cons_self ..
  intro x y started finished
  cases moved with
  | kept => exact valid x y started finished
  | claimed _ _ _ waiting =>
    have open_ := coherent.finished
    rw [Task.live,waiting,show row.finishedAt = some y from finished] at open_
    cases open_
  | completed named =>
    subst named
    cases finished
    exact late rfl started
  | failed named =>
    subst named
    cases finished
    exact late rfl started
  | stopped named =>
    cases finished
    rcases named with rfl | rfl
    · exact late rfl started
    · exact late rfl started
  | recovered _ running =>
    rw [Dispatcher.Task.recover,if_pos running] at started
    cases started

theorem created_at (moved : BatchMove s op i b next) : next.createdAt = b.createdAt := by
  cases moved with
  | kept => rfl
  | counted settles =>
    obtain ⟨m,n,same⟩ := count_columns settles b
    rw [same]
  | finished settles =>
    obtain ⟨m,n,same⟩ := count_columns settles b
    rw [same]
    rfl
  | stopped named =>
    rcases named with ⟨_,rfl⟩ | ⟨_,rfl⟩
    · rfl
    · rfl
  | purged => rfl

theorem settled_kept (sound : Sound s) (past : Past now s) (clock : ∀ x, clockOf op = some x → now ≤ x)
    (valid : Ordered s) (step : Step codec alpha s op t) (found : s.db.tasks[i]? = some row)
    (there : t.db.tasks[i]? = some later) (was : s.db.batches[row.batchId]? = some b) (moved : TaskMove s op i row later)
    (change : BatchMove s op row.batchId b next) (done : next.status = .completed) :
    ∀ x ∈ Task.stamps later, ∀ y, next.completedAt = some y → x ≤ y := by
  have member := List.mem_of_getElem? found
  -- The tasks of a batch that was completed before are frozen.
  have frozen : b.status = .completed → ∀ x ∈ Task.stamps later, ∀ y, b.completedAt = some y → x ≤ y := by
    intro closed
    have ended := sound.coherent.whole row member b was closed
    cases there.symm.trans (ResultFiles.settled_frozen sound.progress step found ended)
    exact valid.settled row member b was closed
  cases change with
  | kept => exact frozen done
  | counted settles =>
    obtain ⟨m,n,same⟩ := count_columns settles b
    rw [same] at done ⊢
    exact frozen done
  | finished settles =>
    intro x stamp y completed
    cases completed
    rcases task_stamps moved x stamp with old | new
    · exact (past.tasks row member x old).trans (clock _ (settles_clock settles))
    · rw [settles_clock settles] at new
      cases new
      exact le_rfl
  | stopped named =>
    rcases named with ⟨_,rfl⟩ | ⟨_,rfl⟩
    · cases done
    · cases done
  | purged => exact frozen done

theorem ordered_step (sound : Sound s) (past : Past now s) (valid : Ordered s) (step : Step codec alpha s op t)
    (clock : ∀ x, clockOf op = some x → now ≤ x) : Ordered t := by
  have coherent := sound.coherent
  refine ⟨fun next member => ?_,fun later member next owned x stamp => ?_,fun later member => ?_,
    fun later member next owned done => ?_⟩
  · obtain ⟨i,there⟩ := List.mem_iff_getElem?.mp member
    rcases batch_origin step there with ⟨b,found,moved⟩ | ⟨_,created⟩
    · have listed := List.mem_of_getElem? found
      exact ended_kept (coherent.batches b listed) (past.batches b listed) clock (valid.ended b listed) moved
    · intro x ended
      rw [Retention.terminalTimestamp,submitted_open created] at ended
      cases ended
  · obtain ⟨i,there⟩ := List.mem_iff_getElem?.mp member
    rcases row_batch sound.linked step there owned with ⟨row,b,found,moved,_,was,change⟩ | ⟨created,_⟩
    · rw [created_at change]
      rcases task_stamps moved x stamp with old | new
      · exact valid.within row (List.mem_of_getElem? found) b was x old
      · have before := past.batches b (List.mem_of_getElem? was) _ (List.mem_cons_self ..)
        exact before.trans (clock x new)
    · rw [created_stamps created] at stamp
      cases stamp
  · obtain ⟨i,there⟩ := List.mem_iff_getElem?.mp member
    rcases task_origin step there with ⟨row,found,moved⟩ | ⟨_,created⟩
    · have listed := List.mem_of_getElem? found
      exact finished_kept (coherent.tasks row listed) (past.tasks row listed) clock (valid.finished row listed) moved
    · intro x y started
      have none_ := created_stamps created
      rw [Task.stamps,started] at none_
      cases none_
  · obtain ⟨i,there⟩ := List.mem_iff_getElem?.mp member
    rcases row_batch sound.linked step there owned with ⟨row,b,found,moved,_,was,change⟩ | ⟨created,_⟩
    · exact settled_kept sound past clock valid step found there was moved change done
    · intro x stamp
      rw [created_stamps created] at stamp
      cases stamp

end Clock

theorem initial_ordered : Ordered {} := by
  refine ⟨?_,?_,?_,?_⟩
  · intro b member
    cases member
  · intro t member
    cases member
  · intro t member
    cases member
  · intro t member
    cases member

def times (operations : List Operation) : List Instant := operations.filterMap clockOf

-- Induction on the run: no row is stamped later than the last clock reading.
theorem run_ordered {operations : List Operation} (path : Run (Step codec alpha) {} operations s)
    (ordered : (times operations).Pairwise (· ≤ ·)) :
    Ordered s ∧ ∀ now, (∀ x ∈ times operations, x ≤ now) → Past now s := by
  induction path with
  | nil =>
    refine ⟨initial_ordered,fun now _ => ⟨?_,?_⟩⟩
    · intro t member
      cases member
    · intro b member
      cases member
  | @step labels m op t before last ih =>
    rw [times,List.filterMap_append] at ordered
    obtain ⟨earlier,_,apart⟩ := List.pairwise_append.mp ordered
    obtain ⟨timeline,past⟩ := ih earlier
    have sound := run_sound before
    cases read : clockOf op with
    | none =>
      have clock : ∀ now x, clockOf op = some x → now ≤ x := by simp [read]
      have same : times (labels ++ [op]) = times labels := by simp [times,read]
      refine ⟨?_,fun now bound => ?_⟩
      · -- Any reading bounds the stamps of the finitely many rows.
        obtain ⟨now,bound⟩ : ∃ now : Instant, ∀ x ∈ times labels, x ≤ now := bounded (times labels)
        exact ordered_step sound (past now bound) timeline last (clock now)
      · rw [same] at bound
        have kept := past_step (past now bound) last (clock now)
        rwa [read] at kept
    | some y =>
      have now_last : ∀ x ∈ times labels, x ≤ y := fun x member => apart x member y (by simp [read])
      have clock : ∀ x, clockOf op = some x → y ≤ x := by
        intro x same
        rw [read] at same
        cases same
        exact le_rfl
      refine ⟨ordered_step sound (past y now_last) timeline last clock,fun now bound => ?_⟩
      have kept := past_step (past y now_last) last clock
      rw [read] at kept
      have until_now : y ≤ now := bound y (by simp [times,read])
      exact ⟨fun t member x stamp => (kept.tasks t member x stamp).trans until_now,
        fun b member x stamp => (kept.batches b member x stamp).trans until_now⟩

theorem rows_coherent {operations : List Operation} (path : Run (Step codec alpha) {} operations s) :
    Coherent s ∧ (∀ i b, s.db.batches[i]? = some b → Counted s.db i b) ∧
      ((times operations).Pairwise (· ≤ ·) → Ordered s) := by
  have sound := run_sound path
  exact ⟨sound.coherent,sound.progress.counted,fun ordered => (run_ordered path ordered).1⟩

-- One request, completed at 7 and purged at 9.
def oneRequest : List Operation :=
  [nodeWith 1,.grant 1 1000 none,submitShort 1 1 0,.claimAndAssign (fun _ => 0) 5,.completeTask 0 .null 3 2 7,
    .purgeExpiredResults 0 9]

theorem rows_coherent_purged : ∃ s : Service, (∃ b, s.db.batches[0]? = some b ∧ b.createdAt = 0 ∧
    b.completedAt = some 7 ∧ b.purgedAt = some 9 ∧ b.requestCompleted = 1 ∧ Counted s.db 0 b) ∧ Coherent s ∧ Ordered s := by
  have ran : (replay (advance JsonText.codec (3/10)) oneRequest {}).any (fun s => s.db.batches[0]?.any (fun b =>
      decide (b.createdAt = 0 ∧ b.completedAt = some 7 ∧ b.purgedAt = some 9 ∧ b.requestCompleted = 1))) = true := by
    decide +kernel
  obtain ⟨s,path,facts⟩ := replay_reaches ran
  obtain ⟨b,found,columns⟩ := (Option.any_eq_true _ _).mp facts
  have path : Run (Step JsonText.codec (3/10)) {} oneRequest s := path
  obtain ⟨coherent,counted,ordered⟩ := rows_coherent path
  obtain ⟨created,completed,purged,answered⟩ := of_decide_eq_true columns
  exact ⟨s,⟨b,found,created,completed,purged,answered,counted 0 b found⟩,coherent,ordered (by decide)⟩

end BatchGateway.Timeline
