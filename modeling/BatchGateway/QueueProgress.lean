import BatchGateway.DispatchAverages
import BatchGateway.Lifecycle
import BatchGateway.QueueEta
import BatchGateway.SubmissionLimits
import BatchGateway.TenantIsolation

-- The estimates a batch is given one after another, while the service goes on.
namespace BatchGateway.QueueProgress
open PythonText PythonJson PythonTime BatchInput BatchOps LabelledRuns RowMoves Lifecycle Eta QueueEta WaitingLine

-- A request comes at this time or after it.
def After (since : Instant) (_ : Service) : Routes.Action → Prop
  | .request _ _ now => since ≤ now
  | .background _ => True

instance (since : Instant) (s : Service) : (action : Routes.Action) → Decidable (After since s action)
  | .request _ _ now => inferInstanceAs (Decidable (since ≤ now))
  | .background _ => .isTrue trivial

-- The batches and the tasks a batch waits for are among those it waited for.
structure Closer (i : BatchId) (early late : Db) (b next : Batch) : Prop where
  created : next.createdAt = b.createdAt
  ended : cancellable b.status = false → next.status = b.status
  ahead : (aheadBatches late next).map Prod.snd ⊆ (aheadBatches early b).map Prod.snd
  waits : ∀ (n : TaskId) later, late.tasks[n]? = some later → waitsFor late next i later = true →
    ∃ row, early.tasks[n]? = some row ∧ waitsFor early b i row = true ∧
      later.promptTokensEstimate = row.promptTokensEstimate ∧ later.maxTokens = row.maxTokens
  samples : sampleCount early ≤ sampleCount late

-- What later estimates say against earlier ones.
structure Advances (settings : Settings) (i : BatchId) (early late : Db) (b next : Batch) : Prop where
  ended : cancellable b.status = false → ∀ now, estimateBatchEta settings late now next i = .ok unavailable
  confident : confidence settings early = .normal → confidence settings late = .normal
  position : ∀ now again x y p q, Estimated settings early now b i x p → Estimated settings late again next i y q → q ≤ p
  seconds : ∀ now again x y p q, Estimated settings early now b i x p → Estimated settings late again next i y q →
    clusterTps settings early ≤ clusterTps settings late → avgCompletionTokens settings late ≤ avgCompletionTokens settings early → y ≤ x
  available : next.status = .inProgress → 0 < healthySlots late → ∀ now, minWall ≤ now →
    ((∃ y q, Estimated settings late now next i y q) ↔ Lands settings late now next i)

variable {codec : Codec} {alpha : ℚ} {defaultMaxTokens : Int} {s t : Service} {op : Service.Operation} {action : Routes.Action}
variable {settings : Settings} {early middle late : Db} {i : BatchId} {b next last : Batch} {n : TaskId} {row later : Task} {since : Instant}

theorem Closer.refl (db : Db) (b : Batch) : Closer i db db b b :=
  ⟨rfl,fun _ => rfl,fun _ listed => listed,fun _ row there waits => ⟨row,there,waits,rfl,rfl⟩,le_rfl⟩

theorem Closer.trans (first : Closer i early middle b next) (second : Closer i middle late next last) : Closer i early late b last := by
  refine ⟨second.created.trans first.created,fun ended => ?_,fun k listed => first.ahead (second.ahead listed),?_,
    first.samples.trans second.samples⟩
  · have still := first.ended ended
    exact (second.ended (still ▸ ended)).trans still
  · intro n later there waits
    obtain ⟨row,found,waited,prompt,output⟩ := second.waits n later there waits
    obtain ⟨old,was,before,prompt',output'⟩ := first.waits n row found waited
    exact ⟨old,was,before,prompt.trans prompt',output.trans output'⟩

section Steps

-- The routes submit what the parser has accepted.
theorem step_parsed (step : Routes.Step codec alpha defaultMaxTokens s action t) :
    t = s ∨ ∃ op, Service.Step codec alpha s op t ∧ Routes.Performs s action op ∧
      ∀ user f endpoint window lines now, op = .createBatch user f endpoint window lines now →
        ∃ raw, parseBatchInput codec endpoint defaultMaxTokens raw = .ok lines := by
  rcases Routes.step_performs step with still | ⟨op,performed,performs⟩
  · exact .inl still
  · by_cases submission : ∃ user f endpoint window lines now, op = .createBatch user f endpoint window lines now
    · obtain ⟨user,f,endpoint,window,lines,now,rfl⟩ := submission
      cases performs with
      | background _ allowed => cases allowed
      | submit =>
        simp only [Routes.Step,Routes.advance,Routes.handle] at step
        split at step
        · rename_i after response done
          cases step
          obtain ⟨_,_,_,⟨raw,submitted,_,accepted,created⟩,_⟩ := Routes.createBatch_parts alpha done
          refine .inr ⟨_,created,.submit user f submitted now ?_,?_⟩
          · assumption
          · intro user f endpoint window lines now same
            cases same
            exact ⟨raw,accepted⟩
        · exact .inl (Option.some.inj step).symm
    · refine .inr ⟨op,performed,performs,fun user f endpoint window lines now same => ?_⟩
      exact absurd ⟨user,f,endpoint,window,lines,now,same⟩ submission

theorem created_after (performs : Routes.Performs s action op) (after : After since s action) :
    ∀ b ∈ Records.createdBatches op, since ≤ b.createdAt := by
  intro b member
  cases performs with
  | upload => cases member
  | submit =>
    cases List.mem_singleton.mp member
    exact after
  | cancel => cases member
  | background op allowed =>
    cases op with
    | createBatch => cases allowed
    | _ => cases member

theorem move_sizes (moved : TaskMove s op n row later) :
    later.promptTokensEstimate = row.promptTokensEstimate ∧ later.maxTokens = row.maxTokens := by
  cases moved with
  | recovered _ running =>
    rw [Dispatcher.Task.recover,if_pos running]
    exact ⟨rfl,rfl⟩
  | _ => exact ⟨rfl,rfl⟩

-- No task is live again that has not been so before.
theorem move_live (moved : TaskMove s op n row later) (live : later.live = true) : row.live = true := by
  cases moved with
  | kept => exact live
  | claimed _ _ _ waiting =>
    unfold Task.live
    rw [waiting]
    rfl
  | completed => cases live
  | failed => cases live
  | stopped => cases live
  | recovered _ running =>
    unfold Task.live
    rw [running]
    rfl

theorem move_created (change : BatchMove s op i b next) : next.createdAt = b.createdAt := by
  cases change with
  | kept => rfl
  | counted settles =>
    obtain ⟨_,_,same⟩ := count_columns settles b
    rw [same]
  | finished settles =>
    obtain ⟨_,_,same⟩ := count_columns settles b
    rw [same]
    rfl
  | stopped named => rcases named with ⟨_,rfl⟩ | ⟨_,rfl⟩ <;> rfl
  | purged => rfl

theorem move_ended (change : BatchMove s op i b next) (ended : cancellable b.status = false) : next.status = b.status := by
  cases change with
  | kept => rfl
  | counted settles =>
    obtain ⟨_,_,same⟩ := count_columns settles b
    rw [same]
  | finished settles _ _ due =>
    obtain ⟨_,_,same⟩ := count_columns settles b
    rw [same] at due
    have open_ := FileOwnership.shouldFinalize_status due
    change b.status = .inProgress at open_
    rw [open_] at ended
    cases ended
  | stopped _ allowed => cases ended.symm.trans allowed
  | purged => rfl

theorem ahead_kept (step : Service.Step codec alpha s op t) (fresh : ∀ b ∈ Records.createdBatches op, since ≤ b.createdAt)
    (since_ : b.createdAt = since) (created : next.createdAt = b.createdAt) :
    (aheadBatches t.db next).map Prod.snd ⊆ (aheadBatches s.db b).map Prod.snd := by
  intro k listed
  obtain ⟨o,there,open_,sooner⟩ := mem_ahead.mp listed
  rw [created] at sooner
  rcases batch_origin step there with ⟨c,was,change⟩ | ⟨_,new⟩
  · obtain ⟨still,_,same,_⟩ := open_kept change open_
    exact mem_ahead.mpr ⟨c,was,still,same ▸ sooner⟩
  · have late := fresh o new
    rw [← since_] at late
    exact absurd sooner (not_lt.mpr late)

theorem waits_kept (step : Service.Step codec alpha s op t) (found : s.db.batches[i]? = some b)
    (ahead : (aheadBatches t.db next).map Prod.snd ⊆ (aheadBatches s.db b).map Prod.snd)
    (there : t.db.tasks[n]? = some later) (waits : waitsFor t.db next i later = true) :
    ∃ row, s.db.tasks[n]? = some row ∧ waitsFor s.db b i row = true ∧
      later.promptTokensEstimate = row.promptTokensEstimate ∧ later.maxTokens = row.maxTokens := by
  obtain ⟨live,place⟩ := waitsFor_iff.mp waits
  have before : later.batchId ∈ (aheadBatches s.db b).map Prod.snd ++ [i] := by
    rcases List.mem_append.mp place with earlier | own
    · exact List.mem_append_left _ (ahead earlier)
    · exact List.mem_append_right _ own
  rcases task_origin step there with ⟨row,was,moved⟩ | ⟨_,created⟩
  · refine ⟨row,was,waitsFor_iff.mpr ⟨move_live moved live,?_⟩,move_sizes moved⟩
    rw [← move_batch moved]
    exact before
  · -- A new task is of a new batch, which nobody here waits for.
    have inside : later.batchId < s.db.batches.length := by
      rcases List.mem_append.mp before with earlier | own
      · obtain ⟨o,listed,_⟩ := mem_ahead.mp earlier
        exact (List.getElem?_eq_some_iff.mp listed).choose
      · rw [List.mem_singleton.mp own]
        exact (List.getElem?_eq_some_iff.mp found).choose
    rw [created_batch created] at inside
    exact absurd inside (lt_irrefl _)

theorem finalized_stat (codec : Codec) (task : TaskId) (now : Instant) (db : Db) (blobs : Blobs) :
    (finalizeAfter codec task now db blobs).1.stat = db.stat := by
  rcases finalizeAfter_parts codec task now db blobs with same | ⟨_,_,_,_,_,same⟩
  · rw [same]
  · rw [same]
    rfl

theorem terminated_stat {db after : Db} {user : UserId} {batch : BatchId} {terminal : BatchStatus} {note : String} {now : Instant}
    (done : terminateBatch user batch terminal note now db = .ok after) : after.stat = db.stat := by
  rcases terminateSelected_parts done with ⟨_,rfl⟩ | ⟨_,_,_,_,_,rfl⟩
  · rfl
  · rfl

theorem purged_stat (now : Instant) (rows : List (Batch × BatchId)) (db : Db) (blobs : Blobs) :
    (Retention.purgeAll now rows db blobs).1.stat = db.stat := by
  induction rows generalizing db blobs with
  | nil => rfl
  | cons row rows ih => exact ih _ _

theorem completed_stat {db after : Db} {task : TaskId} {responseBody : Json} {promptTokens completionTokens : Int} {now : Instant}
    (done : commitCompleted codec alpha task responseBody promptTokens completionTokens now db = .ok after) :
    ∃ row, after.stat = updateDispatchStats alpha row db.stat := by
  unfold commitCompleted at done
  split at done
  · cases done
  · obtain ⟨_,_,done⟩ := Raising.bind_ok done
    obtain ⟨_,_,done⟩ := Raising.bind_ok done
    split at done
    · cases done
    · obtain ⟨_,_,_,_,_,_,_,rfl⟩ := Ledger.perform_parts done
      exact ⟨_,rfl⟩

-- Only a completion is a sample of the throughput.
theorem step_stat (step : Service.Step codec alpha s op t) :
    t.db.stat = s.db.stat ∨ ∃ task, t.db.stat = updateDispatchStats alpha task s.db.stat := by
  cases op with
  | grant =>
    obtain ⟨_,rfl⟩ := Service.grant_posts step
    exact .inl rfl
  | uploadFile => cases step; exact .inl rfl
  | applyHealthResults => cases step; exact .inl rfl
  | claimAndAssign => cases step; exact .inl rfl
  | startup => cases step; exact .inl rfl
  | createBatch =>
    obtain ⟨_,created,rfl⟩ := Service.create_step step
    obtain ⟨_,_,_,_,_,rfl⟩ := createBatch_parts created
    exact .inl rfl
  | cancelBatch =>
    obtain ⟨_,_,_,_,_,done,rfl⟩ := Service.cancel_step step
    exact .inl (terminated_stat done)
  | expireBatch =>
    obtain ⟨_,_,_,_,done,rfl⟩ := Service.expire_step step
    exact .inl (terminated_stat done)
  | purgeExpiredResults retentionDays now =>
    cases step
    exact .inl (purged_stat now _ s.db s.blobs)
  | completeTask task responseBody promptTokens completionTokens now =>
    obtain ⟨_,_,committed,rfl⟩ := Service.complete_step step
    rw [finalized_stat]
    exact .inr (completed_stat committed)
  | failTask task error now =>
    obtain ⟨_,_,committed,rfl⟩ := Service.fail_step step
    rw [finalized_stat]
    obtain ⟨_,_,_,_,⟨_,rfl⟩ | ⟨_,_,_,_,_,rfl⟩⟩ := commitFailed_parts committed
    · exact .inl rfl
    · exact .inl rfl

theorem update_samples (alpha : ℚ) (task : Task) (stat : Option DispatchStat) :
    (stat.getD {}).sampleCount ≤ ((updateDispatchStats alpha task stat).getD {}).sampleCount := by
  cases counts : DispatchAverages.sampled task with
  | false => rw [DispatchAverages.update_skipped counts]
  | true =>
    rw [DispatchAverages.update_sampled counts]
    exact Nat.le_succ _

theorem sampleCount_row (db : Db) : sampleCount db = ((db.stat.getD {}).sampleCount : Int) := by
  unfold sampleCount
  cases db.stat <;> rfl

theorem step_samples (step : Service.Step codec alpha s op t) : sampleCount s.db ≤ sampleCount t.db := by
  rw [sampleCount_row,sampleCount_row]
  apply Int.ofNat_le.mpr
  rcases step_stat step with same | ⟨task,updated⟩
  · rw [same]
  · rw [updated]
    exact update_samples alpha task s.db.stat

theorem step_closer (step : Service.Step codec alpha s op t) (fresh : ∀ b ∈ Records.createdBatches op, since ≤ b.createdAt)
    (since_ : b.createdAt = since) (found : s.db.batches[i]? = some b) :
    ∃ next, t.db.batches[i]? = some next ∧ Closer i s.db t.db b next := by
  obtain ⟨next,there,change⟩ := batch_moves step found
  have created := move_created change
  have ahead := ahead_kept step fresh since_ created
  exact ⟨next,there,created,move_ended change,ahead,fun _ _ listed waits => waits_kept step found ahead listed waits,step_samples step⟩

theorem run_closer {actions : List Routes.Action} (found : s.db.batches[i]? = some b)
    (path : Run (Guarded (After b.createdAt) (Routes.Step codec alpha defaultMaxTokens)) s actions t) :
    ∃ next, t.db.batches[i]? = some next ∧ Closer i s.db t.db b next := by
  induction path with
  | nil => exact ⟨b,found,.refl s.db b⟩
  | step _ last ih =>
    obtain ⟨next,there,closer⟩ := ih
    obtain ⟨after,step⟩ := last
    rcases Routes.step_performs step with rfl | ⟨op,performed,performs⟩
    · exact ⟨next,there,closer⟩
    · obtain ⟨final,here,rest⟩ := step_closer performed (created_after performs after) closer.created there
      exact ⟨final,here,closer.trans rest⟩

end Steps

section Sizes

theorem resolved_nonnegative (bound : 0 ≤ defaultMaxTokens) {value : Json} (valid : maxTokensValid value = true) :
    0 ≤ resolvedMaxTokens defaultMaxTokens value := by
  cases value with
  | int n =>
    have positive : 0 < n := of_decide_eq_true valid
    exact positive.le
  | bool b =>
    cases b with
    | true => exact Int.one_nonneg
    | false => cases valid
  | _ => exact bound

theorem parsed_sizes {endpoint : Str} {raw : Bytes} {lines : List ParsedLine} (bound : 0 ≤ defaultMaxTokens)
    (parsed : parseBatchInput codec endpoint defaultMaxTokens raw = .ok lines) :
    ∀ p ∈ lines, 0 ≤ p.promptTokens ∧ 0 ≤ p.maxTokens := by
  intro p member
  obtain ⟨valid,estimated⟩ := accepted_line (parseBatchInput_accepted parsed) member
  refine ⟨(SubmissionLimits.promptTokens_positive estimated).le,?_⟩
  rw [resolved_max_tokens valid estimated]
  exact resolved_nonnegative bound valid

theorem next_positive {sample : ℚ} {held : Option ℚ} (low : 0 ≤ alpha) (high : alpha ≤ 1) (positive : 0 < sample)
    (before : ∀ v, held = some v → 0 < v) : 0 < RunningAverages.next alpha sample held := by
  cases held with
  | none => exact positive
  | some average =>
    have old := before average rfl
    have rest : 0 ≤ (1 - alpha) * average := mul_nonneg (sub_nonneg.mpr high) old.le
    rcases low.eq_or_lt with rfl | weighs
    · simpa [RunningAverages.next] using old
    · exact add_pos_of_pos_of_nonneg (mul_pos weighs positive) rest

structure Positive (stat : Option DispatchStat) : Prop where
  throughput : ∀ tps, stat.bind DispatchStat.tokensPerSecondEwma = some tps → 0 < tps
  completion : ∀ avg, stat.bind DispatchStat.avgCompletionTokensEwma = some avg → 0 < avg

theorem update_positive {stat : Option DispatchStat} (low : 0 ≤ alpha) (high : alpha ≤ 1) (task : Task) (valid : Positive stat) :
    Positive (updateDispatchStats alpha task stat) := by
  cases counts : DispatchAverages.sampled task with
  | false =>
    rw [DispatchAverages.update_skipped counts]
    exact valid
  | true =>
    have throughput : ∀ v, (stat.getD {}).tokensPerSecondEwma = some v → 0 < v := by
      cases stat with
      | none => exact fun v set => by cases set
      | some row => exact valid.throughput
    have completion : ∀ v, (stat.getD {}).avgCompletionTokensEwma = some v → 0 < v := by
      cases stat with
      | none => exact fun v set => by cases set
      | some row => exact valid.completion
    rw [DispatchAverages.update_sampled counts]
    refine ⟨fun tps set => ?_,fun avg set => ?_⟩
    · cases set
      exact next_positive low high (DispatchAverages.sampled_positive counts) throughput
    · simp only [Option.bind_some] at set
      split at set
      · rename_i generated
        cases set
        exact next_positive low high (Int.cast_pos.mpr generated) completion
      · exact completion avg set

theorem sound_step (low : 0 ≤ alpha) (high : alpha ≤ 1) (bound : 0 ≤ defaultMaxTokens) (sound : Sound s.db)
    (step : Routes.Step codec alpha defaultMaxTokens s action t) : Sound t.db := by
  rcases step_parsed step with rfl | ⟨op,performed,_,parsed⟩
  · exact sound
  have sizes : ∀ later ∈ t.db.tasks, 0 ≤ later.promptTokensEstimate ∧ 0 ≤ later.maxTokens := by
    intro later member
    obtain ⟨n,there⟩ := List.mem_iff_getElem?.mp member
    rcases task_origin performed there with ⟨row,found,moved⟩ | ⟨_,created⟩
    · have old := List.mem_of_getElem? found
      obtain ⟨prompt,output⟩ := move_sizes moved
      rw [prompt,output]
      exact ⟨sound.prompt row old,sound.output row old⟩
    · cases op with
      | createBatch user f endpoint window lines now =>
        obtain ⟨p,listed,rfl⟩ := List.mem_map.mp created
        obtain ⟨raw,accepted⟩ := parsed _ _ _ _ _ _ rfl
        exact parsed_sizes bound accepted p listed
      | _ => cases created
  have averages : Positive t.db.stat := by
    have before : Positive s.db.stat := ⟨sound.throughput,sound.completion⟩
    rcases step_stat performed with same | ⟨task,updated⟩
    · rw [same]
      exact before
    · rw [updated]
      exact update_positive low high task before
  exact ⟨fun later member => (sizes later member).1,fun later member => (sizes later member).2,averages.throughput,averages.completion⟩

theorem empty_sound : Sound ({} : Db) := by
  refine ⟨?_,?_,?_,?_⟩
  · intro t member
    cases member
  · intro t member
    cases member
  · intro tps set
    cases set
  · intro avg set
    cases set

end Sizes

section Estimates

theorem expectedTokens_mono {less more : ℚ} (le : less ≤ more) (row : Task) : expectedTokens less row ≤ expectedTokens more row := by
  apply add_le_add le_rfl
  unfold expectedCompletion
  split
  · exact le
  · exact min_le_min le_rfl le

theorem work_shrinks (closer : Closer i early late b next)
    (size : ∀ row ∈ early.tasks, 0 ≤ expectedTokens (avgCompletionTokens settings early) row)
    (less : avgCompletionTokens settings late ≤ avgCompletionTokens settings early) :
    workload settings late next i ≤ workload settings early b i := by
  unfold workload
  rw [Rows.sum_filter,Rows.sum_filter]
  refine load_covered (fun row member => ?_) fun n later there => ?_
  · split
    · exact size row member
    · exact le_rfl
  · split
    · rename_i waits
      obtain ⟨row,found,waited,prompt,output⟩ := closer.waits n later there waits
      rw [found,Option.map_some,Option.getD_some,if_pos waited]
      have same : expectedTokens (avgCompletionTokens settings late) later = expectedTokens (avgCompletionTokens settings late) row := by
        simp only [expectedTokens,expectedCompletion,prompt,output]
      rw [same]
      exact expectedTokens_mono less row
    · cases found : early.tasks[n]? with
      | none => exact le_rfl
      | some row =>
        rw [Option.map_some,Option.getD_some]
        split
        · exact size row (List.mem_of_getElem? found)
        · exact le_rfl

-- What an estimate says, where there is one.
theorem estimated_parts {db : Db} {now : Instant} {x : ℚ} {p : Nat} (estimated : Estimated settings db now b i x p) :
    x = QueueEta.seconds settings db b i ∧ p = (aheadBatches db b).length ∧ 0 < clusterTps settings db := by
  obtain ⟨d,c,done,_⟩ := estimated
  unfold estimateBatchEta at done
  split at done
  · cases done
  · split at done
    · cases done
    · split at done
      · cases done
      · split at done
        · cases done
        · rename_i running
          obtain ⟨y,divided,done⟩ := Raising.bind_ok done
          obtain ⟨_,_,same⟩ := Raising.bind_ok done
          cases same
          have positive : 0 < clusterTps settings db := not_le.mp running
          rw [divide,if_neg positive.ne'] at divided
          cases divided
          exact ⟨rfl,rfl,positive⟩

theorem ended_unavailable {db : Db} (ended : cancellable b.status = false) (now : Instant) :
    estimateBatchEta settings db now b i = .ok unavailable := by
  unfold estimateBatchEta
  rw [if_pos]
  constructor
  · intro same
    rw [same] at ended
    cases ended
  · intro same
    rw [same] at ended
    cases ended

theorem confident_iff {db : Db} : confidence settings db = .normal ↔ settings.etaMinSamplesForConfidence ≤ sampleCount db := by
  unfold confidence
  split
  · rename_i enough
    exact iff_of_true rfl enough
  · rename_i few
    refine iff_of_false (fun same => ?_) few
    cases same

theorem available_iff {db : Db} {now : Instant} (configured : Configured settings) (sound : Sound db) (found : db.batches[i]? = some b)
    (waiting : b.status = .inProgress) (slots : 0 < healthySlots db) (clock : minWall ≤ now) :
    (∃ y q, Estimated settings db now b i y q) ↔ Lands settings db now b i := by
  rw [Lands,workload_seconds found]
  constructor
  · rintro ⟨y,q,estimated⟩
    exact ((estimated_iff configured sound slots clock waiting).mp estimated).2.2
  · intro lands
    exact ⟨_,_,(estimated_iff configured sound slots clock waiting).mpr ⟨rfl,rfl,lands⟩⟩

theorem closer_advances (configured : Configured settings) (before : Sound early) (after : Sound late)
    (found : early.batches[i]? = some b) (there : late.batches[i]? = some next) (closer : Closer i early late b next) :
    Advances settings i early late b next := by
  refine ⟨fun ended now => ?_,fun sure => ?_,fun now again x y p q first second => ?_,fun now again x y p q first second faster shorter => ?_,
    fun waiting slots now clock => available_iff configured after there waiting slots clock⟩
  · apply ended_unavailable
    rw [closer.ended ended]
    exact ended
  · exact confident_iff.mpr ((confident_iff.mp sure).trans closer.samples)
  · obtain ⟨_,rfl,_⟩ := estimated_parts first
    obtain ⟨_,rfl,_⟩ := estimated_parts second
    have fewer := (List.subperm_of_subset (Rows.selected_distinct _ _) closer.ahead).length_le
    rwa [List.length_map,List.length_map] at fewer
  · obtain ⟨rfl,_,running⟩ := estimated_parts first
    obtain ⟨rfl,_,_⟩ := estimated_parts second
    rw [← workload_seconds found,← workload_seconds there]
    have size := expected_nonnegative configured before
    refine div_le_div₀ ?_ (work_shrinks closer size shorter) running faster
    exact load_nonnegative fun row member => size row (List.mem_filter.mp member).1

variable {actions prior : List Routes.Action}

theorem reached_sound (low : 0 ≤ alpha) (high : alpha ≤ 1) (bound : 0 ≤ defaultMaxTokens) (sound : Sound s.db)
    (path : Run (Routes.Step codec alpha defaultMaxTokens) s actions t) : Sound t.db :=
  path.preserves (I := fun r : Service => QueueEta.Sound r.db) sound fun _ _ _ valid step => sound_step low high bound valid step

-- Nobody who submits later gets ahead of a batch, and none of the work before it comes
-- back: in every later state it stands no further behind, and its remaining seconds grow
-- only with a throughput that falls or answers that get longer.
theorem estimates_advance (low : 0 ≤ alpha) (high : alpha ≤ 1) (bound : 0 ≤ defaultMaxTokens) (configured : Configured settings)
    (start : Run (Routes.Step codec alpha defaultMaxTokens) {} prior s) (found : s.db.batches[i]? = some b)
    (path : Run (Guarded (After b.createdAt) (Routes.Step codec alpha defaultMaxTokens)) s actions t) :
    ∃ next, t.db.batches[i]? = some next ∧ Advances settings i s.db t.db b next := by
  have before : Sound s.db := reached_sound low high bound empty_sound start
  have after : Sound t.db := reached_sound low high bound before path.unguarded
  obtain ⟨next,there,closer⟩ := run_closer found path
  exact ⟨next,there,closer_advances configured before after found there closer⟩

-- Two batches of two users, and then a third one while the first is served.
def oneLine : Bytes := Service.inputFile [Service.requestLine "a" ", \"max_tokens\": 5"]

def submits (user : UserId) (f : FileId) (now : Instant) : List Routes.Action :=
  [.background (.grant user 1000 none),.request user (.createFile none (text "batch") oneLine) now,
    .request user (.createBatch f supportedEndpoint (text "24h")) now]

def queued : List Routes.Action := .background (Service.nodeWith 1) :: (submits 1 0 0 ++ submits 2 1 1)

def served : List Routes.Action :=
  submits 1 2 2 ++ [.background (.claimAndAssign (fun _ => 0) 3),.background (.completeTask 0 (.obj []) 10 5 1000003)]

theorem estimates_advance_served : ∃ (s t : Service) (b next : Batch), (aheadBatches s.db b).length = 1 ∧
    (aheadBatches t.db next).length = 0 ∧ Advances (bootstrapped 5) 1 s.db t.db b next := by
  have ran : (replay (Routes.advance JsonText.codec (3/10) 16) queued {}).any (fun s =>
      s.db.batches[1]?.any (fun b => decide (b.createdAt = 1 ∧ (aheadBatches s.db b).length = 1)) &&
        (replay (checked (After 1) (Routes.advance JsonText.codec (3/10) 16)) served s).any (fun t =>
          t.db.batches[1]?.any (fun b => decide ((aheadBatches t.db b).length = 0)))) = true := by decide +kernel
  obtain ⟨s,prior,facts⟩ := replay_reaches ran
  obtain ⟨before,after⟩ := Bool.and_eq_true_iff.mp facts
  obtain ⟨b,found,behind⟩ := (Option.any_eq_true _ _).mp before
  obtain ⟨submitted,one⟩ := of_decide_eq_true behind
  obtain ⟨t,later,ended⟩ := checked_reaches after
  obtain ⟨c,there,first⟩ := (Option.any_eq_true _ _).mp ended
  have prior : Run (Routes.Step JsonText.codec (3/10) 16) {} queued s := prior
  have later : Run (Guarded (After b.createdAt) (Routes.Step JsonText.codec (3/10) 16)) s served t := submitted ▸ later
  have configured : Configured (bootstrapped 5) := bootstrapped_configured (by norm_num)
  obtain ⟨next,here,advances⟩ := estimates_advance (by norm_num) (by norm_num) (by decide) configured prior found later
  cases there.symm.trans here
  exact ⟨s,t,b,c,one,of_decide_eq_true first,advances⟩

end Estimates

end BatchGateway.QueueProgress
