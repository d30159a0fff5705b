import BatchGateway.AuditTrail
import BatchGateway.BatchAnswers
import Mathlib.Algebra.Order.BigOperators.Group.List

-- A batch as its owner polls it, one answer after another.
namespace BatchGateway.Polling
open PythonText PythonJson PythonTime BatchOps Service LabelledRuns Counters RowMoves Lifecycle AuditTrail QueueEta BatchAnswers

-- Once shown, a time stays what it is.
def Keeps (old new : Option Int) : Prop := ∀ x, old = some x → new = some x

-- Columns of a submission that no answer changes.
def submitted (o : BatchOut) : BatchId × Str × FileId × Str × Option Int × Option Int × Option Int × Nat × Int :=
  (o.id,o.endpoint,o.inputFileId,o.completionWindow,o.createdAt,o.inProgressAt,o.expiresAt,o.requestCounts.total,
    o.xTokens.reserved)

-- What a later answer may say after an earlier one.
structure Advances (old new : BatchOut) : Prop where
  submission : submitted new = submitted old
  completed : old.requestCounts.completed ≤ new.requestCounts.completed
  failed : old.requestCounts.failed ≤ new.requestCounts.failed
  consumed : old.xTokens.consumed ≤ new.xTokens.consumed
  status : new.status = old.status ∨ (old.status = .inProgress ∧ new.status ≠ .failed)
  times : Keeps old.finalizingAt new.finalizingAt ∧ Keeps old.completedAt new.completedAt ∧
    Keeps old.cancelledAt new.cancelledAt ∧ Keeps old.expiredAt new.expiredAt
  -- The results come with the completion, and go together for good.
  results : old.status = .completed →
    (new.outputFileId,new.errorFileId) = (old.outputFileId,old.errorFileId) ∨ (new.outputFileId = none ∧ new.errorFileId = none)

-- What an answer says in itself.
structure Consistent (o : BatchOut) : Prop where
  counts : o.requestCounts.completed + o.requestCounts.failed ≤ o.requestCounts.total
  done : o.status = .completed → o.requestCounts.completed + o.requestCounts.failed = o.requestCounts.total
  completed : o.completedAt.isSome = (o.status == .completed)
  cancelled : o.cancelledAt.isSome = (o.status == .cancelled)
  expired : o.expiredAt.isSome = (o.status == .expired)
  results : (o.outputFileId.isSome = true → o.status = .completed) ∧ (o.errorFileId.isSome = true → o.outputFileId.isSome = true)
  consumed : 0 ≤ o.xTokens.consumed

variable {codec : Codec} {alpha : ℚ} {defaultMaxTokens : Int} {s t : Service} {op : Service.Operation} {i : BatchId} {b next : Batch}

theorem Keeps.refl (x : Option Int) : Keeps x x := fun _ same => same

theorem Keeps.trans {x y z : Option Int} (first : Keeps x y) (second : Keeps y z) : Keeps x z := fun v same => second v (first v same)

theorem Advances.refl (o : BatchOut) : Advances o o :=
  ⟨rfl,le_rfl,le_rfl,le_rfl,.inl rfl,⟨.refl _,.refl _,.refl _,.refl _⟩,fun _ => .inl rfl⟩

theorem Advances.trans {x y z : BatchOut} (first : Advances x y) (second : Advances y z) : Advances x z := by
  refine ⟨second.submission.trans first.submission,first.completed.trans second.completed,first.failed.trans second.failed,
    first.consumed.trans second.consumed,?_,?_,fun done => ?_⟩
  · rcases first.status with same | ⟨open_,left⟩
    · rw [← same]
      exact second.status
    · rcases second.status with same | ⟨_,left⟩
      · exact .inr ⟨open_,same ▸ left⟩
      · exact .inr ⟨open_,left⟩
  · obtain ⟨a,b,c,d⟩ := first.times
    obtain ⟨a',b',c',d'⟩ := second.times
    exact ⟨a.trans a',b.trans b',c.trans c',d.trans d'⟩
  · have still : y.status = .completed := by
      rcases first.status with same | ⟨open_,_⟩
      · exact same.trans done
      · rw [done] at open_
        cases open_
    rcases second.results still with same | gone
    · rcases first.results done with kept | ⟨noOutput,noErrors⟩
      · exact .inl (same.trans kept)
      · obtain ⟨output,errors⟩ := Prod.mk.inj same
        exact .inr ⟨output.trans noOutput,errors.trans noErrors⟩
    · exact .inr gone

theorem consumed_grows (step : Service.Step codec alpha s op t) (i : BatchId) :
    Consumption.tokensConsumed s.db i ≤ Consumption.tokensConsumed t.db i := by
  unfold Consumption.tokensConsumed Consumption.usedDeltas
  rw [ledger_posted step,List.filter_append,List.map_append,List.sum_append]
  refine le_add_of_nonneg_right (List.sum_nonneg fun x listed => ?_)
  obtain ⟨e,member,rfl⟩ := List.mem_map.mp listed
  obtain ⟨posted,kind⟩ := List.mem_filter.mp member
  obtain ⟨_,_,_,_,_,_,_,_,sign⟩ := charge_posted step posted (eq_of_beq (Bool.and_eq_true_iff.mp kind).2)
  exact sign

theorem count_more {task : TaskId} {now : Instant} {count : Batch → Batch} (settles : Settles op task now count) (b : Batch) :
    ∃ m n, count b = {b with requestCompleted := m,requestFailed := n} ∧ b.requestCompleted ≤ m ∧ b.requestFailed ≤ n := by
  cases settles with
  | complete => exact ⟨_,_,rfl,Nat.le_succ _,le_rfl⟩
  | fail => exact ⟨_,_,rfl,le_rfl,Nat.le_succ _⟩

variable (zone : Zone)

theorem keeps_unset {old : Option Instant} {new : Option Int} (unset : old.isSome = false) : Keeps (shown zone old) new := by
  intro x same
  cases old with
  | none => cases same
  | some t => cases unset

-- A batch that was open shows none of the times it may end with.
theorem open_unset (valid : BatchCoherent b) (open_ : b.status = .inProgress) : b.finalizingAt.isSome = false ∧
    b.completedAt.isSome = false ∧ b.cancelledAt.isSome = false ∧ b.expiredAt.isSome = false := by
  have completed : b.completedAt.isSome = false := valid.completed.trans (by rw [open_]; rfl)
  exact ⟨by rw [valid.finalizing,completed],completed,valid.cancelled.trans (by rw [open_]; rfl),
    valid.expired.trans (by rw [open_]; rfl)⟩

theorem ended_advances {old new : Db} (valid : BatchCoherent b) (open_ : b.status = .inProgress)
    (submission : submitted (withEta zone new i next {}) = submitted (withEta zone old i b {}))
    (counts : b.requestCompleted ≤ next.requestCompleted ∧ b.requestFailed ≤ next.requestFailed)
    (consumed : Consumption.tokensConsumed old i ≤ Consumption.tokensConsumed new i) (kind : next.status ≠ .failed) :
    Advances (withEta zone old i b {}) (withEta zone new i next {}) := by
  obtain ⟨finalizing,completed,cancelled,expired⟩ := open_unset valid open_
  refine ⟨submission,counts.1,counts.2,consumed,.inr ⟨open_,kind⟩,
    ⟨keeps_unset zone finalizing,keeps_unset zone completed,keeps_unset zone cancelled,keeps_unset zone expired⟩,fun done => ?_⟩
  change b.status = .completed at done
  rw [open_] at done
  cases done

theorem advance_step (valid : BatchCoherent b) (step : Service.Step codec alpha s op t) (moved : BatchMove s op i b next) :
    Advances (withEta zone s.db i b {}) (withEta zone t.db i next {}) := by
  have consumed := consumed_grows step i
  cases moved with
  | kept =>
    exact ⟨rfl,le_rfl,le_rfl,consumed,.inl rfl,⟨.refl _,.refl _,.refl _,.refl _⟩,fun _ => .inl rfl⟩
  | counted settles =>
    obtain ⟨m,n,same,more,fewer⟩ := count_more settles b
    rw [same]
    exact ⟨rfl,more,fewer,consumed,.inl rfl,⟨.refl _,.refl _,.refl _,.refl _⟩,fun _ => .inl rfl⟩
  | finished settles _ _ due =>
    obtain ⟨m,n,same,more⟩ := count_more settles b
    rw [same] at due ⊢
    have open_ := FileOwnership.shouldFinalize_status due
    apply ended_advances zone valid open_
    · rfl
    · exact more
    · exact consumed
    · exact BatchStatus.noConfusion
  | stopped named allowed =>
    have open_ := open_only valid allowed
    rcases named with ⟨_,rfl⟩ | ⟨_,rfl⟩
    all_goals
      apply ended_advances zone valid open_
      · rfl
      · exact ⟨le_rfl,le_rfl⟩
      · exact consumed
      · exact BatchStatus.noConfusion
  | purged =>
    exact ⟨rfl,le_rfl,le_rfl,consumed,.inl rfl,⟨.refl _,.refl _,.refl _,.refl _⟩,fun _ => .inr ⟨rfl,rfl⟩⟩

theorem run_advances {operations : List Service.Operation} (sound : Sound s) (path : Run (Service.Step codec alpha) s operations t)
    (found : s.db.batches[i]? = some b) : Sound t ∧ ∃ next, t.db.batches[i]? = some next ∧ next.userId = b.userId ∧
      Advances (withEta zone s.db i b {}) (withEta zone t.db i next {}) := by
  induction path with
  | nil => exact ⟨sound,b,found,rfl,.refl _⟩
  | step _ last ih =>
    obtain ⟨sound,mid,there,owner,advances⟩ := ih
    obtain ⟨next,after,moved⟩ := batch_moves last there
    have coherent := sound.coherent.batches mid (List.mem_of_getElem? there)
    exact ⟨sound_step sound last,next,after,(move_owner moved).trans owner,advances.trans (advance_step zone coherent last moved)⟩

theorem run_charges {operations : List Service.Operation} (path : Run (Service.Step codec alpha) {} operations s) (i : BatchId) :
    0 ≤ Consumption.tokensConsumed s.db i := by
  have grown : Consumption.tokensConsumed ({} : Service).db i ≤ Consumption.tokensConsumed s.db i :=
    path.relates (R := fun a b : Service => Consumption.tokensConsumed a.db i ≤ Consumption.tokensConsumed b.db i)
      (fun _ => le_rfl) (fun _ _ _ => le_trans) fun _ _ _ step => consumed_grows step i
  exact grown

theorem shown_isSome (column : Option Instant) : (shown zone column).isSome = column.isSome := by
  cases column with
  | none => rfl
  | some t => rfl

theorem answer_consistent (sound : Sound s) (charged : 0 ≤ Consumption.tokensConsumed s.db i) (found : s.db.batches[i]? = some b) :
    Consistent (withEta zone s.db i b {}) := by
  have coherent := sound.coherent.batches b (List.mem_of_getElem? found)
  have counted := sound.progress.counted i b found
  refine ⟨counted_bound counted,fun done => ?_,?_,?_,?_,⟨fun output => ?_,coherent.errors⟩,charged⟩
  · have split := tally_split s.db i
    have rest : s.db.tasks.countP (fun t => belongs i t && !settled t) = 0 := by
      apply List.countP_eq_zero.mpr
      intro t member both
      obtain ⟨mine,unsettled⟩ := Bool.and_eq_true_iff.mp both
      have owner : t.batchId = i := eq_of_beq mine
      rw [sound.coherent.whole t member b (owner ▸ found) done] at unsettled
      cases unsettled
    rw [rest,← counted.total,← counted.completed,← counted.failed] at split
    exact split.symm
  · exact (shown_isSome zone _).trans coherent.completed
  · exact (shown_isSome zone _).trans coherent.cancelled
  · exact (shown_isSome zone _).trans coherent.expired
  · have results := coherent.results
    change b.outputFileId.isSome = true at output
    rw [output] at results
    exact eq_of_beq (Bool.and_eq_true_iff.mp results.symm).1

-- The estimate is no part of what an answer may not take back.
theorem advances_withoutEta {old new : BatchOut} (advances : Advances old.withoutEta new.withoutEta) : Advances old new :=
  ⟨advances.submission,advances.completed,advances.failed,advances.consumed,advances.status,advances.times,advances.results⟩

theorem consistent_withoutEta {o : BatchOut} (consistent : Consistent o.withoutEta) : Consistent o :=
  ⟨consistent.counts,consistent.done,consistent.completed,consistent.cancelled,consistent.expired,consistent.results,consistent.consumed⟩

variable {zone} {settings : Settings} {clock : BatchId → Instant} {user : UserId} {now : Instant} {old : BatchOut}

theorem polled_parts (polled : answered codec defaultMaxTokens zone settings clock user now (.getBatch i) s = .ok (t,.ok (.batch old))) :
    t = s ∧ ∃ b, s.db.batches[i]? = some b ∧ b.userId = user ∧ old.withoutEta = withEta zone s.db i b {} := by
  obtain ⟨response,handled,shown⟩ := answered_ok polled
  obtain ⟨rfl,b,rfl,found,mine⟩ := Routes.getBatch_parts handled
  obtain ⟨out,same,built⟩ := render_batch shown.symm
  cases same
  exact ⟨rfl,b,found,mine,batchOut_ok built⟩

theorem owner_handled (now : Instant) (found : s.db.batches[i]? = some b) :
    Routes.handle codec defaultMaxTokens b.userId now (.getBatch i) s = .ok (s,.batch i b) := by
  have owned : getOwnedBatchOr404 s.db b.userId i = .ok b := by simp [getOwnedBatchOr404,found]
  simp only [Routes.handle,Routes.getBatch,owned]
  rfl

-- A batch's owner is answered, or its estimate, while it is in progress, lies past the year 9999.
theorem owner_polls (zone : Zone) (settings : Settings) (clock : BatchId → Instant) (now : Instant) (valid : BatchCoherent b)
    (found : s.db.batches[i]? = some b) :
    (∃ out, answered codec defaultMaxTokens zone settings clock b.userId now (.getBatch i) s = .ok (s,.ok (.batch out)) ∧
      out.withoutEta = withEta zone s.db i b {}) ∨
    (answered codec defaultMaxTokens zone settings clock b.userId now (.getBatch i) s = .ok (s,.error .overflowError) ∧
      b.status = .inProgress) := by
  rw [answered_of (owner_handled now found),render]
  cases built : batchOut zone settings clock s.db i b with
  | ok out => exact .inl ⟨out,rfl,batchOut_ok built⟩
  | error e =>
    obtain ⟨rfl,waiting⟩ := batchOut_error built
    refine .inr ⟨rfl,open_only valid ?_⟩
    rcases waiting with status | status
    all_goals
      rw [status]
      rfl

-- Once a batch can be polled it can be polled for good, but for a 500 while its estimate lies
-- past the year 9999, and no answer takes back what an earlier one has said.
theorem polls_advance {before actions : List Routes.Action}
    (prior : Run (Routes.Step codec alpha defaultMaxTokens) {} before s)
    (polled : answered codec defaultMaxTokens zone settings clock user now (.getBatch i) s = .ok (s,.ok (.batch old)))
    (later : Run (Routes.Step codec alpha defaultMaxTokens) s actions t) : Consistent old ∧ ∀ settings clock again,
      (∃ new, answered codec defaultMaxTokens zone settings clock user again (.getBatch i) t = .ok (t,.ok (.batch new)) ∧
        Advances old new ∧ Consistent new) ∨
      (answered codec defaultMaxTokens zone settings clock user again (.getBatch i) t = .ok (t,.error .overflowError) ∧
        ∃ b, t.db.batches[i]? = some b ∧ b.status = .inProgress) := by
  obtain ⟨_,b,found,mine,same⟩ := polled_parts polled
  obtain ⟨_,first⟩ := routed_run prior
  obtain ⟨_,rest⟩ := routed_run later
  have sound := run_sound first
  obtain ⟨after,next,there,owner,advances⟩ := run_advances zone sound rest found
  have whole := answer_consistent zone sound (run_charges first i) found
  have still := answer_consistent zone after (run_charges (first.append rest) i) there
  refine ⟨consistent_withoutEta (by rwa [same]),fun settings clock again => ?_⟩
  rw [← mine,← owner]
  have valid := after.coherent.batches next (List.mem_of_getElem? there)
  rcases owner_polls zone settings clock again valid there with ⟨new,answers,shown⟩ | ⟨raises,waiting⟩
  · refine .inl ⟨new,answers,advances_withoutEta ?_,consistent_withoutEta (by rwa [shown])⟩
    rwa [same,shown]
  · exact .inr ⟨raises,next,there,waiting⟩

-- A batch polled before its two requests have ended, and after.
def firstPoll : List Routes.Action := TenantIsolation.answeredBatch.take 4
def secondPoll : List Routes.Action := TenantIsolation.answeredBatch.drop 4

-- What the poll of the first batch shows at the epoch on a host at UTC.
def firstBatch (s : Service) : Option BatchOut :=
  match answered JsonText.codec 16 utcZone (bootstrapped 5) (fun _ => 0) 1 0 (.getBatch 0) s with
  | .ok (_,.ok (.batch out)) => some out
  | _ => none

theorem firstBatch_answered {out : BatchOut} (shown : firstBatch s = some out) :
    answered JsonText.codec 16 utcZone (bootstrapped 5) (fun _ => 0) 1 0 (.getBatch 0) s = .ok (s,.ok (.batch out)) := by
  unfold firstBatch at shown
  split at shown
  · rename_i answers
    cases shown
    obtain ⟨rfl,_⟩ := polled_parts answers
    exact answers
  · cases shown

theorem polls_advance_answered : ∃ (s t : Service) (old new : BatchOut), firstBatch s = some old ∧ firstBatch t = some new ∧
    old.status = .inProgress ∧ new.status = .completed ∧ Advances old new := by
  have ran : (replay (Routes.advance JsonText.codec (3/10) 16) firstPoll {}).any (fun s =>
      (firstBatch s).any (fun old => decide (old.status = .inProgress)) &&
        (replay (Routes.advance JsonText.codec (3/10) 16) secondPoll s).any (fun t =>
          (firstBatch t).any (fun new => decide (new.status = .completed)))) = true := by decide +kernel
  obtain ⟨s,prior,facts⟩ := replay_reaches ran
  obtain ⟨before,after⟩ := Bool.and_eq_true_iff.mp facts
  obtain ⟨old,shown,open_⟩ := (Option.any_eq_true _ _).mp before
  obtain ⟨t,later,ended⟩ := replay_reaches after
  obtain ⟨new,again,done⟩ := (Option.any_eq_true _ _).mp ended
  have prior : Run (Routes.Step JsonText.codec (3/10) 16) {} firstPoll s := prior
  have later : Run (Routes.Step JsonText.codec (3/10) 16) s secondPoll t := later
  have answers := firstBatch_answered again
  refine ⟨s,t,old,new,shown,again,of_decide_eq_true open_,of_decide_eq_true done,?_⟩
  rcases (polls_advance prior (firstBatch_answered shown) later).2 (bootstrapped 5) (fun _ => 0) 0 with ⟨next,same,advances,_⟩ | ⟨raises,_⟩
  · cases answers.symm.trans same
    exact advances
  · cases answers.symm.trans raises

end BatchGateway.Polling
