import BatchGateway.Counters
import BatchGateway.JsonText
import BatchGateway.Sessions

namespace BatchGateway.CrashSafety
open PythonText PythonJson BatchOps Sessions Counters LabelledRuns
open Service (Operation nodeWith submitShort claimPass)

-- A session whose settlement was the last of its batch and which has not yet
-- finalized it.
def due : Session → Bool
  | .settled _ _ _ copy => shouldFinalize copy
  | _ => false

def dueFor (batch : BatchId) : Session → Bool
  | .settled _ _ named copy => named == batch && shouldFinalize copy
  | _ => false

-- Submissions, claim passes and settlements with crashes and exceptions, none of
-- them between a batch's last settlement and its finalization.
def Finishes (w : World) : Action → Prop
  | .operation _ | .settle _ _ _ | .finalize _ _ | .lose _ => True
  | .abandon id => ∀ session ∈ w.sessions[id]?, due session = false
  | .restart _ => ∀ session ∈ w.sessions, due session = false
  | .readBatch _ _ | .readOverdue _ | .selectTasks _ _ | .terminate _ => False

instance (w : World) : (a : Action) → Decidable (Finishes w a)
  | .operation _ | .settle _ _ _ | .finalize _ _ | .lose _ => .isTrue trivial
  | .abandon id => inferInstanceAs (Decidable (∀ session ∈ w.sessions[id]?, due session = false))
  | .restart _ => inferInstanceAs (Decidable (∀ session ∈ w.sessions, due session = false))
  | .readBatch _ _ | .readOverdue _ | .selectTasks _ _ | .terminate _ => .isFalse id

structure Finishing (w : World) : Prop where
  progress : Progress w.service.db w.service.inFlight
  -- whoever settles the last task of an open batch still has to finalize it
  closing : ∀ i b, w.service.db.batches[i]? = some b → b.status = .inProgress →
    b.requestTotal ≤ b.requestCompleted + b.requestFailed → ∃ session ∈ w.sessions, dueFor i session = true

variable {codec : Codec} {alpha : ℚ} {w x : World}

theorem due_named {batch : BatchId} {session : Session} (named : dueFor batch session = true) : due session = true := by
  cases session with
  | settled => exact (Bool.and_eq_true_iff.mp named).2
  | _ => cases named

theorem closing_operation {s : Service} {op : Operation} (valid : Finishing w) (single : oneCommit op = true)
    (step : Service.Step codec alpha w.service op s) (i : BatchId) (b : Batch) (found : s.db.batches[i]? = some b)
    (open_ : b.status = .inProgress) (reached : b.requestTotal ≤ b.requestCompleted + b.requestFailed) :
    ∃ session ∈ w.sessions, dueFor i session = true := by
  rcases oneCommit_batches single step with same | ⟨user,inputFile,endpoint,window,lines,now,positive,added⟩
  · exact valid.closing i b (same ▸ found) open_ reached
  · rw [added] at found
    rcases Nat.lt_or_ge i w.service.db.batches.length with inside | outside
    · rw [List.getElem?_append_left inside] at found
      exact valid.closing i b found open_ reached
    · rw [List.getElem?_append_right outside] at found
      have fresh := List.mem_singleton.mp (List.mem_of_getElem? found)
      subst fresh
      have some_line := List.length_pos_iff.mpr (created_lines positive)
      exact absurd reached (Nat.not_le.mpr some_line)

theorem closing_settled {task : TaskId} {sink : Sink} {now : Instant} {db : Db} {own : Task} {copy : Batch}
    (valid : Finishing w) (done : sink.commit codec alpha task now w.service.db = .ok db)
    (kept : db.tasks[task]? = some own) (owned : db.batches[own.batchId]? = some copy)
    (i : BatchId) (b : Batch) (found : db.batches[i]? = some b) (open_ : b.status = .inProgress)
    (reached : b.requestTotal ≤ b.requestCompleted + b.requestFailed) :
    ∃ session ∈ w.sessions ++ [.settled task own own.batchId copy], dueFor i session = true := by
  obtain ⟨t,found_,tasks,moved,_⟩ := commit_parts done
  by_cases mine : own.batchId = i
  · subst mine
    rw [found] at owned
    cases owned
    refine ⟨_,List.mem_append_right _ (List.mem_singleton_self _),?_⟩
    simp [dueFor,shouldFinalize,open_,reached]
  · have elsewhere : w.service.db.batches[i]? = some b := by
      rw [tasks,Rows.getElem?_modify_self found_] at kept
      cases kept
      rw [settle_owner] at mine
      rw [moved,Rows.getElem?_modify_other mine] at found
      exact found
    obtain ⟨session,listed,still⟩ := valid.closing i b elsewhere open_ reached
    exact ⟨session,List.mem_append_left _ listed,still⟩

-- A session that is not the named one's stays where it is.
theorem closing_kept {id : Nat} {i : BatchId} {sessions : List Session}
    (waiting : ∃ session ∈ sessions, dueFor i session = true)
    (other : ∀ session ∈ sessions[id]?, dueFor i session = false) :
    ∃ session ∈ sessions.set id .closed, dueFor i session = true := by
  obtain ⟨session,listed,named⟩ := waiting
  obtain ⟨j,there⟩ := List.mem_iff_getElem?.mp listed
  have different : id ≠ j := by
    rintro rfl
    rw [other session there] at named
    cases named
  refine ⟨session,List.mem_of_getElem? (i := j) ?_,named⟩
  rw [List.getElem?_set_ne different,there]

theorem finishing_preserved {a : Action} (valid : Finishing w) (step : Guarded Finishes (Step codec alpha) w a x) :
    Finishing x := by
  obtain ⟨allowed,step⟩ := step
  cases a with
  | operation op =>
    obtain ⟨single,s,done,rfl⟩ := operation_step step
    exact ⟨step_progress valid.progress done,closing_operation (w := w) valid single done⟩
  | settle task sink now =>
    obtain ⟨flying,db,own,copy,done,kept,owned,rfl⟩ := settle_step step
    refine ⟨?_,closing_settled valid done kept owned⟩
    cases sink with
    | complete => exact progress_completed valid.progress flying done
    | fail => exact progress_failed valid.progress flying done
  | finalize id now =>
    obtain ⟨task,own,batch,copy,found,sessions,⟨early,same⟩ | ⟨due_,final,service,rfl⟩⟩ := finalize_step step
    · refine ⟨by rw [same]; exact valid.progress,fun i b there open_ reached => ?_⟩
      rw [same] at there
      rw [sessions]
      refine closing_kept (valid.closing i b there open_ reached) fun session here => ?_
      rw [found] at here
      cases here
      simp [dueFor,early]
    · refine ⟨?_,fun i b there open_ reached => ?_⟩
      · rw [service]
        exact progress_closed valid.progress rfl rfl (fun _ => rfl) (fun _ open_ => by cases open_)
      · rw [service] at there
        rw [sessions]
        have row : (w.service.db.batches.modify batch (Batch.finish w.service.db.files.length
            (errorFile w.service.db.files.length (sessionRows task own batch w.service.db)) now))[i]? = some b := there
        rw [List.getElem?_modify] at row
        obtain ⟨old,was,rfl⟩ := Option.map_eq_some_iff.mp row
        by_cases mine : batch = i
        · simp only [mine,if_true] at open_
          cases open_
        · simp only [mine,if_false] at open_ reached
          refine closing_kept (valid.closing i old was open_ reached) fun session here => ?_
          rw [found] at here
          cases here
          simp [dueFor,mine]
  | lose task =>
    cases step
    refine ⟨⟨valid.progress.owned,valid.progress.once.erase task,?_,valid.progress.counted,valid.progress.uncancelled⟩,
      valid.closing⟩
    intro i listed
    exact valid.progress.flying i (List.mem_of_mem_erase listed)
  | abandon id =>
    cases step
    refine ⟨valid.progress,fun i b there open_ reached => ?_⟩
    refine closing_kept (valid.closing i b there open_ reached) fun session here => ?_
    cases named : dueFor i session with
    | false => rfl
    | true =>
      have idle := allowed session here
      rw [due_named named] at idle
      cases idle
  | restart nodes =>
    cases step
    refine ⟨progress_recovered valid.progress nodes,fun i b there open_ reached => ?_⟩
    obtain ⟨session,listed,named⟩ := valid.closing i b there open_ reached
    have idle := allowed session listed
    rw [due_named named] at idle
    cases idle
  | readBatch => cases allowed
  | readOverdue => cases allowed
  | selectTasks => cases allowed
  | terminate => cases allowed

theorem initial_finishing : Finishing {} := by
  refine ⟨initial_progress,?_⟩
  intro i b found
  cases found

theorem run_finishing {actions : List Action} (path : Run (Guarded Finishes (Step codec alpha)) {} actions w) :
    Finishing w := path.preserves initial_finishing fun _ _ _ => finishing_preserved

-- After every restart each open batch still has a task to claim.
theorem restart_leaves_work {actions : List Action} {nodes : List Dispatcher.NodeConfig}
    (path : Run (Guarded Finishes (Step codec alpha)) {} (actions ++ [.restart nodes]) x)
    (i : BatchId) (b : Batch) (found : x.service.db.batches[i]? = some b) (open_ : b.status = .inProgress) :
    ∃ t ∈ x.service.db.tasks, t.batchId = i ∧ t.status = .pending := by
  obtain ⟨w,before,allowed,step⟩ := path.last
  have valid := run_finishing before
  cases step
  have row : w.service.db.batches[i]? = some b := found
  have short : b.requestCompleted + b.requestFailed < b.requestTotal := by
    by_contra reached
    obtain ⟨session,listed,named⟩ := valid.closing i b row open_ (Nat.not_lt.mp reached)
    have idle := allowed session listed
    rw [due_named named] at idle
    cases idle
  obtain ⟨t,member,mine,unsettled⟩ := counted_open (valid.progress.counted i b row) short
  refine ⟨Dispatcher.Task.recover t,List.mem_map_of_mem member,?_⟩
  have uncancelled := valid.progress.uncancelled t member b (mine.symm ▸ row) open_
  unfold Dispatcher.Task.recover
  cases status : t.status with
  | pending => simp [mine,status]
  | running => simp [mine]
  | completed => simp [settled,settledStatus,status] at unsettled
  | failed => simp [settled,settledStatus,status] at unsettled
  | cancelled => exact absurd status uncancelled

-- Two lines and one slot: the first is settled, the process dies, the second is left.
theorem restart_leaves_second_line : ∃ x : World,
    (x.service.db.batches[0]?.map Batch.requestCompleted) = some 1 ∧
    ∃ t ∈ x.service.db.tasks, t.batchId = 0 ∧ t.status = .pending := by
  have ran : (replay (checked Finishes (advance JsonText.codec (3/10))) ([.operation (.grant 1 30 none),.restart
      [⟨"node-a","http://node-a",1⟩],.operation (submitShort 1 2 0),.operation claimPass,
      .settle 0 (.complete .null 3 2) 0,.finalize 0 0,.operation claimPass] ++ [.restart []]) {}).any (fun x =>
      x.service.db.batches[0]?.any (fun b => b.status == .inProgress && b.requestCompleted == 1)) = true := by
    decide +kernel
  obtain ⟨x,path,facts⟩ := checked_reaches ran
  obtain ⟨b,found,facts⟩ := (Option.any_eq_true _ _).mp facts
  obtain ⟨open_,count⟩ := Bool.and_eq_true_iff.mp facts
  have path : Run (Guarded Finishes (Step JsonText.codec (3/10))) {} (_ ++ [.restart []]) x := path
  exact ⟨x,by simpa [found] using count,restart_leaves_work path 0 b found (eq_of_beq open_)⟩

-- The process dies between the charge of the last task and the finalization:
-- nothing is left to claim and nothing finalizes the batch any more.
def diesBeforeFinalization : List Action :=
  [.operation (.grant 1 30 none),.restart [⟨"node-a","http://node-a",1⟩],.operation (submitShort 1 1 0),
    .operation claimPass,.settle 0 (.complete .null 3 2) 0,.restart [⟨"node-a","http://node-a",1⟩]]

theorem restart_loses_results : ∃ x, Run (Step JsonText.codec (3/10)) {} diesBeforeFinalization x ∧
    (∃ b, x.service.db.batches[0]? = some b ∧ b.status = .inProgress) ∧
    (∀ t ∈ x.service.db.tasks, t.batchId = 0 ∧ t.status = .completed) ∧ x.service.db.tasks ≠ [] := by
  have ran : (replay (advance JsonText.codec (3/10)) diesBeforeFinalization {}).any (fun x =>
      x.service.db.batches[0]?.any (fun b => b.status == .inProgress) &&
        (x.service.db.tasks.all (fun t => t.batchId == 0 && t.status == .completed) &&
          !x.service.db.tasks.isEmpty)) = true := by decide +kernel
  obtain ⟨x,path,facts⟩ := replay_reaches ran
  obtain ⟨open_,facts⟩ := Bool.and_eq_true_iff.mp facts
  obtain ⟨settled_,some_task⟩ := Bool.and_eq_true_iff.mp facts
  obtain ⟨b,found,open_⟩ := (Option.any_eq_true _ _).mp open_
  refine ⟨x,path,⟨b,found,eq_of_beq open_⟩,fun t member => ?_,by simpa using some_task⟩
  simpa using List.all_eq_true.mp settled_ t member

end BatchGateway.CrashSafety
