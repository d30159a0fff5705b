import BatchGateway.Counters

-- What the row of a settled task reports: only a settlement writes it.
namespace BatchGateway.SettledRows
open PythonText PythonJson BatchOps Service LabelledRuns Records Counters

abbrev Report := BatchId × Option (TaskStatus × Option Int × Option Int)

def Task.report (t : Task) : Report :=
  (t.batchId,if settled t then some (t.status,t.promptTokens,t.completionTokens) else none)

theorem report_unsettled {t u : Task} (batch : u.batchId = t.batchId) (before : settled t = false)
    (after : settled u = false) : Task.report u = Task.report t := by
  simp [Task.report,batch,before,after]

variable {codec : Codec} {alpha : ℚ} {s t : Service} {op : Operation} {db after : Db}

theorem claimed_reports (load : Dispatcher.InFlight) (now : Instant) (db : Db) :
    (Dispatcher.claimAndAssign load now db).1.tasks.map Task.report = db.tasks.map Task.report := by
  refine Rows.map_mapIdx_same fun i t found => ?_
  rcases Dispatcher.startTask_parts load now db found with ⟨_,same⟩ | ⟨_,waiting,node,started⟩
  · rw [same]
  · rw [started]
    exact report_unsettled rfl (by simp [settled,waiting,settledStatus]) rfl

theorem recovered_reports (nodes : List Dispatcher.NodeConfig) (db : Db) :
    (Dispatcher.startup nodes db).tasks.map Task.report = db.tasks.map Task.report := by
  change (db.tasks.map Dispatcher.Task.recover).map Task.report = db.tasks.map Task.report
  rw [List.map_map]
  apply List.map_congr_left
  intro t _
  simp only [Function.comp_apply,Dispatcher.Task.recover]
  split
  · rename_i running
    exact report_unsettled rfl (by simp [settled,running,settledStatus]) rfl
  · rfl

theorem terminated_reports {user : UserId} {batch : BatchId} {terminal : BatchStatus} {note : String} {now : Instant}
    (done : terminateBatch user batch terminal note now db = .ok after) :
    after.tasks.map Task.report = db.tasks.map Task.report := by
  have stopped : (stopped (tasksToStop db batch) batch terminal now db).tasks.map Task.report =
      db.tasks.map Task.report := by
    change (stopTasks ((tasksToStop db batch).map Prod.snd) now db.tasks).map Task.report = _
    rw [stopTasks_live,List.map_map]
    apply List.map_congr_left
    intro t _
    simp only [Function.comp_apply]
    split
    · rename_i chosen
      exact report_unsettled rfl (live_unsettled (Bool.and_eq_true_iff.mp chosen).2) rfl
    · rfl
  rcases terminateSelected_parts done with ⟨_,rfl⟩ | ⟨_,_,_,_,_,rfl⟩
  · exact stopped
  · exact stopped

-- Everything but a settlement leaves every report as it is; a new task has none.
theorem step_reports (step : Step codec alpha s op t)
    (open_ : ∀ task body prompt completion now, op ≠ .completeTask task body prompt completion now)
    (unfailed : ∀ task error now, op ≠ .failTask task error now) :
    t.db.tasks.map Task.report = s.db.tasks.map Task.report ++ (createdTasks s op).map Task.report := by
  cases op with
  | grant =>
    obtain ⟨_,rfl⟩ := grant_posts step
    exact (List.append_nil _).symm
  | createBatch =>
    obtain ⟨db,created,rfl⟩ := create_step step
    obtain ⟨_,_,_,_,_,rfl⟩ := createBatch_parts created
    exact List.map_append
  | claimAndAssign load now =>
    cases step
    exact (claimed_reports load now s.db).trans (List.append_nil _).symm
  | completeTask => exact absurd rfl (open_ _ _ _ _ _)
  | failTask => exact absurd rfl (unfailed _ _ _)
  | cancelBatch =>
    obtain ⟨b,db,_,_,_,done,rfl⟩ := cancel_step step
    exact (terminated_reports done).trans (List.append_nil _).symm
  | expireBatch =>
    obtain ⟨b,db,_,_,done,rfl⟩ := expire_step step
    exact (terminated_reports done).trans (List.append_nil _).symm
  | purgeExpiredResults retentionDays now =>
    obtain ⟨_,_,tasks,_⟩ := purge_step step
    simp only [tasks,createdTasks,List.map_nil,List.append_nil]
  | startup nodes =>
    cases step
    exact (recovered_reports nodes s.db).trans (List.append_nil _).symm
  | uploadFile => cases step; exact (List.append_nil _).symm
  | applyHealthResults => cases step; exact (List.append_nil _).symm

theorem created_unsettled {row : Task} (created : row ∈ createdTasks s op) : settled row = false := by
  cases op with
  | createBatch =>
    obtain ⟨p,_,rfl⟩ := List.mem_map.mp created
    rfl
  | _ => cases created

end BatchGateway.SettledRows
