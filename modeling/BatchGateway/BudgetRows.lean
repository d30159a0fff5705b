import BatchGateway.Service

-- The budget rows of a run: every column fits, none is negative, each is the sum of
-- its entries.
namespace BatchGateway.BudgetRows
open PythonText PythonJson Raising BatchOps Service LabelledRuns
open Ledger (Request perform)

structure Sized (db : Db) : Prop where
  fits : ∀ user, (db.getOrCreateBudget user).fits = true
  nonnegative : ∀ user, Ledger.Budget.Nonnegative (db.getOrCreateBudget user)

variable {codec : Codec} {alpha : ℚ} {s t : Service} {op : Operation} {db base after : Db}

theorem Sized.same (valid : Sized db) (budgets : after.budgets = db.budgets) : Sized after := by
  have rows : ∀ user, after.getOrCreateBudget user = db.getOrCreateBudget user := by
    intro user
    simp only [Db.getOrCreateBudget,budgets]
  exact ⟨fun user => by rw [rows]; exact valid.fits user,fun user => by rw [rows]; exact valid.nonnegative user⟩

-- A call keeps the rows in size: its commit tests the row it writes.
theorem sized_perform {flush : Except Raised Unit} (request : Request) (valid : Sized base)
    (manual : ∀ before row entry, request.call.move before = .ok (row,entry) → entry.entryType ≠ .adjust)
    (done : perform flush request.call base = .ok after) : Sized after := by
  obtain ⟨checked,_,row,entry,moved,fits,_,rfl⟩ := Ledger.perform_parts done
  have kept := Ledger.move_nonnegative checked moved (manual _ _ _ moved) (valid.nonnegative _)
  have written : ∀ user, (Ledger.post base request.call.user row entry).getOrCreateBudget user =
      if user = request.call.user then row else base.getOrCreateBudget user := by
    intro user
    by_cases mine : user = request.call.user
    · subst mine
      simp [Ledger.post,Db.getOrCreateBudget]
    · simp [Ledger.post,Db.getOrCreateBudget,mine]
  refine ⟨fun user => ?_,fun user => ?_⟩
  · rw [written]
    split
    · exact fits
    · exact valid.fits user
  · rw [written]
    split
    · exact kept
    · exact valid.nonnegative user

theorem sized_release {user : UserId} {tokens : Int} {batchId : Option BatchId} {taskId : Option TaskId}
    {note : Option Str} (valid : Sized base)
    (done : perform (.ok ()) (Ledger.release user tokens batchId taskId note) base = .ok after) : Sized after :=
  sized_perform (.release user tokens batchId taskId note) valid
    (fun before row entry moved => by cases moved; simp) done

theorem sized_charge {user : UserId} {hold actual : Int} {batchId : Option BatchId} {taskId : Option TaskId}
    {note : Option Str} (valid : Sized base)
    (done : perform (.ok ()) (Ledger.charge user hold actual batchId taskId note) base = .ok after) : Sized after :=
  sized_perform (.charge user hold actual batchId taskId note) valid
    (fun before row entry moved => by cases moved; simp) done

theorem sized_completed {task : TaskId} {responseBody : Json} {promptTokens completionTokens : Int} {now : Instant}
    (valid : Sized db) (done : commitCompleted codec alpha task responseBody promptTokens completionTokens now db = .ok after) :
    Sized after := by
  obtain ⟨_,_,_,_,_,_,_,performed⟩ := commitCompleted_performs done
  refine sized_charge ?_ performed
  exact valid.same rfl

theorem sized_failed {task : TaskId} {error : Str} {now : Instant} (valid : Sized db)
    (done : commitFailed task error now db = .ok after) : Sized after := by
  obtain ⟨_,_,_,_,_,⟨_,rfl⟩ | ⟨_,performed⟩⟩ := commitFailed_performs done
  · exact valid.same rfl
  · refine sized_release ?_ performed
    exact valid.same rfl

theorem sized_terminated {batch : BatchId} {user : UserId} {terminal : BatchStatus} {note : String} {now : Instant}
    (valid : Sized db) (done : terminateBatch user batch terminal note now db = .ok after) : Sized after := by
  unfold terminateBatch terminateSelected at done
  split at done
  · refine sized_release ?_ done
    exact valid.same rfl
  · cases done
    exact valid.same rfl

theorem sized_finalized {task : TaskId} {now : Instant} {blobs : Blobs} (valid : Sized db) :
    Sized (finalizeAfter codec task now db blobs).1 := by
  rcases finalizeAfter_parts codec task now db blobs with same | ⟨_,_,_,_,_,same⟩
  · rw [same]
    exact valid
  · rw [same]
    exact valid.same rfl

theorem step_sized (valid : Sized s.db) (step : Step codec alpha s op t) : Sized t.db := by
  cases op with
  | grant user tokens note =>
    obtain ⟨db,granted,rfl⟩ := grant_step step
    exact sized_perform (.grant user tokens note) valid (fun before row entry moved => by cases moved; simp) granted
  | createBatch user inputFile endpoint window lines now =>
    obtain ⟨db,created,rfl⟩ := create_step step
    obtain ⟨_,performed,same⟩ := bind_ok created
    cases same
    refine sized_perform (.reserve user _ _ _) ?_ (fun before row entry moved => ?_) performed
    · exact valid.same rfl
    simp only [Request.call,Ledger.reserve] at moved
    split at moved
    · cases moved
    · cases moved
      simp
  | completeTask =>
    obtain ⟨_,db,committed,rfl⟩ := complete_step step
    exact sized_finalized (sized_completed valid committed)
  | failTask =>
    obtain ⟨_,db,committed,rfl⟩ := fail_step step
    exact sized_finalized (sized_failed valid committed)
  | cancelBatch =>
    obtain ⟨_,db,_,_,_,done,rfl⟩ := cancel_step step
    exact sized_terminated valid done
  | expireBatch =>
    obtain ⟨_,db,_,_,done,rfl⟩ := expire_step step
    exact sized_terminated valid done
  | purgeExpiredResults retentionDays now =>
    obtain ⟨budgets,_⟩ := purge_step step
    exact valid.same budgets
  | uploadFile => cases step; exact valid.same rfl
  | claimAndAssign => cases step; exact valid.same rfl
  | applyHealthResults => cases step; exact valid.same rfl
  | startup => cases step; exact valid.same rfl

theorem run_sized {operations : List Operation} (path : Run (Step codec alpha) {} operations s) : Sized s.db :=
  path.preserves (I := fun s => Sized s.db)
    ⟨fun _ => rfl,fun _ => ⟨le_rfl,le_rfl,le_rfl⟩⟩ fun _ _ _ => step_sized

theorem perform_reconciled {flush : Except Raised Unit} (request : Ledger.Request) (valid : Ledger.Reconciled db)
    (done : Ledger.perform flush request.call db = .ok after) : Ledger.Reconciled after := by
  obtain ⟨_,_,row,entry,moved,_,_,rfl⟩ := Ledger.perform_parts done
  exact Ledger.reconciled_post valid (Ledger.move_balanced moved)

theorem terminated_reconciled {user : UserId} {batch : BatchId} {terminal : BatchStatus} {note : String} {now : Instant}
    (valid : Ledger.Reconciled db) (done : terminateBatch user batch terminal note now db = .ok after) : Ledger.Reconciled after := by
  unfold terminateBatch terminateSelected at done
  have rows : Ledger.Reconciled (stopped (tasksToStop db batch) batch terminal now db) := valid
  split at done
  · exact perform_reconciled (.release user _ (some batch) none (some (text note))) rows done
  · cases done
    exact rows

theorem finalized_reconciled (task : TaskId) (now : Instant) (blobs : Blobs) (valid : Ledger.Reconciled db) :
    Ledger.Reconciled (finalizeAfter codec task now db blobs).1 := by
  rcases finalizeAfter_parts codec task now db blobs with same | ⟨_,_,_,_,_,same⟩
  · rw [same]
    exact valid
  · rw [same]
    exact valid

-- Every Budget row is the sum of its entries, whatever the service does.
theorem step_reconciled (valid : Ledger.Reconciled s.db) (step : Step codec alpha s op t) : Ledger.Reconciled t.db := by
  cases op with
  | grant user tokens note =>
    obtain ⟨after,granted,rfl⟩ := grant_step step
    exact perform_reconciled (.grant user tokens note) valid granted
  | createBatch user f endpoint window lines now =>
    obtain ⟨after,created,rfl⟩ := create_step step
    unfold createBatch at created
    obtain ⟨reserved,done,same⟩ := bind_ok created
    cases same
    have rows : Ledger.Reconciled (addBatch s.db (newBatch user f endpoint window lines now) lines) := valid
    exact perform_reconciled (.reserve user _ _ _) rows done
  | completeTask task responseBody promptTokens completionTokens now =>
    obtain ⟨_,after,committed,rfl⟩ := complete_step step
    obtain ⟨row,b,stat,_,_,_,_,done⟩ := commitCompleted_performs committed
    have rows : Ledger.Reconciled {(s.db.updateTask task (Task.complete responseBody promptTokens completionTokens now)).updateBatch
        row.batchId Batch.countCompleted with stat := stat} := valid
    exact finalized_reconciled task now s.blobs (perform_reconciled (.charge b.userId _ _ _ _ none) rows done)
  | failTask task error now =>
    obtain ⟨_,after,committed,rfl⟩ := fail_step step
    obtain ⟨row,b,_,_,_,⟨_,rfl⟩ | ⟨_,done⟩⟩ := commitFailed_performs committed
    · exact finalized_reconciled task now s.blobs valid
    · have rows : Ledger.Reconciled ((s.db.updateTask task (Task.fail error now)).updateBatch row.batchId Batch.countFailed) := valid
      exact finalized_reconciled task now s.blobs (perform_reconciled (.release b.userId _ _ _ _) rows done)
  | cancelBatch =>
    obtain ⟨_,after,_,_,_,done,rfl⟩ := cancel_step step
    exact terminated_reconciled valid done
  | expireBatch =>
    obtain ⟨_,after,_,_,done,rfl⟩ := expire_step step
    exact terminated_reconciled valid done
  | purgeExpiredResults =>
    obtain ⟨budgets,ledger,_⟩ := purge_step step
    intro user
    have row := valid user
    simp only [Ledger.recomputeBudget,Db.getOrCreateBudget,ledger,budgets] at row ⊢
    exact row
  | uploadFile => cases step; exact valid
  | claimAndAssign => cases step; exact valid
  | applyHealthResults => cases step; exact valid
  | startup => cases step; exact valid

theorem run_reconciled {operations : List Operation} (path : Run (Step codec alpha) {} operations s) : Ledger.Reconciled s.db :=
  path.preserves (I := fun s => Ledger.Reconciled s.db) (fun _ => rfl) fun _ _ _ => step_reconciled

-- A release of a positive hold cannot raise, nor a charge that the used column
-- has room for.
theorem release_returns {user : UserId} {tokens : Int} {batchId : Option BatchId} {taskId : Option TaskId}
    {note : Option Str} (valid : Sized db) (held : 0 < tokens) :
    ∃ after, perform (.ok ()) (Ledger.release user tokens batchId taskId note) db = .ok after := by
  have checked : (Ledger.release user tokens batchId taskId note).check = .ok () := if_neg (Int.not_le.mpr held)
  have fits := valid.fits user
  obtain ⟨_,reserved,_⟩ := valid.nonnegative user
  refine ⟨_,Ledger.perform_ok _ checked rfl ?_⟩
  simp only [Ledger.release,Budget.fits,LedgerEntry.fits,Bool.and_eq_true,fits_iff] at fits ⊢
  omega

end BatchGateway.BudgetRows
