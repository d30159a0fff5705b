import BatchGateway.JsonText
import BatchGateway.Sessions

namespace BatchGateway.StatusRaces
open PythonText PythonJson BatchOps Sessions LabelledRuns
open Service (Operation nodeWith submitShort claimPass)

def ended : BatchStatus → Bool
  | .completed | .cancelled | .expired => true
  | .validating | .inProgress | .finalizing | .failed | .cancelling => false

def endStamps (b : Batch) : List (Option Instant) := [b.completedAt,b.cancelledAt,b.expiredAt]

structure Stamped (b : Batch) : Prop where
  completed : b.completedAt.isSome = true → b.status = .completed
  cancelled : b.cancelledAt.isSome = true → b.status = .cancelled
  expired : b.expiredAt.isSome = true → b.status = .expired

-- The batch whose status a session's next commit writes, the status its copy had
-- when it was tested, and the status written.
structure StatusWrite where
  batch : BatchId
  tested : BatchStatus
  written : BatchStatus

def statusWrite : Session → Option StatusWrite
  | .settled _ _ batch copy => if shouldFinalize copy then some ⟨batch,copy.status,.completed⟩ else none
  | .terminating t _ => some ⟨t.batch,t.copy.status,t.terminal⟩
  | _ => none

def StatusWrite.finds (write : StatusWrite) (db : Db) : Prop :=
  (db.batches[write.batch]?).map Batch.status = some write.tested ∨
  (db.batches[write.batch]?).map Batch.status = some write.written

-- A status is written only where the committed row still has the tested one, or
-- already the written one.
def Current (w : World) : Action → Prop
  | .finalize id _ | .terminate id => ∀ write ∈ (w.sessions[id]?).bind statusWrite, write.finds w.service.db
  | _ => True

instance (write : StatusWrite) (db : Db) : Decidable (write.finds db) := inferInstanceAs (Decidable (_ ∨ _))

instance (w : World) : (a : Action) → Decidable (Current w a)
  | .finalize id _ | .terminate id =>
    inferInstanceAs (Decidable (∀ write ∈ (w.sessions[id]?).bind statusWrite, write.finds w.service.db))
  | .operation _ | .settle _ _ _ | .readBatch _ _ | .readOverdue _ | .selectTasks _ _ | .lose _ | .abandon _
  | .restart _ => .isTrue trivial

-- The tests a session has passed on its own copies.
def Tested : Session → Prop
  | .cancelling _ copy => cancellable copy.status = true
  | .expiring rows => ∀ row ∈ rows, cancellable row.1.status = true
  | .terminating t rest => cancellable t.copy.status = true ∧ (t.terminal = .cancelled ∨ t.terminal = .expired) ∧
      ∀ row ∈ rest, cancellable row.1.status = true
  | .settled _ _ _ _ | .closed => True

structure Clean (w : World) : Prop where
  sessions : ∀ session ∈ w.sessions, Tested session
  stamped : ∀ b ∈ w.service.db.batches, Stamped b

variable {codec : Codec} {alpha : ℚ} {w x : World} {a : Action}

theorem stamped_count {b : Batch} (valid : Stamped b) : (endStamps b).countP Option.isSome ≤ 1 := by
  obtain ⟨completed,cancelled,expired⟩ := valid
  simp only [endStamps,List.countP_cons,List.countP_nil]
  cases done : b.completedAt.isSome <;> cases stopped : b.cancelledAt.isSome <;> cases late : b.expiredAt.isSome <;>
    simp_all

theorem cancellable_open {status : BatchStatus} (allowed : cancellable status = true) : ended status = false := by
  cases status <;> first | rfl | cases allowed

theorem stamped_finished {b : Batch} (valid : Stamped b) (place : ended b.status = false ∨ b.status = .completed)
    (output : FileId) (errors : Option FileId) (now : Instant) : Stamped (Batch.finish output errors now b) := by
  refine ⟨fun _ => rfl,fun set => ?_,fun set => ?_⟩
  · have before := valid.cancelled set
    rcases place with open_ | done
    · rw [before] at open_
      cases open_
    · rw [before] at done
      cases done
  · have before := valid.expired set
    rcases place with open_ | done
    · rw [before] at open_
      cases open_
    · rw [before] at done
      cases done

theorem stamped_terminated {b : Batch} (valid : Stamped b) {terminal : BatchStatus}
    (kind : terminal = .cancelled ∨ terminal = .expired) (place : ended b.status = false ∨ b.status = terminal)
    (now : Instant) : Stamped (Batch.terminate terminal now b) := by
  have elsewhere : ∀ status, ended status = true → status ≠ terminal → b.status ≠ status := by
    rintro status end_ different rfl
    rcases place with open_ | same
    · rw [open_] at end_
      cases end_
    · exact different same
  rcases kind with rfl | rfl
  · refine ⟨fun set => ?_,fun _ => rfl,fun set => ?_⟩
    · exact absurd (valid.completed set) (elsewhere .completed rfl (by simp))
    · exact absurd (valid.expired set) (elsewhere .expired rfl (by simp))
  · refine ⟨fun set => ?_,fun set => ?_,fun _ => rfl⟩
    · exact absurd (valid.completed set) (elsewhere .completed rfl (by simp))
    · exact absurd (valid.cancelled set) (elsewhere .cancelled rfl (by simp))

-- What one step does to a batch row: an ended one keeps its status.
def Keeps (g : Batch → Batch) (b : Batch) : Prop :=
  (ended b.status = true → (g b).status = b.status) ∧ (Stamped b → Stamped (g b))

theorem keeps_written {g : Batch → Batch} {b : Batch} {written : BatchStatus} (writes : (g b).status = written)
    (place : ended b.status = false ∨ b.status = written) (stamped : Stamped b → Stamped (g b)) : Keeps g b := by
  refine ⟨fun end_ => ?_,stamped⟩
  rcases place with open_ | same
  · rw [open_] at end_
    cases end_
  · exact writes.trans same.symm

-- Where the row is that a current write finds.
theorem found_place {write : StatusWrite} {db : Db} {b : Batch} (finds : write.finds db)
    (there : db.batches[write.batch]? = some b) (open_ : ended write.tested = false) :
    ended b.status = false ∨ b.status = write.written := by
  simp only [StatusWrite.finds,there,Option.map_some,Option.some.injEq] at finds
  rcases finds with same | same
  · exact .inl (by rw [same]; exact open_)
  · exact .inr same

theorem keeps_id (b : Batch) : Keeps id b := ⟨fun _ => rfl,fun stamped => stamped⟩

theorem step_batches (valid : Clean w) (step : Guarded Current (Step codec alpha) w a x) : ∃ batch g added,
    x.service.db.batches = w.service.db.batches.modify batch g ++ added ∧ (∀ b ∈ added, Stamped b) ∧
    ∀ b, w.service.db.batches[batch]? = some b → Keeps g b := by
  obtain ⟨current,step⟩ := step
  have unchanged : x.service.db.batches = w.service.db.batches → ∃ batch g added,
      x.service.db.batches = w.service.db.batches.modify batch g ++ added ∧ (∀ b ∈ added, Stamped b) ∧
      ∀ b, w.service.db.batches[batch]? = some b → Keeps g b := fun same =>
    ⟨0,id,[],by rw [List.modify_id,List.append_nil,same],by simp,fun b _ => keeps_id b⟩
  cases a with
  | operation op =>
    obtain ⟨single,s,done,rfl⟩ := operation_step step
    rcases oneCommit_batches single done with same | ⟨user,inputFile,endpoint,window,lines,now,_,added⟩
    · exact unchanged same
    · refine ⟨0,id,_,by rw [List.modify_id]; exact added,?_,fun b _ => keeps_id b⟩
      intro b member
      rw [List.mem_singleton.mp member]
      exact ⟨by simp [newBatch],by simp [newBatch],by simp [newBatch]⟩
  | settle task sink now =>
    obtain ⟨_,db,own,copy,done,_,_,rfl⟩ := settle_step step
    obtain ⟨t,_,_,moved,_⟩ := commit_parts done
    refine ⟨t.batchId,sink.count,[],by rw [List.append_nil]; exact moved,by simp,fun b _ => ?_⟩
    refine ⟨fun _ => count_status sink b,fun stamped => ?_⟩
    cases sink with
    | complete => exact ⟨stamped.completed,stamped.cancelled,stamped.expired⟩
    | fail => exact ⟨stamped.completed,stamped.cancelled,stamped.expired⟩
  | finalize id now =>
    obtain ⟨task,own,batch,copy,found,_,⟨_,same⟩ | ⟨due,final,service,rfl⟩⟩ := finalize_step step
    · exact unchanged (by rw [same])
    · refine ⟨batch,_,[],by rw [service,List.append_nil]; rfl,by simp,fun b there => ?_⟩
      have finds := current ⟨batch,copy.status,.completed⟩ (by simp [found,statusWrite,due])
      have open_ : ended copy.status = false := by
        simp only [shouldFinalize,Bool.and_eq_true,beq_iff_eq] at due
        rw [due.1]
        rfl
      have place := found_place finds there open_
      exact keeps_written rfl place fun stamped => stamped_finished stamped place _ _ _
  | terminate id =>
    obtain ⟨t,rest,db,found,done,rfl⟩ := terminate_step step
    obtain ⟨allowed,kind,_⟩ := valid.sessions _ (List.mem_of_getElem? found)
    refine ⟨t.batch,Batch.terminate t.terminal t.now,[],?_,by simp,fun b there => ?_⟩
    · rw [List.append_nil]
      rcases terminateSelected_parts done with ⟨_,rfl⟩ | ⟨_,_,_,_,_,rfl⟩
      · rfl
      · rfl
    · have finds := current ⟨t.batch,t.copy.status,t.terminal⟩ (by simp [found,statusWrite])
      have place := found_place finds there (cancellable_open allowed)
      refine keeps_written ?_ place fun stamped => stamped_terminated stamped kind place _
      rcases kind with same | same
      · rw [same]
        rfl
      · rw [same]
        rfl
  | readBatch user batch =>
    obtain ⟨copy,_,_,rfl⟩ := readBatch_step step
    exact unchanged rfl
  | selectTasks id now =>
    obtain ⟨session,selected,_,_,rfl⟩ := selectTasks_step step
    exact unchanged rfl
  | readOverdue now => cases step; exact unchanged rfl
  | lose task => cases step; exact unchanged rfl
  | abandon id => cases step; exact unchanged rfl
  | restart nodes => cases step; exact unchanged rfl

theorem tested_set {id : Nat} {session : Session} (valid : Clean w) (here : Tested session) :
    ∀ other ∈ w.sessions.set id session, Tested other := by
  intro other member
  rcases List.mem_or_eq_of_mem_set member with old | rfl
  · exact valid.sessions other old
  · exact here

theorem tested_added {session : Session} (valid : Clean w) (here : Tested session) :
    ∀ other ∈ w.sessions ++ [session], Tested other := by
  intro other member
  rcases List.mem_append.mp member with old | new
  · exact valid.sessions other old
  · rw [List.mem_singleton.mp new]
    exact here

theorem step_sessions (valid : Clean w) (step : Step codec alpha w a x) : ∀ session ∈ x.sessions, Tested session := by
  cases a with
  | operation op =>
    obtain ⟨_,s,_,rfl⟩ := operation_step step
    exact valid.sessions
  | settle task sink now =>
    obtain ⟨_,db,own,copy,_,_,_,rfl⟩ := settle_step step
    exact tested_added valid trivial
  | finalize id now =>
    obtain ⟨_,_,_,_,_,sessions,_⟩ := finalize_step step
    rw [sessions]
    exact tested_set valid trivial
  | readBatch user batch =>
    obtain ⟨copy,_,allowed,rfl⟩ := readBatch_step step
    exact tested_added valid allowed
  | readOverdue now =>
    cases step
    refine tested_added valid fun row member => ?_
    have overdue := (List.mem_filter.mp member).2
    exact (Bool.and_eq_true_iff.mp overdue).1
  | selectTasks id now =>
    obtain ⟨session,selected,found,begun,rfl⟩ := selectTasks_step step
    have before := valid.sessions session (List.mem_of_getElem? found)
    obtain ⟨t,rest,rfl,_,_,⟨rfl,terminal,rfl⟩ | ⟨rfl,allowed,terminal⟩⟩ := beginTermination_parts begun
    · exact tested_set valid ⟨before,.inl terminal,by simp⟩
    · exact tested_set valid ⟨allowed,.inr terminal,fun row member => before row (List.mem_cons_of_mem _ member)⟩
  | terminate id =>
    obtain ⟨t,rest,db,found,_,rfl⟩ := terminate_step step
    obtain ⟨_,_,later⟩ := valid.sessions _ (List.mem_of_getElem? found)
    cases rest with
    | nil => exact tested_set valid trivial
    | cons row rest => exact tested_set valid later
  | lose task => cases step; exact valid.sessions
  | abandon id => cases step; exact tested_set valid trivial
  | restart nodes => cases step; simp

theorem clean_preserved (valid : Clean w) (step : Guarded Current (Step codec alpha) w a x) : Clean x := by
  refine ⟨step_sessions valid step.2,?_⟩
  obtain ⟨batch,g,added,batches,fresh,keeps⟩ := step_batches valid step
  intro b member
  rw [batches] at member
  rcases List.mem_append.mp member with old | new
  · rcases Rows.mem_modify old with before | ⟨before,there,rfl⟩
    · exact valid.stamped b before
    · exact (keeps before there).2 (valid.stamped before (List.mem_of_getElem? there))
  · exact fresh b new

theorem initial_clean : Clean {} := by
  refine ⟨?_,?_⟩
  · intro session member
    cases member
  · intro b member
    cases member

-- An ended batch under one step.
theorem step_ended (valid : Clean w) (step : Guarded Current (Step codec alpha) w a x) {i : BatchId} {b : Batch}
    (found : w.service.db.batches[i]? = some b) (end_ : ended b.status = true) :
    ∃ c, x.service.db.batches[i]? = some c ∧ c.status = b.status := by
  obtain ⟨batch,g,added,batches,_,keeps⟩ := step_batches valid step
  have inside : i < (w.service.db.batches.modify batch g).length := by
    rw [List.length_modify]
    exact (List.getElem?_eq_some_iff.mp found).choose
  rw [batches,List.getElem?_append_left inside,List.getElem?_modify,found]
  refine ⟨_,rfl,?_⟩
  split
  · rename_i mine
    exact (keeps b (mine ▸ found)).1 end_
  · rfl

-- No status is written over an end, and no batch ends in two ways.
theorem ended_batches_stay {before after : List Action} (reached : Run (Guarded Current (Step codec alpha)) {} before w)
    (later : Run (Guarded Current (Step codec alpha)) w after x) :
    (∀ (i : BatchId) b, w.service.db.batches[i]? = some b → ended b.status = true →
      ∃ c, x.service.db.batches[i]? = some c ∧ c.status = b.status) ∧
    ∀ b ∈ x.service.db.batches, (endStamps b).countP Option.isSome ≤ 1 := by
  have clean : Clean w := reached.preserves initial_clean fun _ _ _ => clean_preserved
  constructor
  · intro i b found end_
    have both : Clean x ∧ ∃ c, x.service.db.batches[i]? = some c ∧ c.status = b.status := by
      refine later.preserves (I := fun x => Clean x ∧ ∃ c, x.service.db.batches[i]? = some c ∧ c.status = b.status)
        ⟨clean,b,found,rfl⟩ ?_
      rintro s a t ⟨valid,c,here,same⟩ step
      obtain ⟨d,there,still⟩ := step_ended valid step here (by rw [same]; exact end_)
      exact ⟨clean_preserved valid step,d,there,still.trans same⟩
    exact both.2
  · intro b member
    exact stamped_count ((later.preserves clean fun _ _ _ => clean_preserved).stamped b member)

-- Batch 0 is settled and finalized, then batch 1 cancelled.
theorem ended_batches_stay_completed : ∃ w x : World, (w.service.db.batches[0]?.map Batch.status) = some .completed ∧
    (x.service.db.batches[1]?.map Batch.status) = some .cancelled ∧
    (∃ c, x.service.db.batches[0]? = some c ∧ c.status = .completed) ∧
    ∀ b ∈ x.service.db.batches, (endStamps b).countP Option.isSome ≤ 1 := by
  have ran : (replay (checked Current (advance JsonText.codec (3/10))) [.operation (.grant 1 30 none),
      .restart [⟨"node-a","http://node-a",1⟩],.operation (submitShort 1 1 0),.operation (submitShort 1 1 0),
      .operation claimPass,.settle 0 (.complete .null 3 2) 0,.finalize 0 0] {}).any (fun w =>
      w.service.db.batches[0]?.any (fun b => b.status == .completed) &&
        (replay (checked Current (advance JsonText.codec (3/10))) [.readBatch 1 1,.selectTasks 1 0,.terminate 1] w).any
          (fun x => decide ((x.service.db.batches[1]?.map Batch.status) = some .cancelled))) = true := by decide +kernel
  obtain ⟨w,reached,facts⟩ := checked_reaches ran
  obtain ⟨done,ran⟩ := Bool.and_eq_true_iff.mp facts
  obtain ⟨x,later,cancelled⟩ := checked_reaches ran
  obtain ⟨b,found,done⟩ := (Option.any_eq_true _ _).mp done
  have reached : Run (Guarded Current (Step JsonText.codec (3/10))) {} _ w := reached
  have status : b.status = .completed := eq_of_beq done
  obtain ⟨stays,once⟩ := ended_batches_stay reached later
  obtain ⟨c,there,same⟩ := stays 0 b found (by rw [status]; rfl)
  exact ⟨w,x,by rw [found,Option.map_some,status],of_decide_eq_true cancelled,⟨c,there,same.trans status⟩,once⟩

-- A cancel request reads the batch while its last task runs; the batch is
-- completed before the request selects the tasks to stop and commits.
def cancelsCompleted : List Action :=
  [.operation (.grant 1 30 none),.restart [⟨"node-a","http://node-a",1⟩],.operation (submitShort 1 1 0),
    .operation claimPass,.readBatch 1 0,.settle 0 (.complete .null 3 2) 5,.finalize 1 6]

theorem completed_batch_cancelled : ∃ w x : World, Run (Step JsonText.codec (3/10)) {} cancelsCompleted w ∧
    Run (Step JsonText.codec (3/10)) w [.selectTasks 0 7,.terminate 0] x ∧
    (w.service.db.batches[0]?.map Batch.status) = some .completed ∧
    (x.service.db.batches[0]?.map (fun b => (b.status,endStamps b))) = some (.cancelled,[some 6,some 7,none]) := by
  have ran : (replay (advance JsonText.codec (3/10)) cancelsCompleted {}).any (fun w =>
      decide ((w.service.db.batches[0]?.map Batch.status) = some .completed) &&
        (replay (advance JsonText.codec (3/10)) [.selectTasks 0 7,.terminate 0] w).any (fun x =>
          decide ((x.service.db.batches[0]?.map (fun b => (b.status,endStamps b))) =
            some (.cancelled,[some 6,some 7,none])))) = true := by decide +kernel
  obtain ⟨w,reached,facts⟩ := replay_reaches ran
  obtain ⟨completed,ran⟩ := Bool.and_eq_true_iff.mp facts
  obtain ⟨x,later,cancelled⟩ := replay_reaches ran
  exact ⟨w,x,reached,later,of_decide_eq_true completed,of_decide_eq_true cancelled⟩

end BatchGateway.StatusRaces
