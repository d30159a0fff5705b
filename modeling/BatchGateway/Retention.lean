import BatchGateway.BatchOps

namespace BatchGateway.Retention
open BatchOps

-- _TERMINAL_TIMESTAMP_FIELDS; none for a status that is not terminal.
def terminalTimestamp (b : Batch) : Option (Option Instant) :=
  match b.status with
  | .completed => some b.completedAt
  | .failed => some b.failedAt
  | .cancelled => some b.cancelledAt
  | .expired => some b.expiredAt
  | _ => none

def overdue (now : Instant) (b : Batch) : Bool :=
  cancellable b.status && b.expiresAt.any (fun expiresAt => decide (expiresAt < now))

def overdueBatches (now : Instant) (db : Db) : List (Batch × BatchId) :=
  db.batches.zipIdx.filter (fun row => overdue now row.1)

def purgeDue (retentionDays : Int) (now : Instant) (b : Batch) : Bool :=
  b.purgedAt.isNone &&
    match terminalTimestamp b with
    | some (some terminalAt) => decide (terminalAt ≤ now - days retentionDays)
    | _ => false

def Batch.purge (now : Instant) (b : Batch) : Batch :=
  {b with outputFileId := none,errorFileId := none,purgedAt := some now}

-- db.get finds no row behind a reference that was never set.
def deleteFile (file : Option FileId) (files : List (Option FileObject)) : List (Option FileObject) :=
  match file with
  | none => files
  | some f => files.modify f (fun _ => none)

-- _delete_file with an unlink that succeeds.
def unlinkBlob (file : Option FileId) (files : List (Option FileObject)) (blobs : Blobs) : Blobs :=
  match file with
  | none => blobs
  | some f => if (files[f]?).join.isSome then Function.update blobs f none else blobs

def purgeBatch (now : Instant) (row : Batch × BatchId) (db : Db) (blobs : Blobs) : Db × Blobs :=
  ({db.updateBatch row.2 (Batch.purge now) with
      files := deleteFile row.1.errorFileId (deleteFile row.1.outputFileId db.files)},
    unlinkBlob row.1.errorFileId db.files (unlinkBlob row.1.outputFileId db.files blobs))

def purgeAll (now : Instant) : List (Batch × BatchId) → Db → Blobs → Db × Blobs
  | [], db, blobs => (db,blobs)
  | row :: rest, db, blobs =>
    let (db,blobs) := purgeBatch now row db blobs
    purgeAll now rest db blobs

def purgeExpiredResults (retentionDays : Int) (now : Instant) (db : Db) (blobs : Blobs) : Db × Blobs :=
  purgeAll now (db.batches.zipIdx.filter (fun row => purgeDue retentionDays now row.1)) db blobs

-- The rows still to purge are as they were read.
theorem purgeBatch_read {row : Batch × BatchId} {rows : List (Batch × BatchId)} {db : Db} {now : Instant} (blobs : Blobs)
    (distinct : ((row :: rows).map Prod.snd).Nodup) {next : Batch × BatchId} (member : next ∈ rows)
    (read : db.batches[next.2]? = some next.1) : (purgeBatch now row db blobs).1.batches[next.2]? = some next.1 := by
  have different : row.2 ≠ next.2 := fun same => (List.nodup_cons.mp distinct).1 (same ▸ List.mem_map_of_mem member)
  exact (Rows.getElem?_modify_other different _).trans read

-- A purge writes batches, files and blobs only.
theorem purgeAll_tables (now : Instant) (rows : List (Batch × BatchId)) (db : Db) (blobs : Blobs) :
    (purgeAll now rows db blobs).1.budgets = db.budgets ∧ (purgeAll now rows db blobs).1.ledger = db.ledger ∧
    (purgeAll now rows db blobs).1.tasks = db.tasks ∧ (purgeAll now rows db blobs).1.nodes = db.nodes := by
  induction rows generalizing db blobs with
  | nil => exact ⟨rfl,rfl,rfl,rfl⟩
  | cons row rows ih => exact ih _ _

-- A column of the batches that a purge does not write.
theorem purgeAll_column {κ : Type} (g : Batch → κ) (now : Instant) (same : ∀ b, g (Batch.purge now b) = g b)
    (rows : List (Batch × BatchId)) (db : Db) (blobs : Blobs) :
    (purgeAll now rows db blobs).1.batches.map g = db.batches.map g := by
  induction rows generalizing db blobs with
  | nil => rfl
  | cons row rows ih => exact (ih _ _).trans (Rows.map_modify_same same)

end BatchGateway.Retention
