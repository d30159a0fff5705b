import BatchGateway.JsonText
import BatchGateway.Sessions

-- The files of the service at the granularity of disk writes, unlinks and commits.
-- A file gets its number when its blob is written; the slot stays empty until the
-- row is committed.
namespace BatchGateway.FileSessions
open PythonText PythonJson Raising BatchOps Service Sessions Retention LabelledRuns

-- A blob still to be written, with what its row will say of it.
structure Planned where
  purpose : FilePurpose
  filename : FileName
  data : Bytes

-- create_file, or _maybe_finalize_batch past its tests: the rows wait for its one commit.
structure Writing where
  user : UserId
  now : Instant
  todo : List Planned
  rows : List (FileId × FileObject) := []
  batch : Option BatchId := none

def Writing.ids (wr : Writing) : List FileId := wr.rows.map Prod.fst

def Planned.row (user : UserId) (now : Instant) (p : Planned) : FileObject := fileRow user p.purpose p.filename p.data now

-- purge_expired_results: the candidates still to do, the batches it has flushed, the
-- files of the last of them still to unlink, the rows it deletes with its one commit,
-- and those of them whose blob is gone.
structure Purge where
  now : Instant
  due : List (Batch × BatchId)
  marked : List BatchId := []
  files : List FileId := []
  deleted : List FileId := []
  gone : List FileId := []

-- `written` is what write_blob was given for a file.
structure Store where
  world : World := {}
  writing : List (Option Writing) := []
  purge : Option Purge := none
  written : FileId → Option Bytes := fun _ => none

abbrev Store.db (s : Store) : Db := s.world.service.db
abbrev Store.blobs (s : Store) : Blobs := s.world.service.blobs

def Store.onDisk (s : Store) (db : Db) (blobs : Blobs) : Store :=
  {s with world := {s.world with service := {s.world.service with db := db,blobs := blobs}}}

inductive ReadError where
  | raised (e : Raised)
  | fileNotFoundError

-- get_file_content
def getFileContent (user : UserId) (file : FileId) (s : Store) : Except ReadError Bytes :=
  match getOwnedFileOr404 s.db user file with
  | .error e => .error (.raised e)
  | .ok _ => match s.blobs file with
    | some data => .ok data
    | none => .error .fileNotFoundError

inductive Action where
  -- whatever neither writes nor deletes a file
  | world (a : Sessions.Action)
  | upload (user : UserId) (name : Str) (data : Bytes) (now : Instant)
  | finalize (id : Nat) (now : Instant)
  | write (id : Nat)
  -- the disk fails in the middle of a write
  | tear (id : Nat) (part : Bytes)
  | commit (id : Nat)
  | fail (id : Nat)
  | purge (retentionDays : Int) (now : Instant)
  | purgeBatch
  -- _delete_file, which swallows an OSError
  | unlink (succeeds : Bool)
  | commitPurge
  | failPurge
  -- the process dies, and the next one runs Dispatcher.startup
  | crash (nodes : List Dispatcher.NodeConfig)

def leavesFiles : Sessions.Action → Bool
  | .operation (.uploadFile _ _ _ _) | .finalize _ _ | .restart _ => false
  | _ => true

variable (codec : Codec) (alpha : ℚ)

def plannedResults (batch : BatchId) (rows : List (Task × TaskId)) : List Planned :=
  ⟨.batchOutput,.output batch,outputBytes codec rows⟩ ::
    if failedRows rows = [] then [] else [⟨.batchError,.errors batch,errorBytes codec rows⟩]

def beginFinalize (id : Nat) (now : Instant) (s : Store) : Session → Option Store
  | .settled task own batch copy =>
    if shouldFinalize copy then
      some {s with
        world := {s.world with sessions := s.world.sessions.set id .closed}
        writing := s.writing ++ [some {
          user := copy.userId
          now := now
          todo := plannedResults codec batch (sessionRows task own batch s.db)
          batch := some batch}]}
    else none
  | _ => none

-- write_blob, then db.add
def writeNext (id : Nat) (wr : Writing) (planned : Planned) (rest : List Planned) (s : Store) : Store :=
  let file := s.db.files.length
  {s.onDisk {s.db with files := s.db.files ++ [none]} (writeBlob s.blobs file planned.data) with
    writing := s.writing.set id (some {wr with
      todo := rest
      rows := wr.rows ++ [(file,planned.row wr.user wr.now)]})
    written := Function.update s.written file (some planned.data)}

def tearNext (id : Nat) (part : Bytes) (s : Store) : Store :=
  {s.onDisk {s.db with files := s.db.files ++ [none]} (writeBlob s.blobs s.db.files.length part) with
    writing := s.writing.set id none}

def put (rows : List (FileId × FileObject)) (files : List (Option FileObject)) : List (Option FileObject) :=
  rows.foldl (fun files row => files.set row.1 (some row.2)) files

-- The UPDATE of the batch row a finalization ends with.
def Writing.finish (wr : Writing) (db : Db) : Db :=
  match wr.batch,wr.rows with
  | some batch,output :: rest => db.updateBatch batch (Batch.finish output.1 (rest.head?.map Prod.fst) wr.now)
  | _,_ => db

def commitWriting (id : Nat) (wr : Writing) (s : Store) : Store :=
  {s.onDisk (wr.finish {s.db with files := put wr.rows s.db.files}) s.blobs with writing := s.writing.set id none}

-- db.get finds a row that this session has not deleted.
def Purge.present (p : Purge) (db : Db) (file : FileId) : Bool :=
  (db.files[file]?).join.isSome && !decide (file ∈ p.deleted)

def nextBatch (row : Batch × BatchId) (rest : List (Batch × BatchId)) (db : Db) (p : Purge) : Purge :=
  {p with
    due := rest
    marked := p.marked ++ [row.2]
    files := (row.1.outputFileId.toList ++ row.1.errorFileId.toList).filter (p.present db)}

def unlinkNext (succeeds : Bool) (file : FileId) (rest : List FileId) (p : Purge) : Purge :=
  {p with
    files := rest
    deleted := p.deleted ++ [file]
    gone := if succeeds then p.gone ++ [file] else p.gone}

def clear (deleted : List FileId) (files : List (Option FileObject)) : List (Option FileObject) :=
  files.mapIdx (fun i row => if i ∈ deleted then none else row)

def markPurged (now : Instant) (marked : List BatchId) (batches : List Batch) : List Batch :=
  marked.foldl (fun batches batch => batches.modify batch (Batch.purge now)) batches

def Purge.commit (p : Purge) (db : Db) : Db :=
  {db with batches := markPurged p.now p.marked db.batches,files := clear p.deleted db.files}

def advance : Action → Store → Option Store
  | .world a, s =>
    if leavesFiles a then (Sessions.advance codec alpha a s.world).map (fun w => {s with world := w}) else none
  | .upload user name data now, s =>
    some {s with writing := s.writing ++ [some {user := user,now := now,todo := [⟨.batchInput,.upload name,data⟩]}]}
  | .finalize id now, s => s.world.sessions[id]?.bind (beginFinalize codec id now s)
  | .write id, s => match s.writing[id]? with
    | some (some wr) => match wr.todo with
      | planned :: rest => some (writeNext id wr planned rest s)
      | [] => none
    | _ => none
  | .tear id part, s => some (tearNext id part s)
  | .commit id, s => match s.writing[id]? with
    | some (some wr) => if wr.todo.isEmpty then some (commitWriting id wr s) else none
    | _ => none
  | .fail id, s => some {s with writing := s.writing.set id none}
  | .purge retentionDays now, s => match s.purge with
    | none => some {s with purge := some {
        now := now
        due := s.db.batches.zipIdx.filter (fun row => purgeDue retentionDays now row.1)}}
    | some _ => none
  | .purgeBatch, s => s.purge.bind (fun p => match p.files,p.due with
    | [],row :: rest => some {s with purge := some (nextBatch row rest s.db p)}
    | _,_ => none)
  | .unlink succeeds, s => s.purge.bind (fun p => match p.files with
    | file :: rest => some {s.onDisk s.db (if succeeds then Function.update s.blobs file none else s.blobs) with
        purge := some (unlinkNext succeeds file rest p)}
    | [] => none)
  | .commitPurge, s => s.purge.bind (fun p =>
    if p.files.isEmpty && p.due.isEmpty then some {s.onDisk (p.commit s.db) s.blobs with purge := none} else none)
  | .failPurge, s => some {s with purge := none}
  | .crash nodes, s =>
    some {
      world := {service := {s.world.service with db := Dispatcher.startup nodes s.db,inFlight := []}}
      written := s.written}

def Step (s : Store) (a : Action) (t : Store) : Prop := advance codec alpha a s = some t

-- What every open transaction leaves when it is rolled back.
def Store.rollback (s : Store) : Store :=
  {s with world := {s.world with sessions := []},writing := [],purge := none}

-- Each committed row can be read by its owner, with the bytes written for it.
def InStep (s : Store) : Prop := ∀ file row, s.db.files[file]? = some (some row) →
  ∃ data, s.written file = some data ∧ getFileContent row.userId file s = .ok data

-- The blobs an open purge has unlinked.
def Store.unlinked (s : Store) : List FileId := (s.purge.map Purge.gone).getD []

-- No exception and no death between a purge's first unlink and its commit.
def Undisturbed (s : Store) : Action → Prop
  | .failPurge | .crash _ => s.unlinked = []
  | _ => True

instance (s : Store) : (a : Action) → Decidable (Undisturbed s a)
  | .failPurge | .crash _ => inferInstanceAs (Decidable (s.unlinked = []))
  | .world _ | .upload .. | .finalize .. | .write _ | .tear .. | .commit _ | .fail _ | .purge .. | .purgeBatch
  | .unlink _ | .commitPurge => .isTrue trivial

-- A file with its bytes on disk.
def Backed (s : Store) (file : FileId) : Prop := ∃ data, s.written file = some data ∧ s.blobs file = some data

structure Valid (s : Store) : Prop where
  -- a row that waits has an empty slot of its own and its blob is written
  waiting : ∀ (id : Nat) (wr : Writing), s.writing[id]? = some (some wr) →
    ∀ file ∈ wr.ids, s.db.files[file]? = some none ∧ Backed s file
  apart : ∀ (i j : Nat) (wr other : Writing), s.writing[i]? = some (some wr) → s.writing[j]? = some (some other) →
    ∀ file ∈ wr.ids, file ∈ other.ids → i = j
  deleting : ∀ p, s.purge = some p → ∀ file ∈ p.files ++ p.deleted, ∃ row, s.db.files[file]? = some (some row)
  missing : ∀ p, s.purge = some p → ∀ file ∈ p.gone, file ∈ p.deleted ∧ s.blobs file = none
  kept : ∀ file row, s.db.files[file]? = some (some row) → file ∉ s.unlinked → Backed s file

variable {codec alpha} {s t : Store}

theorem read_backed {file : FileId} {row : FileObject} (visible : s.db.files[file]? = some (some row)) {data : Bytes} :
    getFileContent row.userId file s = .ok data ↔ s.blobs file = some data := by
  unfold getFileContent getOwnedFileOr404
  rw [visible]
  simp only [Option.join_some,if_true]
  cases s.blobs file <;> simp

theorem inStep_backed : InStep s ↔ ∀ file row, s.db.files[file]? = some (some row) → Backed s file := by
  unfold InStep
  refine forall_congr' fun file => forall_congr' fun row => forall_congr' fun visible => ?_
  simp only [read_backed visible,Backed]

-- In a valid state only the blobs an open purge has unlinked can be missing.
theorem inStep_iff (valid : Valid s) : InStep s.rollback ↔ s.unlinked = [] := by
  have same : InStep s.rollback ↔ InStep s := Iff.rfl
  rw [same,inStep_backed]
  constructor
  · intro backed
    cases open_ : s.purge with
    | none => simp [Store.unlinked,open_]
    | some p =>
      have none_gone : p.gone = [] := by
        refine List.eq_nil_iff_forall_not_mem.mpr fun file gone => ?_
        obtain ⟨deleted,missing⟩ := valid.missing p open_ file gone
        obtain ⟨row,visible⟩ := valid.deleting p open_ file (List.mem_append_right _ deleted)
        obtain ⟨data,_,there⟩ := backed file row visible
        rw [missing] at there
        cases there
      simp [Store.unlinked,open_,none_gone]
  · intro whole file row visible
    exact valid.kept file row visible (by simp [whole])

theorem initial_valid : Valid {} := by
  refine ⟨?_,?_,?_,?_,?_⟩ <;> simp

-- What neither touches the files nor the sessions that write them.
theorem valid_frame (valid : Valid s) (files : t.db.files = s.db.files) (blobs : t.blobs = s.blobs)
    (writing : t.writing = s.writing) (purge : t.purge = s.purge) (written : t.written = s.written) : Valid t := by
  have backed : ∀ {file}, Backed s file → Backed t file := by
    rintro file ⟨data,gave,there⟩
    exact ⟨data,by rw [written,gave],by rw [blobs,there]⟩
  refine ⟨fun id wr listed file member => ?_,?_,?_,?_,fun file row visible apart => ?_⟩
  · rw [writing] at listed
    obtain ⟨slot,held⟩ := valid.waiting id wr listed file member
    exact ⟨by rw [files,slot],backed held⟩
  · rw [writing]
    exact valid.apart
  · rw [purge,files]
    exact valid.deleting
  · rw [purge,blobs]
    exact valid.missing
  · rw [files] at visible
    rw [Store.unlinked,purge] at apart
    exact backed (valid.kept file row visible apart)

theorem world_files {a : Sessions.Action} {w x : World} (leaves : leavesFiles a = true)
    (step : Sessions.Step codec alpha w a x) :
    x.service.db.files = w.service.db.files ∧ x.service.blobs = w.service.blobs := by
  cases a with
  | operation op =>
    obtain ⟨single,service,done,rfl⟩ := operation_step step
    cases op with
    | grant =>
      obtain ⟨_,rfl⟩ := grant_posts done
      exact ⟨rfl,rfl⟩
    | createBatch =>
      obtain ⟨db,created,rfl⟩ := create_step done
      obtain ⟨_,_,_,_,_,rfl⟩ := createBatch_parts created
      exact ⟨rfl,rfl⟩
    | claimAndAssign => cases done; exact ⟨rfl,rfl⟩
    | applyHealthResults => cases done; exact ⟨rfl,rfl⟩
    | uploadFile => cases leaves
    | completeTask | failTask | cancelBatch | expireBatch | purgeExpiredResults | startup => cases single
  | settle task sink now =>
    obtain ⟨_,db,own,copy,done,_,_,rfl⟩ := settle_step step
    obtain ⟨_,_,_,_,files⟩ := commit_parts done
    exact ⟨files,rfl⟩
  | readBatch user batch =>
    obtain ⟨_,_,_,rfl⟩ := readBatch_step step
    exact ⟨rfl,rfl⟩
  | readOverdue now => cases step; exact ⟨rfl,rfl⟩
  | selectTasks id now =>
    obtain ⟨_,_,_,_,rfl⟩ := selectTasks_step step
    exact ⟨rfl,rfl⟩
  | terminate id =>
    obtain ⟨_,_,db,_,done,rfl⟩ := terminate_step step
    rcases terminateSelected_parts done with ⟨_,rfl⟩ | ⟨_,_,_,_,_,rfl⟩
    · exact ⟨rfl,rfl⟩
    · exact ⟨rfl,rfl⟩
  | lose task => cases step; exact ⟨rfl,rfl⟩
  | abandon id => cases step; exact ⟨rfl,rfl⟩
  | finalize => cases leaves
  | restart => cases leaves

theorem listed_set {writing : List (Option Writing)} {id j : Nat} {value : Option Writing} {other : Writing}
    (listed : (writing.set id value)[j]? = some (some other)) :
    (id = j ∧ value = some other) ∨ (id ≠ j ∧ writing[j]? = some (some other)) := by
  rw [List.getElem?_set] at listed
  split at listed
  · rename_i here
    split at listed
    · exact .inl ⟨here,Option.some.inj listed⟩
    · cases listed
  · rename_i elsewhere
    exact .inr ⟨elsewhere,listed⟩

-- A file with a number is not the next one.
theorem not_next {x : Option FileObject} {file : FileId} (held : s.db.files[file]? = some x) :
    file ≠ s.db.files.length := Nat.ne_of_lt (List.getElem?_eq_some_iff.mp held).choose

-- A new slot, with whatever is written to its blob; the sessions may hold rows for it.
theorem valid_slot {value : Option Bytes} {writing : List (Option Writing)} {written : FileId → Option Bytes}
    (valid : Valid s) (other : ∀ file, file ≠ s.db.files.length → written file = s.written file)
    (waiting : ∀ (id : Nat) (wr : Writing), writing[id]? = some (some wr) → ∀ file ∈ wr.ids,
      (∃ old, s.writing[id]? = some (some old) ∧ file ∈ old.ids) ∨
      (file = s.db.files.length ∧ value = written file ∧ value.isSome))
    (alone : ∀ (i j : Nat) (wr other : Writing), writing[i]? = some (some wr) → writing[j]? = some (some other) →
      s.db.files.length ∈ wr.ids → s.db.files.length ∈ other.ids → i = j) :
    Valid {s.onDisk {s.db with files := s.db.files ++ [none]} (Function.update s.blobs s.db.files.length value) with
      writing := writing,written := written} := by
  have inside : ∀ {file : FileId} {x}, s.db.files[file]? = some x → (s.db.files ++ [none])[file]? = some x := by
    intro file x held
    rw [List.getElem?_append_left (List.getElem?_eq_some_iff.mp held).choose,held]
  have visible : ∀ {file : FileId} {row}, (s.db.files ++ [none])[file]? = some (some row) → s.db.files[file]? = some (some row) := by
    intro file row held
    rcases Nat.lt_or_ge file s.db.files.length with old | new
    · rwa [List.getElem?_append_left old] at held
    · rw [List.getElem?_append_right new] at held
      cases List.mem_singleton.mp (List.mem_of_getElem? held)
  have off : ∀ {file : FileId} {x}, s.db.files[file]? = some x →
      Function.update s.blobs s.db.files.length value file = s.blobs file := fun held =>
    Function.update_of_ne (not_next held) _ _
  have backed : ∀ {file : FileId} {x}, s.db.files[file]? = some x → Backed s file → ∃ data, written file = some data ∧
      Function.update s.blobs s.db.files.length value file = some data := by
    rintro file x held ⟨data,gave,there⟩
    exact ⟨data,by rw [other file (not_next held),gave],by rw [off held,there]⟩
  refine ⟨fun id wr listed file member => ?_,fun i j wr other_ first second file left right => ?_,
    fun p open_ file member => ?_,fun p open_ file gone => ?_,fun file row seen apart => ?_⟩
  · rcases waiting id wr listed file member with ⟨old,before,there⟩ | ⟨rfl,same,given⟩
    · obtain ⟨slot,held⟩ := valid.waiting id old before file there
      exact ⟨inside slot,backed slot held⟩
    · obtain ⟨data,some_⟩ := Option.isSome_iff_exists.mp given
      refine ⟨by simp [Store.onDisk],data,by rw [← some_,same],?_⟩
      change Function.update s.blobs s.db.files.length value s.db.files.length = some data
      rw [Function.update_self,some_]
  · by_cases fresh : file = s.db.files.length
    · subst fresh
      exact alone i j wr other_ first second left right
    · rcases waiting i wr first file left with ⟨old,before,there⟩ | ⟨new,_⟩
      · rcases waiting j other_ second file right with ⟨old',before',there'⟩ | ⟨new,_⟩
        · exact valid.apart i j old old' before before' file there there'
        · exact absurd new fresh
      · exact absurd new fresh
  · obtain ⟨row,held⟩ := valid.deleting p open_ file member
    exact ⟨row,inside held⟩
  · obtain ⟨deleted,missing⟩ := valid.missing p open_ file gone
    obtain ⟨row,held⟩ := valid.deleting p open_ file (List.mem_append_right _ deleted)
    exact ⟨deleted,(off held).trans missing⟩
  · exact backed (visible seen) (valid.kept file row (visible seen) apart)

-- The next number stands in no session yet.
theorem next_fresh (valid : Valid s) {id : Nat} {wr : Writing} (listed : s.writing[id]? = some (some wr)) :
    s.db.files.length ∉ wr.ids := fun member => not_next (valid.waiting id wr listed _ member).1 rfl

theorem write_valid (valid : Valid s) {id : Nat} {wr : Writing} (there : s.writing[id]? = some (some wr))
    (planned : Planned) (rest : List Planned) : Valid (writeNext id wr planned rest s) := by
  have grown : ∀ file, file ∈ (Writing.ids {wr with
      todo := rest
      rows := wr.rows ++ [(s.db.files.length,planned.row wr.user wr.now)]}) →
      file ∈ wr.ids ∨ file = s.db.files.length := by
    intro file member
    simpa [Writing.ids] using member
  refine valid_slot valid (fun file different => Function.update_of_ne different _ _) ?_ ?_
  · intro j other listed file member
    rcases listed_set listed with ⟨rfl,same⟩ | ⟨_,before⟩
    · cases same
      rcases grown file member with old | rfl
      · exact .inl ⟨wr,there,old⟩
      · exact .inr ⟨rfl,by rw [Function.update_self],rfl⟩
    · exact .inl ⟨other,before,member⟩
  · intro i j one other first second left right
    rcases listed_set first with ⟨rfl,_⟩ | ⟨_,before⟩
    · rcases listed_set second with ⟨same,_⟩ | ⟨_,before⟩
      · exact same
      · exact absurd right (next_fresh valid before)
    · exact absurd left (next_fresh valid before)

theorem tear_valid (valid : Valid s) (id : Nat) (part : Bytes) : Valid (tearNext id part s) := by
  refine valid_slot valid (fun _ _ => rfl) ?_ ?_
  · intro j other listed file member
    rcases listed_set listed with ⟨_,same⟩ | ⟨_,before⟩
    · cases same
    · exact .inl ⟨other,before,member⟩
  · intro i j one other first _ left _
    rcases listed_set first with ⟨_,same⟩ | ⟨_,before⟩
    · cases same
    · exact absurd left (next_fresh valid before)

-- A session opened without rows, or closed.
theorem valid_sessions (valid : Valid s) {writing : List (Option Writing)}
    (waiting : ∀ (id : Nat) (wr : Writing), writing[id]? = some (some wr) →
      wr.rows = [] ∨ s.writing[id]? = some (some wr)) : Valid {s with writing := writing} := by
  have before : ∀ (id : Nat) (wr : Writing), writing[id]? = some (some wr) → ∀ file ∈ wr.ids,
      s.writing[id]? = some (some wr) := by
    intro id wr listed file member
    rcases waiting id wr listed with empty | same
    · simp [Writing.ids,empty] at member
    · exact same
  refine ⟨fun id wr listed file member => valid.waiting id wr (before id wr listed file member) file member,?_,
    valid.deleting,valid.missing,valid.kept⟩
  intro i j wr other first second file left right
  exact valid.apart i j wr other (before i wr first file left) (before j other second file right) file left right

theorem listed_append {writing : List (Option Writing)} {id : Nat} {opened wr : Writing}
    (listed : (writing ++ [some opened])[id]? = some (some wr)) : wr = opened ∨ writing[id]? = some (some wr) := by
  rcases Nat.lt_or_ge id writing.length with old | new
  · rw [List.getElem?_append_left old] at listed
    exact .inr listed
  · rw [List.getElem?_append_right new] at listed
    exact .inl (Option.some.inj (List.mem_singleton.mp (List.mem_of_getElem? listed)))

-- A session that has not written anything yet.
theorem opened_valid (valid : Valid s) {opened : Writing} (empty : opened.rows = []) :
    Valid {s with writing := s.writing ++ [some opened]} := by
  refine valid_sessions valid (fun id wr listed => ?_)
  rcases listed_append listed with rfl | before
  · exact .inl empty
  · exact .inr before

theorem begun_valid (valid : Valid s) {session : Session} {id : Nat} {now : Instant}
    (begun : beginFinalize codec id now s session = some t) : Valid t := by
  cases session with
  | settled task own batch copy =>
    simp only [beginFinalize] at begun
    split at begun
    · cases begun
      have closed : Valid {s with world := {s.world with sessions := s.world.sessions.set id .closed}} :=
        valid_frame valid rfl rfl rfl rfl rfl
      exact opened_valid closed rfl
    · cases begun
  | cancelling => cases begun
  | expiring => cases begun
  | terminating => cases begun
  | closed => cases begun

theorem put_other {rows : List (FileId × FileObject)} {files : List (Option FileObject)} {file : FileId}
    (apart : file ∉ rows.map Prod.fst) : (put rows files)[file]? = files[file]? := by
  induction rows generalizing files with
  | nil => rfl
  | cons row rest ih =>
    rw [List.map_cons,List.mem_cons,not_or] at apart
    change (put rest (files.set row.1 (some row.2)))[file]? = _
    rw [ih apart.2,List.getElem?_set_ne (Ne.symm apart.1)]

theorem finish_files (wr : Writing) (db : Db) : (wr.finish db).files = db.files := by
  unfold Writing.finish
  split <;> rfl

theorem commit_valid (valid : Valid s) {id : Nat} {wr : Writing} (there : s.writing[id]? = some (some wr)) :
    Valid (commitWriting id wr s) := by
  have files : (commitWriting id wr s).db.files = put wr.rows s.db.files := finish_files _ _
  have other : ∀ {file : FileId}, file ∉ wr.ids → (commitWriting id wr s).db.files[file]? = s.db.files[file]? :=
    fun apart => by rw [files,put_other apart]
  have held : ∀ {file : FileId} {row}, s.db.files[file]? = some (some row) → file ∉ wr.ids := by
    intro file row visible member
    have slot := (valid.waiting id wr there file member).1
    rw [visible] at slot
    cases slot
  refine ⟨fun j wr' listed file member => ?_,fun i j one two first second => ?_,fun p open_ file member => ?_,
    valid.missing,fun file row visible apart => ?_⟩
  · rcases listed_set listed with ⟨_,same⟩ | ⟨different,before⟩
    · cases same
    · have elsewhere : file ∉ wr.ids := fun mine => different (valid.apart id j wr wr' there before file mine member)
      obtain ⟨slot,backed⟩ := valid.waiting j wr' before file member
      exact ⟨(other elsewhere).trans slot,backed⟩
  · rcases listed_set first with ⟨_,same⟩ | ⟨_,first⟩
    · cases same
    · rcases listed_set second with ⟨_,same⟩ | ⟨_,second⟩
      · cases same
      · exact valid.apart i j one two first second
  · obtain ⟨row,visible⟩ := valid.deleting p open_ file member
    exact ⟨row,(other (held visible)).trans visible⟩
  · by_cases mine : file ∈ wr.ids
    · exact (valid.waiting id wr there file mine).2
    · exact valid.kept file row ((other mine).symm.trans visible) apart

theorem present_visible {p : Purge} {db : Db} {file : FileId} (found : p.present db file = true) :
    ∃ row, db.files[file]? = some (some row) := by
  simp only [Purge.present,Bool.and_eq_true] at found
  obtain ⟨row,joined⟩ := Option.isSome_iff_exists.mp found.1
  exact ⟨row,Option.join_eq_some_iff.mp joined⟩

-- A purge that has unlinked the same blobs, over files that are still there.
theorem valid_purge {p next : Purge} (valid : Valid s) (open_ : s.purge = some p) (gone : next.gone = p.gone)
    (deleted : next.deleted = p.deleted) (files : ∀ file ∈ next.files, ∃ row, s.db.files[file]? = some (some row)) :
    Valid {s with purge := some next} := by
  have same : Store.unlinked {s with purge := some next} = s.unlinked := by simp [Store.unlinked,open_,gone]
  refine ⟨valid.waiting,valid.apart,?_,?_,fun file row visible apart => valid.kept file row visible (same ▸ apart)⟩
  · intro q now file member
    cases now
    rcases List.mem_append.mp member with todo | done
    · exact files file todo
    · exact valid.deleting p open_ file (List.mem_append_right _ (deleted ▸ done))
  · intro q now file member
    cases now
    rw [gone] at member
    rw [deleted]
    exact valid.missing p open_ file member

theorem purge_valid (valid : Valid s) (idle : s.purge = none) (now : Instant) (due : List (Batch × BatchId)) :
    Valid {s with purge := some {now := now,due := due}} := by
  have same : s.unlinked = [] := by simp [Store.unlinked,idle]
  refine ⟨valid.waiting,valid.apart,fun p now => ?_,fun p now => ?_,
    fun file row seen _ => valid.kept file row seen (by simp [same])⟩
  · cases now
    simp
  · cases now
    simp

-- A purge that ends before it has unlinked anything.
theorem failPurge_valid (valid : Valid s) (whole : s.unlinked = []) : Valid {s with purge := none} := by
  refine ⟨valid.waiting,valid.apart,fun p now => by (cases now),fun p now => by (cases now),fun file row seen _ => ?_⟩
  exact valid.kept file row seen (by simp [whole])

theorem unlink_valid {p : Purge} {file : FileId} {rest : List FileId} (valid : Valid s) (open_ : s.purge = some p)
    (next : p.files = file :: rest) (succeeds : Bool) :
    Valid {s.onDisk s.db (if succeeds then Function.update s.blobs file none else s.blobs) with
      purge := some (unlinkNext succeeds file rest p)} := by
  have visible : ∀ f ∈ rest ++ (p.deleted ++ [file]), ∃ row, s.db.files[f]? = some (some row) := by
    intro f member
    refine valid.deleting p open_ f ?_
    rw [next]
    simp only [List.mem_append,List.mem_cons,List.not_mem_nil,or_false] at member ⊢
    tauto
  have row := visible file (by simp)
  cases succeeds with
  | false =>
    have same : Store.unlinked {s with purge := some (unlinkNext false file rest p)} = s.unlinked := by
      simp [Store.unlinked,open_,unlinkNext]
    refine ⟨valid.waiting,valid.apart,fun q now => ?_,fun q now f gone => ?_,
      fun f row seen apart => valid.kept f row seen (same ▸ apart)⟩
    · cases now
      exact visible
    · cases now
      obtain ⟨deleted,missing⟩ := valid.missing p open_ f gone
      exact ⟨List.mem_append_left _ deleted,missing⟩
  | true =>
    have off : ∀ {f}, f ≠ file → Function.update s.blobs file none f = s.blobs f := fun different =>
      Function.update_of_ne different _ _
    refine ⟨fun id wr listed f member => ?_,valid.apart,fun q now => ?_,fun q now f gone => ?_,
      fun f row seen apart => ?_⟩
    · obtain ⟨slot,data,gave,there⟩ := valid.waiting id wr listed f member
      have different : f ≠ file := by
        rintro rfl
        obtain ⟨row,held⟩ := row
        rw [slot] at held
        cases held
      exact ⟨slot,data,gave,(off different).trans there⟩
    · cases now
      exact visible
    · cases now
      change f ∈ p.gone ++ [file] at gone
      by_cases same : f = file
      · subst same
        exact ⟨List.mem_append_right _ (List.mem_singleton_self f),Function.update_self _ _ _⟩
      · have before : f ∈ p.gone := by simpa [same] using gone
        obtain ⟨deleted,missing⟩ := valid.missing p open_ f before
        exact ⟨List.mem_append_left _ deleted,(off same).trans missing⟩
    · change f ∉ p.gone ++ [file] at apart
      have different : f ≠ file := fun same => apart (by simp [same])
      have before : f ∉ s.unlinked := by
        rw [Store.unlinked,open_]
        exact fun gone => apart (List.mem_append_left _ gone)
      obtain ⟨data,gave,there⟩ := valid.kept f row seen before
      exact ⟨data,gave,(off different).trans there⟩

theorem getElem?_clear (deleted : List FileId) (files : List (Option FileObject)) (file : FileId) :
    (clear deleted files)[file]? = (files[file]?).map (fun row => if file ∈ deleted then none else row) :=
  List.getElem?_mapIdx

-- The rows go only where the blobs have gone, or stay behind unread.
theorem commitPurge_valid {p : Purge} (valid : Valid s) (open_ : s.purge = some p) :
    Valid {s.onDisk (p.commit s.db) s.blobs with purge := none} := by
  have row : ∀ (file : FileId) {x}, (p.commit s.db).files[file]? = some (some x) →
      s.db.files[file]? = some (some x) ∧ file ∉ p.deleted := by
    intro file x visible
    change (clear p.deleted s.db.files)[file]? = _ at visible
    rw [getElem?_clear] at visible
    obtain ⟨old,found,kept⟩ := Option.map_eq_some_iff.mp visible
    split at kept
    · cases kept
    · rename_i stays
      exact ⟨kept ▸ found,stays⟩
  refine ⟨fun id wr listed file member => ?_,valid.apart,fun q now => by (cases now),fun q now => by (cases now),?_⟩
  · obtain ⟨slot,backed⟩ := valid.waiting id wr listed file member
    refine ⟨?_,backed⟩
    change (clear p.deleted s.db.files)[file]? = _
    rw [getElem?_clear,slot]
    simp
  · intro file x visible _
    obtain ⟨was,stays⟩ := row file visible
    refine valid.kept file x was (fun gone => stays ?_)
    rw [Store.unlinked,open_] at gone
    exact (valid.missing p open_ file gone).1

theorem valid_preserved {a : Action} (valid : Valid s) (step : Guarded Undisturbed (Step codec alpha) s a t) : Valid t := by
  obtain ⟨undisturbed,step⟩ := step
  cases a with
  | world a =>
    simp only [Step,advance] at step
    split at step
    · rename_i leaves
      obtain ⟨w,done,rfl⟩ := Option.map_eq_some_iff.mp step
      obtain ⟨files,blobs⟩ := world_files leaves done
      exact valid_frame valid files blobs rfl rfl rfl
    · cases step
  | upload user name data now =>
    cases step
    exact opened_valid valid rfl
  | finalize id now =>
    obtain ⟨session,_,begun⟩ := Option.bind_eq_some_iff.mp step
    exact begun_valid valid begun
  | write id =>
    simp only [Step,advance] at step
    split at step
    · rename_i wr there
      split at step
      · cases step
        exact write_valid valid there _ _
      · cases step
    · cases step
  | tear id part =>
    cases step
    exact tear_valid valid id part
  | commit id =>
    simp only [Step,advance] at step
    split at step
    · rename_i wr there
      split at step
      · cases step
        exact commit_valid valid there
      · cases step
    · cases step
  | fail id =>
    cases step
    refine valid_sessions valid (fun j wr listed => ?_)
    rcases listed_set listed with ⟨_,same⟩ | ⟨_,before⟩
    · cases same
    · exact .inr before
  | purge retentionDays now =>
    simp only [Step,advance] at step
    split at step
    · rename_i idle
      cases step
      exact purge_valid valid idle now _
    · cases step
  | purgeBatch =>
    obtain ⟨p,open_,step⟩ := Option.bind_eq_some_iff.mp step
    split at step
    · cases step
      refine valid_purge valid open_ rfl rfl (fun file member => ?_)
      exact present_visible (List.mem_filter.mp member).2
    · cases step
  | unlink succeeds =>
    obtain ⟨p,open_,step⟩ := Option.bind_eq_some_iff.mp step
    split at step
    · rename_i file rest next
      cases step
      exact unlink_valid valid open_ next succeeds
    · cases step
  | commitPurge =>
    obtain ⟨p,open_,step⟩ := Option.bind_eq_some_iff.mp step
    split at step
    · cases step
      exact commitPurge_valid valid open_
    · cases step
  | failPurge =>
    cases step
    exact failPurge_valid valid undisturbed
  | crash nodes =>
    cases step
    have dropped : Valid {s with purge := none,writing := []} := valid_sessions (failPurge_valid valid undisturbed) (by simp)
    exact valid_frame dropped rfl rfl rfl rfl rfl

theorem run_valid {actions : List Action} (path : Run (Guarded Undisturbed (Step codec alpha)) {} actions s) : Valid s :=
  path.preserves initial_valid fun _ _ _ valid step => valid_preserved valid step

-- In every run in which no purge is cut short after its first unlink, rows and blobs
-- are in step except while a purge has unlinked what it has not committed.
theorem rows_and_blobs {actions : List Action} (path : Run (Guarded Undisturbed (Step codec alpha)) {} actions s) :
    InStep s.rollback ↔ s.unlinked = [] :=
  inStep_iff (run_valid path)

-- And the first purge that is cut short then leaves them out of step.
theorem disturbed_breaks {actions : List Action} {a : Action}
    (path : Run (Guarded Undisturbed (Step codec alpha)) {} actions s) (step : Step codec alpha s a t)
    (disturbed : ¬ Undisturbed s a) : ¬ InStep t.rollback := by
  have broken : ¬ InStep s := fun inStep => by
    have whole := (inStep_iff (run_valid path)).mp inStep
    cases a with
    | failPurge | crash => exact disturbed whole
    | _ => exact disturbed trivial
  rw [inStep_backed] at broken
  have same : InStep t.rollback ↔ InStep t := Iff.rfl
  rw [same,inStep_backed]
  cases a with
  | failPurge => cases step; exact broken
  | crash => cases step; exact broken
  | _ => exact absurd trivial disturbed

-- A batch of one task runs to its end, and a purge unlinks its output.
def unlinksOutput : List Action :=
  [.upload 1 (text "in") [] 0,.write 0,.commit 0,.world (.operation (.grant 1 30 none)),
    .crash [⟨"node-a","http://node-a",1⟩],.world (.operation (submitShort 1 1 0)),.world (.operation claimPass),
    .world (.settle 0 (.complete (.obj []) 3 2) 0),.finalize 0 0,.write 0,.commit 0,.purge 0 1,.purgeBatch,.unlink true]

theorem rows_and_blobs_purged : ∃ s, Run (Guarded Undisturbed (Step JsonText.codec (3/10))) {}
    (unlinksOutput ++ [.commitPurge]) s ∧ InStep s.rollback := by
  have ran : (replay (checked Undisturbed (advance JsonText.codec (3/10))) (unlinksOutput ++ [.commitPurge]) {}).any
      (fun s => decide (s.unlinked = [])) = true := by decide +kernel
  obtain ⟨s,path,whole⟩ := checked_reaches ran
  have path : Run (Guarded Undisturbed (Step JsonText.codec (3/10))) {} _ s := path
  exact ⟨s,path,(rows_and_blobs path).mpr (of_decide_eq_true whole)⟩

-- The process dies before the purge's commit: the row of the output is there, its
-- blob is not.
theorem purge_cut_short : ∃ s, Run (Step JsonText.codec (3/10)) {} (unlinksOutput ++ [.crash []]) s ∧
    s.purge = none ∧ ¬ InStep s.rollback := by
  have ran : (replay (advance JsonText.codec (3/10)) (unlinksOutput ++ [.crash []]) {}).any
      (fun s => s.purge.isNone && ((s.db.files[1]?).join.isSome && (s.blobs 1).isNone)) = true := by decide +kernel
  obtain ⟨s,path,facts⟩ := replay_reaches ran
  obtain ⟨ended,facts⟩ := Bool.and_eq_true_iff.mp facts
  obtain ⟨visible,missing⟩ := Bool.and_eq_true_iff.mp facts
  obtain ⟨row,visible⟩ := Option.isSome_iff_exists.mp visible
  refine ⟨s,path,Option.isNone_iff_eq_none.mp ended,fun inStep => ?_⟩
  obtain ⟨data,_,there⟩ := inStep_backed.mp inStep 1 row (Option.join_eq_some_iff.mp visible)
  change s.blobs 1 = some data at there
  rw [Option.isNone_iff_eq_none.mp missing] at there
  cases there

-- The rows and blobs of a session that numbers its files one after the other.
def numbered (user : UserId) (now : Instant) : FileId → List Planned → List (FileId × FileObject)
  | _, [] => []
  | first, planned :: rest => (first,planned.row user now) :: numbered user now (first + 1) rest

def blobsWritten (blobs : Blobs) : FileId → List Planned → Blobs
  | _, [] => blobs
  | first, planned :: rest => blobsWritten (writeBlob blobs first planned.data) (first + 1) rest

theorem put_numbered (user : UserId) (now : Instant) (todo : List Planned) (files : List (Option FileObject)) :
    put (numbered user now files.length todo) (files ++ todo.map (fun _ => none)) =
      files ++ todo.map (fun planned => some (planned.row user now)) := by
  induction todo generalizing files with
  | nil => rfl
  | cons planned rest ih =>
    have later := ih (files ++ [some (planned.row user now)])
    rw [List.length_append,List.length_singleton,List.append_assoc,List.append_assoc,List.singleton_append,
      List.singleton_append] at later
    rw [List.map_cons,List.map_cons,← later,numbered]
    simp [put]

theorem planned_files (user : UserId) (batch : BatchId) (now : Instant) (rows : List (Task × TaskId)) :
    (plannedResults codec batch rows).map (fun planned => some (planned.row user now)) =
      resultFiles codec user batch now rows := by
  unfold plannedResults resultFiles
  split <;> rfl

theorem planned_blobs (batch : BatchId) (rows : List (Task × TaskId)) (first : FileId) (blobs : Blobs) :
    blobsWritten blobs first (plannedResults codec batch rows) = resultBlobs codec first rows blobs := by
  unfold plannedResults resultBlobs
  split <;> rfl

theorem planned_finish (user : UserId) (now : Instant) (todo : List Planned) (batch : BatchId)
    (rows : List (Task × TaskId)) (first : FileId) (db : Db) :
    Writing.finish ⟨user,now,todo,numbered user now first (plannedResults codec batch rows),some batch⟩ db =
      db.updateBatch batch (Batch.finish first (errorFile first rows) now) := by
  unfold plannedResults errorFile
  split <;> rfl

section
variable (codec alpha)

theorem opened_there (writing : List (Option Writing)) (opened : Option Writing) :
    (writing ++ [opened])[writing.length]? = some opened := by simp

-- Without interference a session writes the blobs it planned.
theorem write_all {id : Nat} {wr : Writing} (there : s.writing[id]? = some (some wr)) :
    ∃ actions t, Run (Step codec alpha) s actions t ∧
      t.writing[id]? = some (some {wr with
        todo := []
        rows := wr.rows ++ numbered wr.user wr.now s.db.files.length wr.todo}) ∧
      t.world = {s.world with service := {s.world.service with
        db := {s.db with files := s.db.files ++ wr.todo.map (fun _ => none)}
        blobs := blobsWritten s.blobs s.db.files.length wr.todo}} := by
  induction todo_ : wr.todo generalizing s wr with
  | nil =>
    refine ⟨[],s,.nil,?_,?_⟩
    · rw [there,numbered,List.append_nil,← todo_]
    · rw [List.map_nil,List.append_nil]
      rfl
  | cons planned rest ih =>
    have wrote : Step codec alpha s (.write id) (writeNext id wr planned rest s) := by
      simp only [Step,advance,there,todo_]
    have inside := (List.getElem?_eq_some_iff.mp there).choose
    have listed : (writeNext id wr planned rest s).writing[id]? = some (some {wr with
        todo := rest
        rows := wr.rows ++ [(s.db.files.length,planned.row wr.user wr.now)]}) := List.getElem?_set_self inside
    obtain ⟨actions,t,path,still,world⟩ := ih listed rfl
    have length : (writeNext id wr planned rest s).db.files.length = s.db.files.length + 1 := by
      simp [writeNext,Store.onDisk]
    refine ⟨_,t,.cons wrote path,?_,?_⟩
    · rw [still,length,numbered,List.append_assoc]
      rfl
    · rw [world,length,List.map_cons,List.append_cons]
      rfl

theorem step_commit {id : Nat} {wr : Writing} (there : s.writing[id]? = some (some wr)) (done : wr.todo = []) :
    Step codec alpha s (.commit id) (commitWriting id wr s) := by
  simp only [Step,advance,there,done,List.isEmpty_nil,if_true]

theorem session_whole {id : Nat} {wr : Writing} (there : s.writing[id]? = some (some wr)) (fresh : wr.rows = []) :
    ∃ actions t, Run (Step codec alpha) s actions t ∧
      t.world = {s.world with service := {s.world.service with
        db := Writing.finish {wr with rows := numbered wr.user wr.now s.db.files.length wr.todo}
          {s.db with files := s.db.files ++ wr.todo.map (fun planned => some (planned.row wr.user wr.now))}
        blobs := blobsWritten s.blobs s.db.files.length wr.todo}} := by
  obtain ⟨actions,t,path,still,world⟩ := write_all codec alpha there
  obtain ⟨_,_,_,_⟩ := t
  cases world
  refine ⟨_,_,path.append (.single (step_commit codec alpha still rfl)),?_⟩
  have rows : put (wr.rows ++ numbered wr.user wr.now s.db.files.length wr.todo)
      (s.db.files ++ wr.todo.map (fun _ => none)) =
        s.db.files ++ wr.todo.map (fun planned => some (planned.row wr.user wr.now)) := by
    rw [fresh,List.nil_append,put_numbered]
  simp only [commitWriting,Store.onDisk,rows]
  rw [fresh]
  rfl

-- An upload that is not interrupted is the upload of the service.
theorem upload_whole (user : UserId) (name : Str) (data : Bytes) (now : Instant) :
    ∃ actions t, Run (Step codec alpha) s (.upload user name data now :: actions) t ∧
      t.world = {s.world with service := Service.uploadFile user name data now s.world.service} := by
  have begun : Step codec alpha s (.upload user name data now) {s with
      writing := s.writing ++ [some ⟨user,now,[⟨.batchInput,.upload name,data⟩],[],none⟩]} := rfl
  have there := opened_there s.writing (some ⟨user,now,[⟨.batchInput,.upload name,data⟩],[],none⟩)
  obtain ⟨actions,t,path,world⟩ := session_whole codec alpha (s := {s with writing := _}) there rfl
  exact ⟨actions,t,.cons begun path,world⟩

-- A finalization that is not interrupted is that of the sessions.
theorem finalize_whole {id : Nat} {now : Instant} {x : World} {task : TaskId} {own : Task} {batch : BatchId} {copy : Batch}
    (settled_ : s.world.sessions[id]? = some (.settled task own batch copy)) (due : shouldFinalize copy = true)
    (final : Sessions.Step codec alpha s.world (.finalize id now) x) :
    ∃ actions t, Run (Step codec alpha) s (.finalize id now :: actions) t ∧ t.world = x := by
  simp only [Sessions.Step,Sessions.advance,settled_,Option.bind_some,finalizeSession,if_pos due] at final
  cases final
  have begun : Step codec alpha s (.finalize id now) {s with
      world := {s.world with sessions := s.world.sessions.set id .closed}
      writing := s.writing ++
        [some ⟨copy.userId,now,plannedResults codec batch (sessionRows task own batch s.db),[],some batch⟩]} := by
    simp only [Step,advance,settled_,Option.bind_some,beginFinalize,if_pos due]
  have there := opened_there s.writing
    (some ⟨copy.userId,now,plannedResults codec batch (sessionRows task own batch s.db),[],some batch⟩)
  obtain ⟨actions,t,path,world⟩ := session_whole codec alpha
    (s := {s with world := {s.world with sessions := s.world.sessions.set id .closed},writing := _}) there rfl
  refine ⟨actions,t,.cons begun path,?_⟩
  rw [world,planned_files,planned_blobs,planned_finish]
  rfl

-- Without interference a purge unlinks the files it has listed.
theorem unlink_all {p : Purge} (open_ : s.purge = some p) :
    ∃ actions t gone, Run (Step codec alpha) s actions t ∧
      t.purge = some {p with files := [],deleted := p.deleted ++ p.files,gone := gone} ∧
      t.world = {s.world with service := {s.world.service with
        blobs := p.files.foldl (fun blobs file => Function.update blobs file none) s.blobs}} := by
  induction files : p.files generalizing s p with
  | nil =>
    refine ⟨[],s,p.gone,.nil,?_,rfl⟩
    rw [open_,List.append_nil,← files]
  | cons file rest ih =>
    have step : Step codec alpha s (.unlink true) {s.onDisk s.db (Function.update s.blobs file none) with
        purge := some (unlinkNext true file rest p)} := by
      simp only [Step,advance,open_,Option.bind_some,files,if_true]
    obtain ⟨actions,t,gone,path,purging,world⟩ := ih (s := {s.onDisk s.db (Function.update s.blobs file none) with
        purge := some (unlinkNext true file rest p)}) rfl rfl
    refine ⟨_,t,gone,.cons step path,?_,world⟩
    rw [purging,unlinkNext,List.append_assoc]
    rfl

end

theorem clear_nothing (files : List (Option FileObject)) : clear [] files = files := by
  apply List.ext_getElem?
  intro i
  rw [getElem?_clear]
  simp

theorem getElem?_deleteFile (file : Option FileId) (files : List (Option FileObject)) (i : FileId) :
    (deleteFile file files)[i]? = (files[i]?).map (fun row => if file = some i then none else row) := by
  cases file with
  | none => simp [deleteFile]
  | some f =>
    rw [deleteFile,List.getElem?_modify]
    simp

-- The rows found by db.get are those a purge deletes.
theorem present_clear (p : Purge) (db : Db) (file : FileId) :
    p.present db file = ((clear p.deleted db.files)[file]?).join.isSome := by
  rw [getElem?_clear,Purge.present]
  cases db.files[file]? with
  | none => simp
  | some row => by_cases deleted : file ∈ p.deleted <;> simp [deleted]

theorem cleared_files (p : Purge) (row : Batch × BatchId) (rest : List (Batch × BatchId)) (db : Db) :
    clear (p.deleted ++ (nextBatch row rest db p).files) db.files =
      deleteFile row.1.errorFileId (deleteFile row.1.outputFileId (clear p.deleted db.files)) := by
  apply List.ext_getElem?
  intro i
  rw [getElem?_clear,getElem?_deleteFile,getElem?_deleteFile,getElem?_clear]
  cases held : db.files[i]? with
  | none => rfl
  | some x =>
    have chosen : i ∈ (nextBatch row rest db p).files ↔
        (row.1.outputFileId = some i ∨ row.1.errorFileId = some i) ∧ p.present db i = true := by
      simp [nextBatch,or_and_right]
    have found : p.present db i = (x.isSome && !decide (i ∈ p.deleted)) := by simp [Purge.present,held]
    simp only [Option.map_some,List.mem_append,chosen,found]
    cases x with
    | none => simp
    | some object =>
      by_cases output : row.1.outputFileId = some i
      · by_cases deleted : i ∈ p.deleted <;> simp [output,deleted]
      · by_cases errors : row.1.errorFileId = some i
        · by_cases deleted : i ∈ p.deleted <;> simp [errors,deleted]
        · simp [output,errors]

theorem unlinked_blobs (p : Purge) (row : Batch × BatchId) (rest : List (Batch × BatchId)) (db : Db) (blobs : Blobs) :
    (nextBatch row rest db p).files.foldl (fun blobs file => Function.update blobs file none) blobs =
      unlinkBlob row.1.errorFileId (clear p.deleted db.files)
        (unlinkBlob row.1.outputFileId (clear p.deleted db.files) blobs) := by
  have one : ∀ (file : Option FileId) (blobs : Blobs), (file.toList.filter (p.present db)).foldl
      (fun blobs file => Function.update blobs file none) blobs = unlinkBlob file (clear p.deleted db.files) blobs := by
    intro file blobs
    cases file with
    | none => rfl
    | some f =>
      rw [unlinkBlob,← present_clear]
      cases found : p.present db f <;> simp [found]
  rw [nextBatch,List.filter_append,List.foldl_append,one,one]

-- One batch of a purge, as its commit will write it.
theorem purge_next (p : Purge) (row : Batch × BatchId) (rest : List (Batch × BatchId)) (gone : List FileId) (db : Db)
    (blobs : Blobs) :
    (Purge.commit {nextBatch row rest db p with
        files := []
        deleted := p.deleted ++ (nextBatch row rest db p).files
        gone := gone} db,
      (nextBatch row rest db p).files.foldl (fun blobs file => Function.update blobs file none) blobs) =
    purgeBatch p.now row (p.commit db) blobs := by
  have marked : markPurged p.now (p.marked ++ [row.2]) db.batches =
      (markPurged p.now p.marked db.batches).modify row.2 (Batch.purge p.now) := by
    simp [markPurged]
  rw [unlinked_blobs]
  unfold Purge.commit purgeBatch
  simp only [cleared_files]
  rw [nextBatch,marked]
  rfl

variable (codec alpha) in
theorem purge_rows {p : Purge} (open_ : s.purge = some p) (idle : p.files = []) :
    ∃ actions t q, Run (Step codec alpha) s actions t ∧ t.purge = some q ∧ q.files = [] ∧ q.due = [] ∧
      (q.commit s.db,t.blobs) = purgeAll p.now p.due (p.commit s.db) s.blobs ∧
      t.world = {s.world with service := {s.world.service with blobs := t.blobs}} := by
  induction due : p.due generalizing s p with
  | nil => exact ⟨[],s,p,.nil,open_,idle,due,rfl,rfl⟩
  | cons row rest ih =>
    have step : Step codec alpha s .purgeBatch {s with purge := some (nextBatch row rest s.db p)} := by
      simp only [Step,advance,open_,Option.bind_some,idle,due]
    obtain ⟨first,m,gone,unlinks,purging,world⟩ :=
      unlink_all codec alpha (s := {s with purge := some (nextBatch row rest s.db p)}) rfl
    obtain ⟨later,t,q,path,still,none_left,all_done,outcome,last⟩ := ih purging rfl rfl
    have db : m.db = s.db := by rw [Store.db,world]
    have blobs : m.blobs = (nextBatch row rest s.db p).files.foldl
        (fun blobs file => Function.update blobs file none) s.blobs := by rw [Store.blobs,world]
    refine ⟨_,t,q,.cons step (unlinks.append path),still,none_left,all_done,?_,?_⟩
    · rw [db,blobs] at outcome
      have one := purge_next p row rest gone s.db s.blobs
      rw [outcome,purgeAll,← one]
      rfl
    · rw [last,world]

variable (codec alpha) in
-- A purge that is not interrupted is that of the service.
theorem purge_whole (retentionDays : Int) (now : Instant) (idle : s.purge = none) :
    ∃ actions t, Run (Step codec alpha) s (.purge retentionDays now :: actions) t ∧ t.purge = none ∧
      (t.db,t.blobs) = purgeExpiredResults retentionDays now s.db s.blobs := by
  have step : Step codec alpha s (.purge retentionDays now) {s with purge := some {
      now := now
      due := s.db.batches.zipIdx.filter (fun row => purgeDue retentionDays now row.1)}} := by
    simp only [Step,advance,idle]
  obtain ⟨actions,t,q,path,still,none_left,all_done,outcome,world⟩ := purge_rows codec alpha
    (s := {s with purge := some {
      now := now
      due := s.db.batches.zipIdx.filter (fun row => purgeDue retentionDays now row.1)}}) rfl rfl
  have committed : Step codec alpha t .commitPurge {t.onDisk (q.commit t.db) t.blobs with purge := none} := by
    simp only [Step,advance,still,Option.bind_some,none_left,all_done,List.isEmpty_nil,Bool.and_self,if_true]
  have db : t.db = s.db := by rw [Store.db,world]
  refine ⟨_,_,.cons step (path.append (.single committed)),rfl,?_⟩
  change (q.commit t.db,t.blobs) = _
  rw [db]
  refine outcome.trans ?_
  simp only [Purge.commit,markPurged,List.foldl_nil,clear_nothing]
  rfl

end BatchGateway.FileSessions
