import BatchGateway.FileOwnership
import BatchGateway.JsonText
import BatchGateway.Routes

-- What one user's requests can ever bring back.
namespace BatchGateway.TenantIsolation
open PythonText PythonJson BatchInput BatchOps LabelledRuns Counters ResultFiles FileOwnership Routes

def Uploaded (actions : List Action) (user : UserId) (data : Bytes) : Prop :=
  ∃ filename now, Action.request user (.createFile filename (text "batch") data) now ∈ actions

def Submitted (actions : List Action) (b : Batch) : Prop :=
  Action.request b.userId (.createBatch b.inputFileId supportedEndpoint (text "24h")) b.createdAt ∈ actions

-- The records of a result file, each written for a task of this batch.
def ResultOf (codec : Codec) (s : Service) (i : BatchId) (b : Batch) (f : FileId) (data : Bytes) : Prop :=
  ∃ rows : List (Task × TaskId), (∀ row ∈ rows, s.db.tasks[row.2]? = some row.1 ∧ row.1.batchId = i) ∧
    ((b.outputFileId = some f ∧ data = fileBytes codec (rows.map outputRecord)) ∨
     (b.errorFileId = some f ∧ data = fileBytes codec (rows.map errorRecord)))

structure Isolated (codec : Codec) (actions : List Action) (s : Service) : Prop where
  progress : Progress s.db s.inFlight
  filed : Filed codec s.db s.blobs
  tidy : Tidy s.db
  uploads : ∀ (f : FileId) row, s.db.files[f]? = some (some row) → row.purpose = .batchInput →
    ∃ data, s.blobs f = some data ∧ Uploaded actions row.userId data
  submissions : ∀ (i : BatchId) b, s.db.batches[i]? = some b → Submitted actions b

-- What a response may hold when this user asked for it.
def Own (codec : Codec) (actions : List Action) (s : Service) (user : UserId) : Response → Prop
  | .file f row => s.db.files[f]? = some (some row) ∧ row.userId = user
  | .content data => Uploaded actions user data ∨
      ∃ i b f, s.db.batches[i]? = some b ∧ b.userId = user ∧ Submitted actions b ∧ ResultOf codec s i b f data
  | .batch i b => s.db.batches[i]? = some b ∧ b.userId = user ∧ Submitted actions b
  | .batchList rows => ∀ row ∈ rows, s.db.batches[row.2]? = some row.1 ∧ row.1.userId = user ∧ Submitted actions row.1

variable {codec : Codec} {alpha : ℚ} {defaultMaxTokens : Int} {s t : Service} {actions : List Action} {action : Action}

theorem performs_sound {op : Service.Operation} (performs : Performs s action op) : Sound s.db.files op := by
  cases performs with
  | upload => trivial
  | submit user f lines now owned => exact owned
  | cancel => trivial
  | background op allowed =>
    cases op with
    | createBatch => cases allowed
    | _ => trivial

theorem isolated_uploads {op : Service.Operation} (valid : Isolated codec actions s)
    (step : Service.Step codec alpha s op t) (performs : Performs s action op) {f : FileId} {row : FileObject}
    (there : t.db.files[f]? = some (some row)) (upload : row.purpose = .batchInput) :
    ∃ data, t.blobs f = some data ∧ Uploaded (actions ++ [action]) row.userId data := by
  rcases step_uploads step there upload with ⟨was,kept⟩ | ⟨name,data,rfl,stored⟩
  · obtain ⟨data,stored,filename,now,uploaded⟩ := valid.uploads f row was upload
    exact ⟨data,kept.trans stored,filename,now,List.mem_append_left _ uploaded⟩
  · refine ⟨data,stored,?_⟩
    generalize owner : row.userId = user at performs
    generalize created : row.createdAt = now at performs
    cases performs with
    | upload user filename data now => exact ⟨filename,now,List.mem_append_right _ (List.mem_singleton.mpr rfl)⟩
    | background op allowed => cases allowed

theorem isolated_submissions {op : Service.Operation} (valid : Isolated codec actions s)
    (step : Service.Step codec alpha s op t) (performs : Performs s action op) {i : BatchId} {b : Batch}
    (there : t.db.batches[i]? = some b) : Submitted (actions ++ [action]) b := by
  have listed : (t.db.batches.map Records.Batch.submission)[i]? = some (Records.Batch.submission b) := by simp [there]
  rw [Records.step_submissions step] at listed
  have column : ∀ {old : Batch} {actions : List Action}, Records.Batch.submission old = Records.Batch.submission b →
      Submitted actions old → Submitted actions b := by
    intro old actions same submitted
    simp only [Records.Batch.submission,Records.Submission.mk.injEq] at same
    unfold Submitted
    rw [← same.1,← same.2.1,← same.2.2.2.2]
    exact submitted
  rcases Nat.lt_or_ge i s.db.batches.length with below | above
  · rw [List.getElem?_append_left (by rwa [List.length_map]),List.getElem?_map] at listed
    obtain ⟨old,was,same⟩ := Option.map_eq_some_iff.mp listed
    exact column same (List.mem_append_left _ (valid.submissions i old was))
  · rw [List.getElem?_append_right (by rwa [List.length_map])] at listed
    obtain ⟨created,member,same⟩ := List.mem_map.mp (List.mem_of_getElem? listed)
    cases performs with
    | submit user f lines now owned =>
      cases List.mem_singleton.mp member
      exact column same (List.mem_append_right _ (List.mem_singleton.mpr rfl))
    | upload => cases member
    | cancel => cases member
    | background op allowed =>
      cases op with
      | createBatch => cases allowed
      | _ => cases member

theorem isolated_step (valid : Isolated codec actions s) (step : Step codec alpha defaultMaxTokens s action t) :
    Isolated codec (actions ++ [action]) t := by
  rcases step_performs step with rfl | ⟨op,performed,performs⟩
  · refine ⟨valid.progress,valid.filed,valid.tidy,fun f row there upload => ?_,fun i b there => ?_⟩
    · obtain ⟨data,stored,filename,now,uploaded⟩ := valid.uploads f row there upload
      exact ⟨data,stored,filename,now,List.mem_append_left _ uploaded⟩
    · exact List.mem_append_left _ (valid.submissions i b there)
  · exact ⟨step_progress valid.progress performed,step_filed valid.progress valid.filed performed,
      step_tidy valid.tidy valid.filed (performs_sound performs) performed,
      fun f row => isolated_uploads valid performed performs,fun i b => isolated_submissions valid performed performs⟩

theorem initial_isolated : Isolated codec [] {} := by
  refine ⟨initial_progress,initial_filed,⟨?_,?_⟩,?_,?_⟩
  · intro i b found
    cases found
  · intro f row found
    cases found
  · intro f row found
    cases found
  · intro i b found
    cases found

theorem run_isolated (path : Run (Step codec alpha defaultMaxTokens) {} actions s) : Isolated codec actions s := by
  induction path with
  | nil => exact initial_isolated
  | step _ last ih => exact isolated_step ih last

theorem rowsOf_tasks {db : Db} {i : BatchId} {row : Task × TaskId} (member : row ∈ rowsOf db i) :
    db.tasks[row.2]? = some row.1 ∧ row.1.batchId = i := by
  have listed : row ∈ db.batchTasks i := (List.perm_insertionSort ..).mem_iff.mp member
  exact mem_batchTasks.mp listed

-- What is stored under a batch's reference was written from the batch's own tasks.
theorem result_of (valid : Isolated codec actions s) {i : BatchId} {b : Batch} {f : FileId} {data : Bytes}
    (found : s.db.batches[i]? = some b) (refers : refersTo b f) (stored : s.blobs f = some data) :
    ResultOf codec s i b f data := by
  obtain ⟨done,unpurged⟩ := (valid.tidy.owned i b found).finished f refers
  have published := valid.filed.published i b found done unpurged
  rcases refers with output | errors
  · obtain ⟨g,named,written⟩ := published.output
    rw [output] at named
    cases named
    rw [stored] at written
    exact ⟨completedRows (rowsOf s.db i),fun row member => rowsOf_tasks (List.mem_filter.mp member).1,
      .inl ⟨output,Option.some.inj written⟩⟩
  · have written := published.errors f errors
    rw [stored] at written
    exact ⟨failedRows (rowsOf s.db i),fun row member => rowsOf_tasks (List.mem_filter.mp member).1,
      .inr ⟨errors,Option.some.inj written⟩⟩

-- The bytes behind any file row a user owns.
theorem own_content (valid : Isolated codec actions s) {user : UserId} {f : FileId} {row : FileObject} {data : Bytes}
    (found : s.db.files[f]? = some (some row)) (mine : row.userId = user) (stored : s.blobs f = some data) :
    Own codec actions s user (.content data) := by
  by_cases upload : row.purpose = .batchInput
  · obtain ⟨there,same,uploaded⟩ := valid.uploads f row found upload
    rw [stored] at same
    cases same
    exact .inl (mine ▸ uploaded)
  · obtain ⟨i,b,there,owner,refers⟩ := valid.tidy.results f row found upload
    exact .inr ⟨i,b,f,there,owner.trans mine,valid.submissions i b there,result_of valid there refers stored⟩

theorem own_response {user : UserId} {request : Request} {now : Instant} {response : Response}
    (valid : Isolated codec (actions ++ [.request user request now]) t)
    (done : handle codec defaultMaxTokens user now request s = .ok (t,response)) :
    Own codec (actions ++ [.request user request now]) t user response := by
  cases request with
  | createFile filename purpose data =>
    obtain ⟨_,_,id,row,rfl,found,mine⟩ := createFile_parts done
    exact ⟨found,mine⟩
  | getFile f =>
    obtain ⟨rfl,row,rfl,found,mine⟩ := getFile_parts done
    exact ⟨found,mine⟩
  | getFileContent f =>
    obtain ⟨rfl,row,data,rfl,found,mine,stored⟩ := getFileContent_parts done
    exact own_content valid found mine stored
  | createBatch f endpoint window =>
    obtain ⟨_,_,_,_,id,b,rfl,found,mine⟩ := createBatch_parts 0 done
    exact ⟨found,mine,valid.submissions id b found⟩
  | getBatch i =>
    obtain ⟨rfl,b,rfl,found,mine⟩ := getBatch_parts done
    exact ⟨found,mine,valid.submissions i b found⟩
  | listBatches limit =>
    obtain ⟨rfl,rows,rfl,_,listed⟩ := listBatches_parts done
    intro row member
    obtain ⟨found,mine⟩ := listed row member
    exact ⟨found,mine,valid.submissions row.2 row.1 found⟩
  | cancelBatch i =>
    obtain ⟨_,b,rfl,found,mine⟩ := cancelBatch_parts codec 0 done
    exact ⟨found,mine,valid.submissions i b found⟩

-- In every reachable state: files belong to their batch's user, result files are
-- written from their batch's tasks, a response holds only what is the user's own,
-- and naming another user's file or batch fails and changes nothing.
theorem tenants_isolated (path : Run (Step codec alpha defaultMaxTokens) {} actions s) :
    (∀ (i : BatchId) b, s.db.batches[i]? = some b →
      Holds s.db.files b.userId .batchInput b.inputFileId ∧
      (∀ f, b.outputFileId = some f → Holds s.db.files b.userId .batchOutput f) ∧
      (∀ f, b.errorFileId = some f → Holds s.db.files b.userId .batchError f) ∧
      ∀ f data, refersTo b f → s.blobs f = some data → ResultOf codec s i b f data) ∧
    (∀ user request now t response, handle codec defaultMaxTokens user now request s = .ok (t,response) →
      Own codec (actions ++ [.request user request now]) t user response) ∧
    ∀ user request now, Foreign s.db user request →
      (∃ e, handle codec defaultMaxTokens user now request s = .error e ∧
        (OtherwiseValid request → ∃ message, e = .raised (.notFound message))) ∧
      ∀ t, Step codec alpha defaultMaxTokens s (.request user request now) t → t = s := by
  have valid := run_isolated path
  refine ⟨fun i b found => ?_,fun user request now t response done => ?_,fun user request now foreign => ?_⟩
  · have own := valid.tidy.owned i b found
    exact ⟨own.input,own.output,own.errors,fun f data refers stored => result_of valid found refers stored⟩
  · have step : Step codec alpha defaultMaxTokens s (.request user request now) t := by
      simp only [Step,advance,done]
    exact own_response (isolated_step valid step) done
  · obtain ⟨e,failed,missing⟩ := foreign_fails codec defaultMaxTokens now foreign
    refine ⟨⟨e,failed,missing⟩,fun t step => ?_⟩
    simp only [Step,advance,failed] at step
    cases step
    rfl

-- One user's batch, answered and given up by turns, and another user who asks for its output.
def answeredBatch : List Action :=
  [.background (Service.nodeWith 2),.background (.grant 1 1000 none),
    .request 1 (.createFile none (text "batch") (Service.inputFile [Service.requestLine "a" "",Service.requestLine "b" ""])) 0,
    .request 1 (.createBatch 0 supportedEndpoint (text "24h")) 0,.background Service.claimPass,
    .background (.completeTask 0 (.obj []) 3 2 0),.background (.failTask 1 [] 0)]

def downloads (s : Service) : Bool :=
  (s.db.files[1]?).join.any (fun row => row.userId == 1) &&
    match handle JsonText.codec 16 1 0 (.getFileContent 1) s with
    | .ok (_,.content _) => true
    | _ => false

theorem tenants_isolated_download : ∃ s t data e message,
    handle JsonText.codec 16 1 0 (.getFileContent 1) s = .ok (t,.content data) ∧
    Own JsonText.codec (answeredBatch ++ [.request 1 (.getFileContent 1) 0]) t 1 (.content data) ∧
    handle JsonText.codec 16 2 0 (.getFileContent 1) s = .error e ∧ e = .raised (.notFound message) := by
  have ran : (replay (advance JsonText.codec (3/10) 16) answeredBatch {}).any downloads = true := by decide +kernel
  obtain ⟨s,path,facts⟩ := replay_reaches ran
  obtain ⟨owned,read⟩ := Bool.and_eq_true_iff.mp facts
  obtain ⟨row,found,mine⟩ := (Option.any_eq_true _ _).mp owned
  obtain ⟨_,own,foreign⟩ := tenants_isolated path
  split at read
  · rename_i t data done
    have other : row.userId ≠ 2 := by
      rw [eq_of_beq mine]
      decide
    obtain ⟨⟨e,failed,missing⟩,_⟩ := foreign 2 (.getFileContent 1) 0 ⟨row,Option.join_eq_some_iff.mp found,other⟩
    obtain ⟨message,same⟩ := missing trivial
    exact ⟨s,t,data,e,message,done,own _ _ _ _ _ done,failed,same⟩
  · cases read

end BatchGateway.TenantIsolation
