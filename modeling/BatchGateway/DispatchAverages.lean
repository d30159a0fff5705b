import BatchGateway.Eta
import BatchGateway.RunningAverages
import Mathlib.Data.List.Induction
import Mathlib.Tactic.NormNum

-- What the rolling throughput estimate has seen.
namespace BatchGateway.DispatchAverages
open Eta RunningAverages

def durationSeconds (task : Task) : ℚ := ((task.finishedAt.getD 0 - task.startedAt.getD 0 : Int) : ℚ) / 1000000

-- A task that counts: dispatched and finished, in a positive time, with tokens.
def sampled (task : Task) : Bool :=
  task.startedAt.isSome && task.finishedAt.isSome && decide (0 < durationSeconds task) && decide (0 < weightedTokens task)

def generated (task : Task) : Bool := decide (0 < task.completionTokens.getD 0)

def tokensPerSecond (task : Task) : ℚ := weightedTokens task / durationSeconds task

def throughputs (tasks : List Task) : List ℚ := (tasks.filter sampled).map tokensPerSecond

-- The completion counts of the tasks that count, where they have any.
def completions (tasks : List Task) : List ℚ :=
  ((tasks.filter sampled).filter generated).map (fun task => (task.completionTokens.getD 0 : ℚ))

-- The global row after one call for each task, from a database without it.
def dispatchStats (alpha : ℚ) (tasks : List Task) : Option DispatchStat :=
  tasks.foldl (fun stat task => updateDispatchStats alpha task stat) none

structure Observed (tasks : List Task) (stat : DispatchStat) : Prop where
  count : stat.sampleCount = tasks.countP sampled
  throughput : Averages (throughputs tasks) stat.tokensPerSecondEwma
  completion : Averages (completions tasks) stat.avgCompletionTokensEwma

variable {alpha : ℚ} {task : Task} {tasks : List Task} {stat : Option DispatchStat}

theorem ewma_next (alpha sample : ℚ) (average : Option ℚ) : ewma alpha sample average = next alpha sample average := by
  cases average <;> rfl

theorem update_skipped (skipped : sampled task = false) : updateDispatchStats alpha task stat = stat := by
  unfold updateDispatchStats
  unfold sampled durationSeconds at skipped
  cases started : task.startedAt with
  | none => rfl
  | some startedAt =>
    cases finished : task.finishedAt with
    | none => rfl
    | some finishedAt =>
      simp only [started,finished,Option.isSome_some,Option.getD_some,Bool.true_and,Bool.and_eq_false_iff,
        decide_eq_false_iff_not,not_lt] at skipped ⊢
      rcases skipped with instantaneous | tokenless
      · rw [if_pos instantaneous]
      · rw [if_pos tokenless,ite_self]

theorem update_sampled (counts : sampled task = true) : updateDispatchStats alpha task stat = some {
    tokensPerSecondEwma := some (next alpha (tokensPerSecond task) (stat.getD {}).tokensPerSecondEwma)
    avgCompletionTokensEwma :=
      if 0 < task.completionTokens.getD 0
      then some (next alpha (task.completionTokens.getD 0 : ℚ) (stat.getD {}).avgCompletionTokensEwma)
      else (stat.getD {}).avgCompletionTokensEwma
    sampleCount := (stat.getD {}).sampleCount + 1} := by
  simp only [sampled,Bool.and_eq_true,decide_eq_true_eq,Option.isSome_iff_exists] at counts
  obtain ⟨⟨⟨⟨startedAt,started⟩,finishedAt,finished⟩,lasting⟩,tokens⟩ := counts
  simp only [durationSeconds,started,finished,Option.getD_some] at lasting
  simp only [updateDispatchStats,tokensPerSecond,durationSeconds,started,finished,Option.getD_some,
    if_neg (not_le.mpr lasting),if_neg (not_le.mpr tokens),ewma_next]

theorem dispatchStats_append (alpha : ℚ) (tasks : List Task) (task : Task) :
    dispatchStats alpha (tasks ++ [task]) = updateDispatchStats alpha task (dispatchStats alpha tasks) :=
  List.foldl_concat ..

theorem observed_skipped (skipped : sampled task = false) {row : DispatchStat} (seen : Observed tasks row) :
    Observed (tasks ++ [task]) row := by
  have dropped : (tasks ++ [task]).filter sampled = tasks.filter sampled := by simp [skipped]
  refine ⟨?_,?_,?_⟩
  · rw [List.countP_append,List.countP_cons_of_neg (by simp [skipped])]
    exact seen.count
  · unfold throughputs
    rw [dropped]
    exact seen.throughput
  · unfold completions
    rw [dropped]
    exact seen.completion

theorem observed_sampled (low : 0 ≤ alpha) (high : alpha ≤ 1) (counts : sampled task = true)
    (seen : Observed tasks (stat.getD {})) : Observed (tasks ++ [task]) ((updateDispatchStats alpha task stat).getD {}) := by
  have listed : (tasks ++ [task]).filter sampled = tasks.filter sampled ++ [task] := by simp [counts]
  rw [update_sampled counts,Option.getD_some]
  refine ⟨?_,?_,?_⟩
  · rw [List.countP_append,List.countP_singleton,if_pos counts,← seen.count]
  · unfold throughputs
    rw [listed,List.map_append]
    exact seen.throughput.sampled low high
  · unfold completions
    rw [listed,List.filter_append]
    by_cases some_generated : 0 < task.completionTokens.getD 0
    · have kept : generated task = true := decide_eq_true some_generated
      rw [List.filter_cons_of_pos kept,List.filter_nil,List.map_append,if_pos some_generated]
      exact seen.completion.sampled low high
    · have dropped : ¬ generated task = true := fun kept => some_generated (of_decide_eq_true kept)
      rw [List.filter_cons_of_neg dropped,List.filter_nil,List.append_nil,if_neg some_generated]
      exact seen.completion

theorem run_observed (low : 0 ≤ alpha) (high : alpha ≤ 1) (tasks : List Task) :
    Observed tasks ((dispatchStats alpha tasks).getD {}) := by
  induction tasks using List.reverseRecOn with
  | nil => exact ⟨rfl,averages_nil,averages_nil⟩
  | append_singleton tasks task ih =>
    rw [dispatchStats_append]
    cases counts : sampled task with
    | false =>
      rw [update_skipped counts]
      exact observed_skipped counts ih
    | true => exact observed_sampled low high counts ih

theorem sampled_positive (counts : sampled task = true) : 0 < tokensPerSecond task := by
  simp only [sampled,Bool.and_eq_true,decide_eq_true_eq] at counts
  exact div_pos counts.2 counts.1.2

-- After any calls the averages lie in the range of the samples, and a call for a task
-- that does not count changes nothing.
theorem averages_within (alpha : ℚ) (low : 0 ≤ alpha) (high : alpha ≤ 1) (tasks : List Task) :
    Observed tasks ((dispatchStats alpha tasks).getD {}) ∧
    (((dispatchStats alpha tasks).getD {}).tokensPerSecondEwma = none ↔ ((dispatchStats alpha tasks).getD {}).sampleCount = 0) ∧
    (∀ tps, ((dispatchStats alpha tasks).getD {}).tokensPerSecondEwma = some tps → 0 < tps) ∧
    ∀ task, sampled task = false → dispatchStats alpha (tasks ++ [task]) = dispatchStats alpha tasks := by
  have seen := run_observed low high tasks
  refine ⟨seen,?_,fun tps set => ?_,fun task skipped => ?_⟩
  · rw [seen.throughput.unset,seen.count,List.countP_eq_length_filter,List.length_eq_zero_iff]
    exact List.map_eq_nil_iff
  · refine (seen.throughput.within tps set).positive fun x listed => ?_
    obtain ⟨task,member,rfl⟩ := List.mem_map.mp listed
    exact sampled_positive (List.mem_filter.mp member).2
  · rw [dispatchStats_append]
    exact update_skipped skipped

def answeredTask (startedAt : Option Instant) (promptTokens completionTokens : Int) : Task where
  batchId := 0
  lineIndex := 0
  customId := []
  requestBody := []
  reservedTokens := 0
  promptTokensEstimate := 0
  maxTokens := 0
  promptTokens := some promptTokens
  completionTokens := some completionTokens
  startedAt := startedAt
  finishedAt := some 2000000

-- Two tasks of two seconds, and one that was never dispatched.
def answeredTasks : List Task := [answeredTask (some 0) 100 30,answeredTask none 100 30,answeredTask (some 0) 10 0]

theorem averages_within_answered :
    (dispatchStats (1/2) answeredTasks).map DispatchStat.sampleCount = some 2 ∧
      Observed answeredTasks ((dispatchStats (1/2) answeredTasks).getD {}) :=
  ⟨by decide +kernel,(averages_within (1/2) (by norm_num) (by norm_num) answeredTasks).1⟩

end BatchGateway.DispatchAverages
