import BatchGateway.Models

namespace BatchGateway.Eta

-- Read as an exact rational; the code multiplies by the double nearest to it.
def promptTokenWeight : ℚ := 1 / 10

def ewma (alpha sample : ℚ) : Option ℚ → ℚ
  | none => sample
  | some average => alpha * sample + (1 - alpha) * average

def weightedTokens (task : Task) : ℚ :=
  (task.promptTokens.getD 0 : ℚ) * promptTokenWeight + (task.completionTokens.getD 0 : ℚ)

def updateDispatchStats (alpha : ℚ) (task : Task) (stat : Option DispatchStat) : Option DispatchStat :=
  match task.startedAt,task.finishedAt with
  | some startedAt,some finishedAt =>
    let durationSeconds : ℚ := ((finishedAt - startedAt : Int) : ℚ) / 1000000
    if durationSeconds ≤ 0 then stat
    else if weightedTokens task ≤ 0 then stat
    else
      let sampleTps := weightedTokens task / durationSeconds
      let row := stat.getD {}
      let completionSample := task.completionTokens.getD 0
      some {
        tokensPerSecondEwma := some (ewma alpha sampleTps row.tokensPerSecondEwma)
        avgCompletionTokensEwma :=
          if 0 < completionSample then some (ewma alpha completionSample row.avgCompletionTokensEwma)
          else row.avgCompletionTokensEwma
        sampleCount := row.sampleCount + 1}
  | _,_ => stat

end BatchGateway.Eta
