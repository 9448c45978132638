import Mathlib

/-!
# The health of a controller

The score of a checkup is made of the restarts, the response times and the memory usage of the
processes, each averaged and put on a slope between a healthy and an unhealthy limit. Without a
process that is required there is nothing to average. Floating-point numbers are rational, and
a quotient by zero is no number.
-/

namespace HybridOs.CopsDoctor

/-- A quotient of floating-point numbers. -/
def divide (dividend divisor : ℚ) : Option ℚ :=
  if divisor = 0 then none else some (dividend / divisor)

/-- `processHealthStats`, as far as responses and checkups use it. Times are in nanoseconds. -/
structure ProcessHealthStats where
  avgMemUsagePercent : ℚ
  lastConfirmedAlive : ℤ
  lastResponseTime : ℤ
  maxResponseTime : ℤ
  avgResponseTimeMS : ℚ
  sumRecentResponseTimesMS : ℤ
  recentResponseTimes : List ℤ
  recentRestarts : List ℤ

/-- `processInfo`, as far as responses and checkups use it. -/
structure ProcessInfo where
  alive : Bool
  requiredForHealthyStatus : Bool
  healthStats : ProcessHealthStats

/-- `doctor`, without the processes. -/
structure Doctor where
  totalHealthThreshold : ℚ
  restartRateWeight : ℚ
  downtimeWeight : ℚ
  downtimeHealthyLimitMS : ℚ
  downtimeUnhealthyLimitMS : ℚ
  memUsgWeight : ℚ
  memUsgHealthyLimit : ℚ
  memUsgUnhealthyLimit : ℚ

/-- `configure`. -/
def configure (heartbeatFrequencyMS : ℚ) : Doctor where
  totalHealthThreshold := 7 / 10
  restartRateWeight := 1
  downtimeWeight := 1
  downtimeHealthyLimitMS := heartbeatFrequencyMS
  downtimeUnhealthyLimitMS := heartbeatFrequencyMS * 5
  memUsgWeight := 1
  memUsgHealthyLimit := 2
  memUsgUnhealthyLimit := 10

/-- `requiredProcesses`, as `configure` collects them. -/
def requiredProcesses (processJurisdiction : List ProcessInfo) : List ProcessInfo :=
  processJurisdiction.filter (·.requiredForHealthyStatus)

/-! ## Responses -/

/-- `time.Since`. -/
def timeSince (now t : ℤ) : ℤ := min (now - t) (2 ^ 63 - 1)

/-- `Milliseconds` of a duration. -/
def milliseconds (duration : ℤ) : ℤ := duration.tdiv 1000000

/-- `updateAvgResponseTime`. -/
def ProcessHealthStats.updateAvgResponseTime (stats : ProcessHealthStats) : ProcessHealthStats :=
  let stats :=
    if 10 ≤ stats.recentResponseTimes.length then
      {stats with
        sumRecentResponseTimesMS := stats.sumRecentResponseTimesMS -
          milliseconds (stats.recentResponseTimes.headD 0)
        recentResponseTimes := stats.recentResponseTimes.tail}
    else stats
  let sumRecentResponseTimesMS := stats.sumRecentResponseTimesMS +
    milliseconds stats.lastResponseTime
  let recentResponseTimes := stats.recentResponseTimes ++ [stats.lastResponseTime]
  {stats with
    sumRecentResponseTimesMS := sumRecentResponseTimesMS
    recentResponseTimes := recentResponseTimes
    avgResponseTimeMS := sumRecentResponseTimesMS / recentResponseTimes.length}

/-- `recordResponse` with its two readings of the clock. -/
def ProcessHealthStats.recordResponse (stats : ProcessHealthStats) (since now : ℤ) :
    ProcessHealthStats :=
  let lastResponseTime := timeSince since stats.lastConfirmedAlive
  ProcessHealthStats.updateAvgResponseTime {stats with
    lastResponseTime := lastResponseTime
    maxResponseTime :=
      if lastResponseTime > stats.maxResponseTime then lastResponseTime
      else stats.maxResponseTime
    lastConfirmedAlive := now}

/-- The statistics of a process that is configured. -/
def ProcessHealthStats.configured (beginningTime : ℤ) : ProcessHealthStats where
  avgMemUsagePercent := 0
  lastConfirmedAlive := beginningTime
  lastResponseTime := 0
  maxResponseTime := 0
  avgResponseTimeMS := 0
  sumRecentResponseTimesMS := 0
  recentResponseTimes := []
  recentRestarts := []

/-- Responses one after another. -/
def ProcessHealthStats.run (stats : ProcessHealthStats) (readings : List (ℤ × ℤ)) :
    ProcessHealthStats :=
  readings.foldl (fun stats reading => stats.recordResponse reading.1 reading.2) stats

/-! ## Checkups -/

/-- `calculateScoreFromDroop`. -/
def calculateScoreFromDroop (x healthyLimit unhealthyLimit : ℚ) : Option ℚ :=
  if x ≤ healthyLimit then some 1
  else if x ≥ unhealthyLimit then some 0
  else (divide (-1) (unhealthyLimit - healthyLimit)).map fun slope =>
    slope * (x - healthyLimit) + 1

/-- `removeOldRestarts` at a reading of the clock. -/
def ProcessInfo.removeOldRestarts (process : ProcessInfo) (now : ℤ) : ProcessInfo :=
  {process with
    healthStats := {process.healthStats with
      recentRestarts := process.healthStats.recentRestarts.filter fun restart =>
        ¬ restart < now - 30 * 1000000000}}

/-- The restarts of a process for each second. -/
def ProcessInfo.restartsPerSecond (process : ProcessInfo) (now : ℤ) : ℚ :=
  (process.removeOldRestarts now).healthStats.recentRestarts.length / 30

/-- `calculateRestartRateScore`. -/
def calculateRestartRateScore (processJurisdiction : List ProcessInfo) (now : ℤ) : Option ℚ :=
  let required := requiredProcesses processJurisdiction
  (divide (required.map (·.restartsPerSecond now)).sum required.length).bind fun x =>
    calculateScoreFromDroop x 0 1

/-- The response time of a process, or the time since it was last heard of. -/
def ProcessInfo.downtime (process : ProcessInfo) (now : ℤ) : ℚ :=
  if process.alive then process.healthStats.avgResponseTimeMS
  else milliseconds (timeSince now process.healthStats.lastConfirmedAlive)

/-- `calculateDowntimeScore`. -/
def Doctor.calculateDowntimeScore (dr : Doctor) (processJurisdiction : List ProcessInfo)
    (now : ℤ) : Option ℚ :=
  let required := requiredProcesses processJurisdiction
  (divide (required.map (·.downtime now)).sum required.length).bind fun x =>
    calculateScoreFromDroop x dr.downtimeHealthyLimitMS dr.downtimeUnhealthyLimitMS

/-- `calculateMemUsgScore`. -/
def Doctor.calculateMemUsgScore (dr : Doctor) (processJurisdiction : List ProcessInfo) :
    Option ℚ :=
  (divide (processJurisdiction.map (·.healthStats.avgMemUsagePercent)).sum
    processJurisdiction.length).bind fun x =>
      calculateScoreFromDroop x dr.memUsgHealthyLimit dr.memUsgUnhealthyLimit

/-- `healthCheckup`: the score. -/
def Doctor.healthCheckup (dr : Doctor) (processJurisdiction : List ProcessInfo) (now : ℤ) :
    Option ℚ := do
  let restartRateScore ← calculateRestartRateScore processJurisdiction now
  let downtimeScore ← dr.calculateDowntimeScore processJurisdiction now
  let memUsgScore ← dr.calculateMemUsgScore processJurisdiction
  divide (dr.restartRateWeight * restartRateScore + dr.downtimeWeight * downtimeScore +
    dr.memUsgWeight * memUsgScore) (dr.restartRateWeight + dr.downtimeWeight + dr.memUsgWeight)

/-! ## The window of responses -/

/-- The last ten of some response times. -/
def window (responseTimes : List ℤ) : List ℤ := responseTimes.drop (responseTimes.length - 10)

/-- The response times of a run. -/
def responseTimes : ℤ → List (ℤ × ℤ) → List ℤ
  | _, [] => []
  | lastConfirmedAlive, reading :: rest =>
    timeSince reading.1 lastConfirmedAlive :: responseTimes reading.2 rest

/-- The average is the one of the last ten response times. -/
structure Averages (stats : ProcessHealthStats) (responseTimes : List ℤ) : Prop where
  recentResponseTimes : stats.recentResponseTimes = window responseTimes
  sumRecentResponseTimesMS :
    stats.sumRecentResponseTimesMS = ((window responseTimes).map milliseconds).sum
  avgResponseTimeMS : stats.avgResponseTimeMS =
    stats.sumRecentResponseTimesMS / stats.recentResponseTimes.length

/-- A response leaves the oldest one of ten out. -/
theorem window_append (responseTimes : List ℤ) (responseTime : ℤ) :
    window (responseTimes ++ [responseTime]) =
      (if 10 ≤ (window responseTimes).length then (window responseTimes).tail
        else window responseTimes) ++ [responseTime] := by
  have hlength : (window responseTimes).length =
      responseTimes.length - (responseTimes.length - 10) := by
    rw [window, List.length_drop]
  by_cases hfull : 10 ≤ responseTimes.length
  · have hdrop : responseTimes.length + 1 - 10 = responseTimes.length - 10 + 1 := by omega
    rw [if_pos (by omega), window, window, List.length_append, List.length_singleton, hdrop,
      List.drop_append_of_le_length (by omega), List.tail_drop]
  · have hdrop : responseTimes.length + 1 - 10 = 0 := by omega
    have hall : responseTimes.length - 10 = 0 := by omega
    rw [if_neg (by omega), window, window, List.length_append, List.length_singleton, hdrop, hall,
      List.drop_zero, List.drop_zero]

/-- One response keeps the average. -/
theorem Averages.recordResponse {stats : ProcessHealthStats} {responseTimes : List ℤ}
    (haverages : Averages stats responseTimes) (since now : ℤ) :
    Averages (stats.recordResponse since now)
      (responseTimes ++ [timeSince since stats.lastConfirmedAlive]) := by
  have hrecent := haverages.recentResponseTimes
  have hsum := haverages.sumRecentResponseTimesMS
  by_cases hfull : 10 ≤ (window responseTimes).length
  · have hhead : ((window responseTimes).map milliseconds).sum =
        milliseconds ((window responseTimes).headD 0) +
          ((window responseTimes).tail.map milliseconds).sum := by
      cases hwindow : window responseTimes with
      | nil =>
        rw [hwindow] at hfull
        contradiction
      | cons first rest => simp
    constructor
    · rw [window_append, if_pos hfull]
      simp [ProcessHealthStats.recordResponse, ProcessHealthStats.updateAvgResponseTime, hrecent,
        hfull]
    · rw [window_append, if_pos hfull, List.map_append, List.sum_append]
      simp [ProcessHealthStats.recordResponse, ProcessHealthStats.updateAvgResponseTime, hrecent,
        hfull, hsum, hhead]
    · simp [ProcessHealthStats.recordResponse, ProcessHealthStats.updateAvgResponseTime]
  · constructor
    · rw [window_append, if_neg hfull]
      simp [ProcessHealthStats.recordResponse, ProcessHealthStats.updateAvgResponseTime, hrecent,
        hfull]
    · rw [window_append, if_neg hfull, List.map_append, List.sum_append]
      simp [ProcessHealthStats.recordResponse, ProcessHealthStats.updateAvgResponseTime, hrecent,
        hfull, hsum]
    · simp [ProcessHealthStats.recordResponse, ProcessHealthStats.updateAvgResponseTime]

/-- A response confirms the process now. -/
theorem recordResponse_lastConfirmedAlive (stats : ProcessHealthStats) (since now : ℤ) :
    (stats.recordResponse since now).lastConfirmedAlive = now := by
  simp only [ProcessHealthStats.recordResponse, ProcessHealthStats.updateAvgResponseTime]
  split_ifs <;> rfl

/-- A run of responses keeps the average. -/
theorem Averages.run (readings : List (ℤ × ℤ)) :
    ∀ {stats : ProcessHealthStats} {earlier : List ℤ}, Averages stats earlier →
      Averages (stats.run readings)
        (earlier ++ responseTimes stats.lastConfirmedAlive readings) := by
  induction readings with
  | nil =>
    intro stats earlier haverages
    rw [responseTimes, List.append_nil]
    exact haverages
  | cons reading rest ih =>
    intro stats earlier haverages
    have hrest := ih (haverages.recordResponse reading.1 reading.2)
    rw [recordResponse_lastConfirmedAlive, List.append_assoc] at hrest
    exact hrest

/-- Without responses the averages are those of none. -/
theorem averages_configured (beginningTime : ℤ) : Averages (.configured beginningTime) [] := by
  constructor <;> simp [ProcessHealthStats.configured, window]

/-- The mean of some response times in milliseconds. -/
def mean (responseTimes : List ℤ) : ℚ :=
  (responseTimes.map fun responseTime : ℤ => (responseTime : ℚ) / 1000000).sum /
    responseTimes.length

/-- The parts of response times that are no whole milliseconds. -/
def fractions (responseTimes : List ℤ) : ℤ := (responseTimes.map (·.tmod 1000000)).sum

/-- Milliseconds and the fractions cut off make up the response times. -/
theorem sum_milliseconds (responseTimes : List ℤ) :
    (((responseTimes.map milliseconds).sum : ℤ) : ℚ) + (fractions responseTimes : ℚ) / 1000000 =
      (responseTimes.map fun responseTime : ℤ => (responseTime : ℚ) / 1000000).sum := by
  induction responseTimes with
  | nil => simp [fractions]
  | cons first rest ih =>
    have hfirst : (first : ℚ) = 1000000 * (milliseconds first : ℚ) + (first.tmod 1000000 : ℚ) := by
      have hdiv := Int.mul_tdiv_add_tmod first 1000000
      rw [milliseconds]
      exact_mod_cast hdiv.symm
    rw [fractions] at ih ⊢
    simp only [List.map_cons, List.sum_cons, Int.cast_add] at ih ⊢
    rw [← ih]
    linarith

/-- The average of a run is the mean of the last ten response times exactly where the parts of
them that are no whole milliseconds sum up to zero. -/
theorem run_average_iff (beginningTime : ℤ) (readings : List (ℤ × ℤ)) :
    (ProcessHealthStats.run (.configured beginningTime) readings).avgResponseTimeMS =
        mean (window (responseTimes beginningTime readings)) ↔
      fractions (window (responseTimes beginningTime readings)) = 0 := by
  have hrun := (averages_configured beginningTime).run readings
  rw [List.nil_append] at hrun
  have hlast : (ProcessHealthStats.configured beginningTime).lastConfirmedAlive =
    beginningTime := rfl
  rw [hlast] at hrun
  rw [hrun.avgResponseTimeMS, hrun.sumRecentResponseTimesMS, hrun.recentResponseTimes, mean,
    ← sum_milliseconds]
  by_cases hempty : window (responseTimes beginningTime readings) = []
  · simp [hempty, fractions]
  · have hlength : ((window (responseTimes beginningTime readings)).length : ℚ) ≠ 0 := by
      rw [Nat.cast_ne_zero, ne_eq, List.length_eq_zero_iff]
      exact hempty
    rw [div_left_inj' hlength, left_eq_add, div_eq_zero_iff]
    norm_num

/-! ## The score -/

/-- The slope between a healthy and an unhealthy limit. -/
def droop (x healthyLimit unhealthyLimit : ℚ) : ℚ :=
  max 0 (min 1 ((unhealthyLimit - x) / (unhealthyLimit - healthyLimit)))

/-- Between two different limits the score is the droop. -/
theorem calculateScoreFromDroop_eq (x : ℚ) {healthyLimit unhealthyLimit : ℚ}
    (hlimits : healthyLimit < unhealthyLimit) :
    calculateScoreFromDroop x healthyLimit unhealthyLimit =
      some (droop x healthyLimit unhealthyLimit) := by
  have hpos : 0 < unhealthyLimit - healthyLimit := sub_pos.2 hlimits
  rw [calculateScoreFromDroop, droop]
  split_ifs with hhealthy hunhealthy
  · have hone : 1 ≤ (unhealthyLimit - x) / (unhealthyLimit - healthyLimit) := by
      rw [le_div_iff₀ hpos]
      linarith
    rw [min_eq_left hone, max_eq_right zero_le_one]
  · have hzero : (unhealthyLimit - x) / (unhealthyLimit - healthyLimit) ≤ 0 :=
      div_nonpos_of_nonpos_of_nonneg (by linarith) hpos.le
    rw [max_eq_left ((min_le_right _ _).trans hzero)]
  · have hquotient : -1 / (unhealthyLimit - healthyLimit) * (x - healthyLimit) + 1 =
        (unhealthyLimit - x) / (unhealthyLimit - healthyLimit) := by
      field_simp
      ring
    have hnonneg : 0 ≤ (unhealthyLimit - x) / (unhealthyLimit - healthyLimit) :=
      div_nonneg (by linarith) hpos.le
    have hone : (unhealthyLimit - x) / (unhealthyLimit - healthyLimit) ≤ 1 := by
      rw [div_le_one hpos]
      linarith
    rw [divide, if_neg hpos.ne', Option.map_some, hquotient, min_eq_right hone,
      max_eq_right hnonneg]

/-- A droop is not negative. -/
theorem droop_nonneg (x healthyLimit unhealthyLimit : ℚ) :
    0 ≤ droop x healthyLimit unhealthyLimit := le_max_left _ _

/-- A droop is at most one. -/
theorem droop_le_one (x healthyLimit unhealthyLimit : ℚ) :
    droop x healthyLimit unhealthyLimit ≤ 1 := max_le zero_le_one (min_le_left _ _)

/-- A worse value has no better droop. -/
theorem droop_anti {x y healthyLimit unhealthyLimit : ℚ}
    (hlimits : healthyLimit < unhealthyLimit) (hle : x ≤ y) :
    droop y healthyLimit unhealthyLimit ≤ droop x healthyLimit unhealthyLimit := by
  rw [droop, droop]
  gcongr

/-- The mean of what is measured at some processes. -/
def average (measure : ProcessInfo → ℚ) (processes : List ProcessInfo) : ℚ :=
  (processes.map measure).sum / processes.length

/-- The quotient over some processes is their average. -/
theorem divide_eq_average (measure : ProcessInfo → ℚ) {processes : List ProcessInfo}
    (hne : processes ≠ []) :
    divide (processes.map measure).sum processes.length = some (average measure processes) := by
  have hlength : (processes.length : ℚ) ≠ 0 := by
    rw [Nat.cast_ne_zero, ne_eq, List.length_eq_zero_iff]
    exact hne
  rw [divide, if_neg hlength, average]

/-- The score where some process is required. -/
def score (heartbeatFrequencyMS : ℚ) (processJurisdiction : List ProcessInfo) (now : ℤ) : ℚ :=
  let required := requiredProcesses processJurisdiction
  (droop (average (·.restartsPerSecond now) required) 0 1 +
    droop (average (·.downtime now) required) heartbeatFrequencyMS (heartbeatFrequencyMS * 5) +
    droop (average (·.healthStats.avgMemUsagePercent) processJurisdiction) 2 10) / 3

/-- There is a required process. -/
theorem requiredProcesses_ne_nil {processJurisdiction : List ProcessInfo} :
    requiredProcesses processJurisdiction ≠ [] ↔
      ∃ process ∈ processJurisdiction, process.requiredForHealthyStatus = true := by
  rw [requiredProcesses, ne_eq, List.filter_eq_nil_iff]
  push Not
  rfl

variable {heartbeatFrequencyMS : ℚ} {processJurisdiction : List ProcessInfo} {now : ℤ}

/-- With a required process the checkup gives the score. -/
theorem healthCheckup_eq (hpos : 0 < heartbeatFrequencyMS)
    (hrequired : requiredProcesses processJurisdiction ≠ []) :
    (configure heartbeatFrequencyMS).healthCheckup processJurisdiction now =
      some (score heartbeatFrequencyMS processJurisdiction now) := by
  have hne : processJurisdiction ≠ [] := by
    rintro rfl
    exact hrequired rfl
  have hrestarts : calculateRestartRateScore processJurisdiction now =
      some (droop (average (·.restartsPerSecond now) (requiredProcesses processJurisdiction))
        0 1) := by
    rw [calculateRestartRateScore]
    rw [divide_eq_average _ hrequired, Option.bind_some,
      calculateScoreFromDroop_eq _ zero_lt_one]
  have hdowntime : (configure heartbeatFrequencyMS).calculateDowntimeScore processJurisdiction
      now = some (droop (average (·.downtime now) (requiredProcesses processJurisdiction))
        heartbeatFrequencyMS (heartbeatFrequencyMS * 5)) := by
    rw [Doctor.calculateDowntimeScore]
    rw [divide_eq_average _ hrequired, Option.bind_some]
    have hlimits : (configure heartbeatFrequencyMS).downtimeHealthyLimitMS <
        (configure heartbeatFrequencyMS).downtimeUnhealthyLimitMS := by
      change heartbeatFrequencyMS < heartbeatFrequencyMS * 5
      linarith
    exact calculateScoreFromDroop_eq _ hlimits
  have hmemory : (configure heartbeatFrequencyMS).calculateMemUsgScore processJurisdiction =
      some (droop (average (·.healthStats.avgMemUsagePercent) processJurisdiction) 2 10) := by
    rw [Doctor.calculateMemUsgScore, divide_eq_average _ hne, Option.bind_some]
    have hlimits : (configure heartbeatFrequencyMS).memUsgHealthyLimit <
        (configure heartbeatFrequencyMS).memUsgUnhealthyLimit := by
      change (2 : ℚ) < 10
      norm_num
    exact calculateScoreFromDroop_eq _ hlimits
  rw [Doctor.healthCheckup, hrestarts, hdowntime, hmemory]
  simp only [configure, divide]
  norm_num [score]

/-- Without one it divides by zero. -/
theorem healthCheckup_none (hrequired : requiredProcesses processJurisdiction = []) :
    (configure heartbeatFrequencyMS).healthCheckup processJurisdiction now = none := by
  have hrestarts : calculateRestartRateScore processJurisdiction now = none := by
    simp [calculateRestartRateScore, hrequired, divide]
  rw [Doctor.healthCheckup, hrestarts]
  rfl

/-- A score is between zero and one. -/
theorem score_range : 0 ≤ score heartbeatFrequencyMS processJurisdiction now ∧
    score heartbeatFrequencyMS processJurisdiction now ≤ 1 := by
  have hrestarts := droop_nonneg
    (average (·.restartsPerSecond now) (requiredProcesses processJurisdiction)) 0 1
  have hrestarts' := droop_le_one
    (average (·.restartsPerSecond now) (requiredProcesses processJurisdiction)) 0 1
  have hdowntime := droop_nonneg
    (average (·.downtime now) (requiredProcesses processJurisdiction)) heartbeatFrequencyMS
    (heartbeatFrequencyMS * 5)
  have hdowntime' := droop_le_one
    (average (·.downtime now) (requiredProcesses processJurisdiction)) heartbeatFrequencyMS
    (heartbeatFrequencyMS * 5)
  have hmemory := droop_nonneg
    (average (·.healthStats.avgMemUsagePercent) processJurisdiction) 2 10
  have hmemory' := droop_le_one
    (average (·.healthStats.avgMemUsagePercent) processJurisdiction) 2 10
  rw [score]
  constructor <;> linarith

/-! ## Sicker processes -/

/-- The process has further restarts, a longer response time or a larger memory usage. -/
structure Sicker (now : ℤ) (process sicker : ProcessInfo) : Prop where
  requiredForHealthyStatus :
    sicker.requiredForHealthyStatus = process.requiredForHealthyStatus
  recentRestarts :
    process.healthStats.recentRestarts.Sublist sicker.healthStats.recentRestarts
  downtime : process.downtime now ≤ sicker.downtime now
  avgMemUsagePercent :
    process.healthStats.avgMemUsagePercent ≤ sicker.healthStats.avgMemUsagePercent

/-- A sicker process restarts no less often. -/
theorem Sicker.restartsPerSecond {process sicker : ProcessInfo} (h : Sicker now process sicker) :
    process.restartsPerSecond now ≤ sicker.restartsPerSecond now := by
  have hlength := (h.recentRestarts.filter fun restart =>
    ¬ restart < now - 30 * 1000000000).length_le
  rw [ProcessInfo.restartsPerSecond, ProcessInfo.restartsPerSecond]
  have hcast : ((process.removeOldRestarts now).healthStats.recentRestarts.length : ℚ) ≤
      (sicker.removeOldRestarts now).healthStats.recentRestarts.length :=
    Nat.cast_le.2 hlength
  linarith

variable {sickers : List ProcessInfo}

/-- The required processes are sicker where all are. -/
theorem sicker_required (h : List.Forall₂ (Sicker now) processJurisdiction sickers) :
    List.Forall₂ (Sicker now) (requiredProcesses processJurisdiction)
      (requiredProcesses sickers) := by
  induction h with
  | nil => exact List.Forall₂.nil
  | cons hfirst _ ih =>
    rw [requiredProcesses, requiredProcesses, List.filter_cons, List.filter_cons,
      hfirst.requiredForHealthyStatus]
    split_ifs
    · exact List.Forall₂.cons hfirst ih
    · exact ih

/-- The average over sicker processes is no smaller. -/
theorem average_mono {measure : ProcessInfo → ℚ}
    (hmeasure : ∀ {process sicker}, Sicker now process sicker → measure process ≤ measure sicker)
    (h : List.Forall₂ (Sicker now) processJurisdiction sickers) :
    average measure processJurisdiction ≤ average measure sickers := by
  have hsum : (processJurisdiction.map measure).sum ≤ (sickers.map measure).sum := by
    induction h with
    | nil => exact le_rfl
    | cons hfirst _ ih =>
      rw [List.map_cons, List.map_cons, List.sum_cons, List.sum_cons]
      exact add_le_add (hmeasure hfirst) ih
  rw [average, average, h.length_eq]
  gcongr

/-- Sicker processes score no better. -/
theorem score_anti (hpos : 0 < heartbeatFrequencyMS)
    (h : List.Forall₂ (Sicker now) processJurisdiction sickers) :
    score heartbeatFrequencyMS sickers now ≤
      score heartbeatFrequencyMS processJurisdiction now := by
  have hrestarts := droop_anti zero_lt_one
    (average_mono (fun hsicker => hsicker.restartsPerSecond) (sicker_required h))
  have hdowntime := droop_anti (by linarith : heartbeatFrequencyMS < heartbeatFrequencyMS * 5)
    (average_mono (fun hsicker => hsicker.downtime) (sicker_required h))
  have hmemory := droop_anti (by norm_num : (2 : ℚ) < 10)
    (average_mono (fun hsicker => hsicker.avgMemUsagePercent) h)
  rw [score, score]
  linarith

/-! ## Checkups and averages -/

/-- The checkup gives a score between zero and one, which is no higher for sicker processes. -/
structure ChecksUp (heartbeatFrequencyMS : ℚ) (processJurisdiction : List ProcessInfo)
    (now : ℤ) : Prop where
  score : ∃ score, (configure heartbeatFrequencyMS).healthCheckup processJurisdiction now =
    some score ∧ 0 ≤ score ∧ score ≤ 1
  sicker : ∀ sickers, List.Forall₂ (Sicker now) processJurisdiction sickers →
    ∃ score sickerScore,
      (configure heartbeatFrequencyMS).healthCheckup processJurisdiction now = some score ∧
      (configure heartbeatFrequencyMS).healthCheckup sickers now = some sickerScore ∧
      sickerScore ≤ score

/-- The checkup works exactly with a required process. -/
theorem checksUp_iff (hpos : 0 < heartbeatFrequencyMS) :
    ChecksUp heartbeatFrequencyMS processJurisdiction now ↔
      ∃ process ∈ processJurisdiction, process.requiredForHealthyStatus = true := by
  rw [← requiredProcesses_ne_nil]
  constructor
  · rintro ⟨⟨score, hscore, -⟩, -⟩ hnone
    rw [healthCheckup_none hnone] at hscore
    contradiction
  · intro hrequired
    constructor
    · exact ⟨_, healthCheckup_eq hpos hrequired, score_range⟩
    · intro sickers hsickers
      have hsickerRequired : requiredProcesses sickers ≠ [] := by
        intro hnil
        have hlength := (sicker_required hsickers).length_eq
        rw [hnil, List.length_nil, List.length_eq_zero_iff] at hlength
        exact hrequired hlength
      exact ⟨_, _, healthCheckup_eq hpos hrequired, healthCheckup_eq hpos hsickerRequired,
        score_anti hpos hsickers⟩

/-- A checkup is sound exactly where some process is required, and the average of a run of
responses is the mean of the last ten exactly where the parts of them that are no whole
milliseconds sum up to zero. -/
theorem health_iff (hpos : 0 < heartbeatFrequencyMS) (processJurisdiction : List ProcessInfo)
    (now beginningTime : ℤ) (readings : List (ℤ × ℤ)) :
    (ChecksUp heartbeatFrequencyMS processJurisdiction now ↔
      ∃ process ∈ processJurisdiction, process.requiredForHealthyStatus = true) ∧
    ((ProcessHealthStats.run (.configured beginningTime) readings).avgResponseTimeMS =
        mean (window (responseTimes beginningTime readings)) ↔
      fractions (window (responseTimes beginningTime readings)) = 0) :=
  ⟨checksUp_iff hpos, run_average_iff beginningTime readings⟩

/-- A living process that is required. -/
def requiredProcess : ProcessInfo where
  alive := true
  requiredForHealthyStatus := true
  healthStats := .configured 0

theorem health_iff_required : ChecksUp 1000 [requiredProcess] 0 :=
  (health_iff (by norm_num) [requiredProcess] 0 0 []).1.2
    ⟨requiredProcess, List.mem_singleton_self _, rfl⟩

/-- Without a required process the score is no number. -/
theorem no_required_process :
    ¬ ∀ (heartbeatFrequencyMS : ℚ) (processJurisdiction : List ProcessInfo) (now : ℤ),
      0 < heartbeatFrequencyMS → ChecksUp heartbeatFrequencyMS processJurisdiction now := by
  intro hall
  obtain ⟨score, hscore, -⟩ := (hall 1000 [] 0 (by norm_num)).score
  rw [healthCheckup_none rfl] at hscore
  contradiction

end HybridOs.CopsDoctor
