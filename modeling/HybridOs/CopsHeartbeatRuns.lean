import HybridOs.CheckedRun
import HybridOs.CopsHeartbeat
import Mathlib.Data.List.Induction

/-!
# Runs of heartbeats, replies and patrols

Only a reply that echoes the current value is a sign of life, and it moves the value on.
While a process gives none, its limit stands still: a patrol that finds the limit passed
declares the process hung, with one kill signal at most. The table has the allowance that
was written in the configuration, and a patrol ends at the first process whose status
cannot be read, so both laws need that the allowance judges every reading as the validated
one would, and that the patrol gets to the process.
-/

namespace HybridOs.CopsHeartbeat

/-! ## Silence -/

/-- The judgement of a process depends on its settings and its pulse only. -/
theorem isHungOrDead_congr {p q : ProcessInfo} (hsettings : p.settings = q.settings)
    (hpulse : p.pulse = q.pulse) (now : ℤ) : p.isHungOrDead now = q.isHungOrDead now := by
  have hallowance : p.hangTimeAllowance = q.hangTimeAllowance := congrArg Prod.snd hsettings
  have hlast : p.healthStats.lastConfirmedAlive = q.healthStats.lastConfirmedAlive :=
    congrArg Prod.snd hpulse
  rw [ProcessInfo.isHungOrDead, ProcessInfo.isHungOrDead, hallowance, hlast]

/-- The entry of a process that has given no sign of life since it was `q`, in terms of the
time at which its allowance ends and the number of kill signals there were. -/
structure Silent (name : String) (q : ProcessInfo) (limit : ℤ) (kills : ℕ) (st : Supervisor)
    (p : ProcessInfo) : Prop where
  table : st.processJurisdiction name = some p
  settings : p.settings = q.settings
  pulse : p.pulse = q.pulse
  /-- A process that was signalled is dead and past its limit. -/
  killed : killsOf name st = kills ∨
    killsOf name st = kills + 1 ∧ p.alive = false ∧ limit < st.clock
  /-- A process declared dead in the meantime is past its limit. -/
  declared : p.alive = false → q.alive = false ∨ limit < st.clock

section Silence

variable {name : String} {q : ProcessInfo} {limit : ℤ} {kills : ℕ} {st : Supervisor}
  {p : ProcessInfo}

/-- A silent process stays so as time passes with nothing done to it. -/
theorem Silent.later {next : Supervisor} (h : Silent name q limit kills st p)
    (hclock : st.clock ≤ next.clock) {p' : ProcessInfo}
    (htable : next.processJurisdiction name = some p') (hsettings : p'.settings = p.settings)
    (hpulse : p'.pulse = p.pulse) (halive : p'.alive = p.alive)
    (hkills : killsOf name next = killsOf name st) : Silent name q limit kills next p' where
  table := htable
  settings := hsettings.trans h.settings
  pulse := hpulse.trans h.pulse
  killed := by
    rw [hkills, halive]
    exact h.killed.imp_right fun hk => ⟨hk.1, hk.2.1, by omega⟩
  declared := by
    rw [halive]
    exact fun hdead => (h.declared hdead).imp_right fun hl => by omega

/-- A visit whose readings judge by the limit keeps a silent process silent, and once its
limit has passed leaves it dead. -/
theorem Silent.visitOne (hrequired : q.requiredForHealthyStatus = true) {visit : Visit}
    {r : ProcessInfo} (h : Silent name q limit kills st p)
    (hr : st.processJurisdiction visit.name = some r)
    (hjudge : ∀ reading ∈ visitReadings st.clock [visit], reading.1 = name →
      (q.isHungOrDead reading.2 = true ↔ limit < reading.2)) :
    ∃ p', Silent name q limit kills (visitOne st visit) p' ∧
      (limit < st.clock → (visit.name = name ∨ p.alive = false) → p'.alive = false) := by
  have hclock := visitOne_clock hr
  have horder := readings_le visit st.clock
  by_cases hname : name = visit.name
  · subst hname
    obtain rfl : p = r := Option.some_inj.mp (h.table.symm.trans hr)
    have hhung : ∀ now, (visit.name, now) ∈ visitReadings st.clock [visit] →
        (p.isHungOrDead now = true ↔ limit < now) := fun now hnow => by
      rw [isHungOrDead_congr h.settings h.pulse now]
      exact hjudge (visit.name, now) hnow rfl
    have hfirst := hhung (visit.stillDeadAt st.clock) (by simp [visitReadings])
    have hsecond := hhung (visit.resurrectedAt st.clock) (by simp [visitReadings])
    have hlast := hhung (visit.hungAt st.clock) (by simp [visitReadings])
    have hrequiredp : p.requiredForHealthyStatus = true :=
      (congrArg Prod.fst h.settings).trans hrequired
    cases visitOne_checked hr with
    | unchanged table killsSame judged =>
      refine ⟨p, h.later (by omega) table rfl rfl rfl killsSame, fun hpast _ => ?_⟩
      by_contra halive
      rw [Bool.not_eq_false] at halive
      have hjudged := judged halive hrequiredp
      rw [hlast.mpr (by omega)] at hjudged
      exact absurd hjudged (by simp)
    | resurrected table killsSame wasDead judged =>
      have hnotPast : ¬ limit < visit.resurrectedAt st.clock := fun hpast => by
        rw [hsecond.mpr hpast] at judged
        exact absurd judged (by simp)
      refine ⟨_, ⟨table, h.settings, h.pulse, ?_, fun hdead => absurd hdead (by simp)⟩,
        fun hpast _ => absurd hpast (by omega)⟩
      rw [killsSame]
      exact Or.inl (h.killed.resolve_right fun hk => by omega)
    | declared table killsSame required judged notStill =>
      have hpast := hlast.mp judged
      refine ⟨_, ⟨table, h.settings, h.pulse, ?_, fun _ => Or.inr (by omega)⟩, fun _ _ => rfl⟩
      have hbefore : killsOf visit.name st = kills := h.killed.resolve_right fun hk => by
        have halive := notStill (hfirst.mpr (by omega))
        rw [halive] at hk
        exact absurd hk.2.1 (by simp)
      have hdead : (p.takeFailureAction visit).alive = false := rfl
      have hend : limit < (CopsHeartbeat.visitOne st visit).clock := by omega
      rw [hbefore] at killsSame
      by_cases hsame : killsOf visit.name (CopsHeartbeat.visitOne st visit) ≤ kills
      · have hge : kills ≤ killsOf visit.name (CopsHeartbeat.visitOne st visit) := by
          rw [← hbefore]
          exact killsOf_le_visitOne visit.name st visit
        exact Or.inl (by omega)
      · exact Or.inr ⟨by omega, hdead, hend⟩
  · obtain ⟨htable, hkills⟩ := visitOne_ne st hname
    refine ⟨p, h.later (by omega) (htable.trans h.table) rfl rfl rfl hkills, fun _ hor => ?_⟩
    exact hor.resolve_left fun heq => hname heq.symm

/-- The readings about the process judge it by the limit. -/
def Judges (name : String) (q : ProcessInfo) (limit : ℤ) (reading : String × ℤ) : Prop :=
  reading.1 = name → (q.isHungOrDead reading.2 = true ↔ limit < reading.2)

section

variable (hrequired : q.requiredForHealthyStatus = true) (h : Silent name q limit kills st p)
  (visits : List Visit)
  (hjudge : ∀ reading ∈ visitReadings st.clock (visited st visits), Judges name q limit reading)
include hrequired h visits hjudge

/-- A patrol whose readings judge by the limit keeps a silent process silent. -/
theorem silent_patrol : ∃ p', Silent name q limit kills (patrolProcesses st visits) p' :=
  patrol_rule (I := fun st => ∃ p, Silent name q limit kills st p)
    (fun _ _ _ hsilent hr hR => by
      obtain ⟨p, hsilent⟩ := hsilent
      obtain ⟨p', hsilent', -⟩ := hsilent.visitOne hrequired hr hR
      exact ⟨p', hsilent'⟩)
    visits ⟨p, h⟩ hjudge

/-- After the limit, a patrol that gets to a silent process leaves it dead, as does every
patrol that finds it dead. -/
theorem silent_patrol_dead (hpast : limit < st.clock)
    (hor : name ∈ (visited st visits).map Visit.name ∨ p.alive = false) :
    ∃ p', Silent name q limit kills (patrolProcesses st visits) p' ∧ p'.alive = false := by
  have hkept : ∀ st visit r, (∃ p, Silent name q limit kills st p ∧ p.alive = false ∧
      limit < st.clock) → st.processJurisdiction visit.name = some r →
      (∀ reading ∈ visitReadings st.clock [visit], Judges name q limit reading) →
      ∃ p, Silent name q limit kills (visitOne st visit) p ∧ p.alive = false ∧
        limit < (visitOne st visit).clock := by
    intro st visit r hdead hr hR
    obtain ⟨p, hsilent, hdead, hlimit⟩ := hdead
    obtain ⟨p', hsilent', hdead'⟩ := hsilent.visitOne hrequired hr hR
    have horder := readings_le visit st.clock
    have hclock := visitOne_clock hr
    exact ⟨p', hsilent', hdead' hlimit (Or.inr hdead), by omega⟩
  have hend : ∃ p, Silent name q limit kills (patrolProcesses st visits) p ∧
      p.alive = false ∧ limit < (patrolProcesses st visits).clock := by
    rcases hor with hreached | hdead
    · refine patrol_reaches
        (I := fun st => ∃ p, Silent name q limit kills st p ∧ limit < st.clock)
        (J := fun st => ∃ p, Silent name q limit kills st p ∧ p.alive = false ∧
          limit < st.clock) (fun st visit r hI hr hR => ?_) (fun st visit r hI hr hR hname => ?_)
        hkept visits ⟨p, h, hpast⟩ hjudge hreached
      · obtain ⟨p, hsilent, hlimit⟩ := hI
        obtain ⟨p', hsilent', -⟩ := hsilent.visitOne hrequired hr hR
        have horder := readings_le visit st.clock
        have hclock := visitOne_clock hr
        exact ⟨p', hsilent', by omega⟩
      · obtain ⟨p, hsilent, hlimit⟩ := hI
        obtain ⟨p', hsilent', hdead'⟩ := hsilent.visitOne hrequired hr hR
        have horder := readings_le visit st.clock
        have hclock := visitOne_clock hr
        exact ⟨p', hsilent', hdead' hlimit (Or.inl hname), by omega⟩
    · exact patrol_rule hkept visits ⟨p, h, hdead, hpast⟩ hjudge
  obtain ⟨p', hsilent', hdead', -⟩ := hend
  exact ⟨p', hsilent', hdead'⟩

end

end Silence

/-! ## The condition on patrols -/

/-- The allowance of a process as its validation leaves it, in nanoseconds. -/
def hangAllowance (process : Process) : ℤ :=
  process.withDefaults.hangTimeAllowanceMS.toInt * 1000000

/-- The patrol gets to every required process that is overdue, and at each of its readings
of a required process the table's allowance judges as the validated one. -/
def PatrolSound (c : Config) (st : Supervisor) (visits : List Visit) : Prop :=
  ∀ name conf p, c.process? name = some conf → conf.requiredForHealthyStatus = true →
    st.processJurisdiction name = some p →
    (p.alive = true → hangAllowance conf < st.clock - p.healthStats.lastConfirmedAlive →
      name ∈ (visited st visits).map Visit.name) ∧
    ∀ now, (name, now) ∈ visitReadings st.clock (visited st visits) →
      (p.isHungOrDead now = true ↔
        hangAllowance conf < now - p.healthStats.lastConfirmedAlive)

/-- Every patrol of a run meets the condition. -/
def PatrolsSound (c : Config) (st : Supervisor) (events : List Event) : Prop :=
  ∀ before visits after, events = before ++ .patrol visits :: after →
    PatrolSound c (run st before) visits

/-- No event of the run is a reply that echoes the current value of the process. -/
def NeverEchoes (name : String) (st : Supervisor) (events : List Event) : Prop :=
  ∀ before event after, events = before ++ event :: after →
    ∀ p, (run st before).processJurisdiction name = some p → ¬ Echoes name p event

theorem run_append (st : Supervisor) (before after : List Event) :
    run st (before ++ after) = run (run st before) after := List.foldl_append

theorem run_concat (st : Supervisor) (before : List Event) (event : Event) :
    run st (before ++ [event]) = step (run st before) event := by
  rw [run_append]
  rfl

variable {st : Supervisor} {p : ProcessInfo} {c : Config} {name : String} {conf : Process}
  {before after : List Event}

theorem PatrolsSound.prefix (h : PatrolsSound c st (before ++ after)) :
    PatrolsSound c st before := fun b visits a hsplit =>
  h b visits (a ++ after) (by rw [hsplit, List.append_assoc, List.cons_append])

theorem NeverEchoes.prefix (h : NeverEchoes name st (before ++ after)) :
    NeverEchoes name st before :=
  fun b event a hsplit => h b event (a ++ after)
    (by rw [hsplit, List.append_assoc, List.cons_append])

/-- The table has the configured settings throughout a run. -/
theorem run_settings (hconf : c.process? name = some conf) (beginningTime : ℤ) (events : List Event)
    :
    ∃ p, (run (configureCOPS beginningTime c) events).processJurisdiction name = some p ∧
      p.settings = (conf.requiredForHealthyStatus, conf.hangTimeAllowanceMS * 1000000) := by
  induction events using List.reverseRecOn with
  | nil =>
    refine ⟨processEntry beginningTime conf, ?_, rfl⟩
    change (c.process? name).map (processEntry beginningTime) = _
    rw [hconf, Option.map_some]
  | append_singleton before event ih =>
    obtain ⟨p, hp, hsettings⟩ := ih
    obtain ⟨p', hp', hsame⟩ := step_settings hp event
    rw [run_concat]
    exact ⟨p', hp', hsame.trans hsettings⟩

/-! ## The laws -/

/-- A reply is a sign of life once for every heartbeat value, and only when it echoes the
current one. -/
structure RepliesCounted (st : Supervisor) (events : List Event) : Prop where
  /-- Nothing but an echo changes the value or the time of the last sign of life. -/
  onlyEcho : ∀ before event after name p p', events = before ++ event :: after →
    (run st before).processJurisdiction name = some p →
    (run st (before ++ [event])).processJurisdiction name = some p' →
    p'.pulse ≠ p.pulse → Echoes name p event
  /-- An echo moves the value on and is recorded. -/
  recorded : ∀ before event after name p p', events = before ++ event :: after →
    (run st before).processJurisdiction name = some p →
    (run st (before ++ [event])).processJurisdiction name = some p' →
    Echoes name p event → p'.pulse = (p.heartbeat + 1, (run st (before ++ [event])).clock)
  /-- No value is echoed twice. -/
  once : ∀ before first between second after name p q,
    events = before ++ first :: (between ++ second :: after) →
    (run st before).processJurisdiction name = some p → Echoes name p first →
    (run st (before ++ first :: between)).processJurisdiction name = some q →
    Echoes name q second → p.heartbeat ≠ q.heartbeat

/-- A required process that stops echoing is declared dead at the first patrol after its
allowance, not before, stays dead, and is signalled once at most. -/
structure HangsDeclared (c : Config) (st : Supervisor) (events : List Event) : Prop where
  byPatrol : ∀ before silent visits after name conf q p,
    events = before ++ (silent ++ .patrol visits :: after) → c.process? name = some conf →
    conf.requiredForHealthyStatus = true →
    (run st before).processJurisdiction name = some q →
    NeverEchoes name (run st before) (silent ++ .patrol visits :: after) →
    hangAllowance conf < (run st (before ++ silent)).clock - q.healthStats.lastConfirmedAlive →
    (run st events).processJurisdiction name = some p → p.alive = false
  notBefore : ∀ before silent name conf q p, events = before ++ silent →
    c.process? name = some conf → conf.requiredForHealthyStatus = true →
    (run st before).processJurisdiction name = some q →
    NeverEchoes name (run st before) silent →
    (run st events).processJurisdiction name = some p → q.alive = true → p.alive = false →
    hangAllowance conf < (run st events).clock - q.healthStats.lastConfirmedAlive
  killedOnce : ∀ before silent name conf q, events = before ++ silent →
    c.process? name = some conf → conf.requiredForHealthyStatus = true →
    (run st before).processJurisdiction name = some q →
    NeverEchoes name (run st before) silent →
    killsOf name (run st events) ≤ killsOf name (run st before) + 1

/-- A process without a configured allowance that is never more than three seconds from its
last sign of life is not marked dead. -/
def KeepsAlive (c : Config) (st : Supervisor) (events : List Event) : Prop :=
  ∀ name conf, c.process? name = some conf → conf.hangTimeAllowanceMS = 0 →
    (∀ before after p, events = before ++ after →
      (run st before).processJurisdiction name = some p →
      (run st before).clock - p.healthStats.lastConfirmedAlive ≤ 3000000000) →
    ∀ p, (run st events).processJurisdiction name = some p → p.alive = true

/-- The heartbeat value moves on with every echo. -/
theorem run_heartbeat (hp : st.processJurisdiction name = some p) (events : List Event) :
    ∃ p' k, (run st events).processJurisdiction name = some p' ∧ k ≤ events.length ∧
      p'.heartbeat = p.heartbeat + UInt64.ofNat k := by
  induction events using List.reverseRecOn with
  | nil => exact ⟨p, 0, hp, Nat.le_refl _, by simp⟩
  | append_singleton before event ih =>
    obtain ⟨mid, k, hmid, hk, hvalue⟩ := ih
    rw [run_concat, List.length_append, List.length_singleton]
    by_cases hecho : Echoes name mid event
    · obtain ⟨p', hp', -, -, hpulse⟩ := step_echo hmid hecho
      have hnext : p'.heartbeat = mid.heartbeat + 1 := congrArg Prod.fst hpulse
      refine ⟨p', k + 1, hp', by omega, ?_⟩
      rw [hnext, hvalue, UInt64.add_assoc, UInt64.ofNat_add]
      rfl
    · obtain ⟨p', hp', -, hpulse⟩ := step_steady hmid event hecho
      exact ⟨p', k, hp', by omega, (congrArg Prod.fst hpulse).trans hvalue⟩

/-- As long as the values do not come round, no value is echoed twice. -/
theorem echoes_once {q : ProcessInfo} {first : Event} {between : List Event}
    (hlength : between.length + 1 < 2 ^ 64) (hp : st.processJurisdiction name = some p)
    (hfirst : Echoes name p first)
    (hq : (run st (first :: between)).processJurisdiction name = some q) :
    p.heartbeat ≠ q.heartbeat := by
  obtain ⟨p', hp', -, -, hpulse⟩ := step_echo hp hfirst
  obtain ⟨q', k, hq', hk, hvalue⟩ := run_heartbeat hp' between
  obtain rfl : q' = q := Option.some_inj.mp (hq'.symm.trans hq)
  have hnext : p'.heartbeat = p.heartbeat + 1 := congrArg Prod.fst hpulse
  intro heq
  have hround := congrArg UInt64.toNat (heq.trans hvalue)
  rw [hnext, UInt64.toNat_add, UInt64.toNat_add, UInt64.toNat_ofNat'] at hround
  have hbound := UInt64.toNat_lt p.heartbeat
  have hone : (1 : UInt64).toNat = 1 := rfl
  omega

theorem run_repliesCounted (st : Supervisor) {events : List Event}
    (hlength : events.length ≤ 2 ^ 64) : RepliesCounted st events where
  onlyEcho before event after name p p' _ hp hp' hpulse := by
    by_contra hecho
    obtain ⟨q, hq, -, hsame⟩ := step_steady hp event hecho
    rw [run_concat] at hp'
    exact hpulse (Option.some_inj.mp (hp'.symm.trans hq) ▸ hsame)
  recorded before event after name p p' _ hp hp' hecho := by
    obtain ⟨q, hq, -, -, hpulse⟩ := step_echo hp hecho
    rw [run_concat] at hp' ⊢
    exact Option.some_inj.mp (hp'.symm.trans hq) ▸ hpulse
  once before first between second after name p q hsplit hp hfirst hq _ := by
    rw [run_append] at hq
    refine echoes_once ?_ hp hfirst hq
    have hcount := congrArg List.length hsplit
    simp only [List.length_append, List.length_cons] at hcount
    omega

/-! ## Supervision -/

/-- What a sound patrol gives for a process that is silent since `q`. -/
theorem PatrolSound.judges {visits : List Visit} (h : PatrolSound c st visits) {q : ProcessInfo}
    (hconf : c.process? name = some conf) (hrequired : conf.requiredForHealthyStatus = true)
    {kills : ℕ}
    (hp : Silent name q (hangAllowance conf + q.healthStats.lastConfirmedAlive) kills st p) :
    (∀ reading ∈ visitReadings st.clock (visited st visits),
      Judges name q (hangAllowance conf + q.healthStats.lastConfirmedAlive) reading) ∧
    (p.alive = true → hangAllowance conf + q.healthStats.lastConfirmedAlive < st.clock →
      name ∈ (visited st visits).map Visit.name) := by
  obtain ⟨hreach, hjudge⟩ := h name conf p hconf hrequired hp.table
  have hlast : p.healthStats.lastConfirmedAlive = q.healthStats.lastConfirmedAlive :=
    congrArg Prod.snd hp.pulse
  refine ⟨fun reading hreading hname => ?_, fun halive hpast => hreach halive (by omega)⟩
  have hread : (name, reading.2) ∈ visitReadings st.clock (visited st visits) := by
    rw [← hname]
    exact hreading
  rw [← isHungOrDead_congr hp.settings hp.pulse, hjudge reading.2 hread, hlast]
  omega

section Run

variable {beginningTime : ℤ} {q : ProcessInfo}

/-- A process that does not echo is silent, as long as the patrols are sound. -/
theorem silent_run {st : Supervisor} {silent : List Event}
    (hsound : PatrolsSound c st silent) (hconf : c.process? name = some conf)
    (hrequired : conf.requiredForHealthyStatus = true)
    (hq : st.processJurisdiction name = some q) (hqrequired : q.requiredForHealthyStatus = true)
    (hnever : NeverEchoes name st silent) :
    ∃ p, Silent name q (hangAllowance conf + q.healthStats.lastConfirmedAlive)
      (killsOf name st) (run st silent) p := by
  induction silent using List.reverseRecOn with
  | nil =>
    exact ⟨q, hq, rfl, rfl, Or.inl rfl, fun hdead => Or.inl hdead⟩
  | append_singleton before event ih =>
    obtain ⟨p, hp⟩ := ih hsound.prefix hnever.prefix
    have hecho := hnever before event [] rfl p hp.table
    rw [run_concat]
    by_cases hpatrol : ∃ visits, event = .patrol visits
    · obtain ⟨visits, rfl⟩ := hpatrol
      exact silent_patrol hqrequired hp visits
        ((hsound before visits [] rfl).judges hconf hrequired hp).1
    · obtain ⟨p', hp', hsettings, hpulse⟩ := step_steady hp.table event hecho
      obtain ⟨halive, hkills⟩ := step_alive hp.table hp' fun visits heq => hpatrol ⟨visits, heq⟩
      exact ⟨p', hp.later (clock_le_step _ event) hp' hsettings hpulse halive hkills⟩

/-- A silent process that is dead past its limit stays dead. -/
theorem dead_run {st : Supervisor} {kills : ℕ} {p : ProcessInfo} {silent : List Event}
    (hsound : PatrolsSound c st silent) (hconf : c.process? name = some conf)
    (hrequired : conf.requiredForHealthyStatus = true)
    (hqrequired : q.requiredForHealthyStatus = true)
    (hp : Silent name q (hangAllowance conf + q.healthStats.lastConfirmedAlive) kills st p)
    (hpast : hangAllowance conf + q.healthStats.lastConfirmedAlive < st.clock)
    (hdead : p.alive = false) (hnever : NeverEchoes name st silent) :
    ∃ p', Silent name q (hangAllowance conf + q.healthStats.lastConfirmedAlive) kills
      (run st silent) p' ∧ p'.alive = false ∧
      hangAllowance conf + q.healthStats.lastConfirmedAlive < (run st silent).clock := by
  induction silent using List.reverseRecOn with
  | nil => exact ⟨p, hp, hdead, hpast⟩
  | append_singleton before event ih =>
    obtain ⟨mid, hmid, hmidDead, hmidPast⟩ := ih hsound.prefix hnever.prefix
    have hecho := hnever before event [] rfl mid hmid.table
    have hclock := clock_le_step (run st before) event
    rw [run_concat]
    by_cases hpatrol : ∃ visits, event = .patrol visits
    · obtain ⟨visits, rfl⟩ := hpatrol
      obtain ⟨p', hp', hdead'⟩ := silent_patrol_dead hqrequired hmid visits
        ((hsound before visits [] rfl).judges hconf hrequired hmid).1 hmidPast (Or.inr hmidDead)
      exact ⟨p', hp', hdead', by omega⟩
    · obtain ⟨p', hp', hsettings, hpulse⟩ := step_steady hmid.table event hecho
      obtain ⟨halive, hkills⟩ := step_alive hmid.table hp' fun visits heq => hpatrol ⟨visits, heq⟩
      exact ⟨p', hmid.later hclock hp' hsettings hpulse halive hkills, halive.trans hmidDead,
        by omega⟩

end Run

variable {st : Supervisor} {events : List Event}

theorem PatrolsSound.drop (h : PatrolsSound c st (before ++ after)) :
    PatrolsSound c (run st before) after :=
  fun b visits a hsplit => by
    rw [← run_append]
    exact h (before ++ b) visits a (by rw [hsplit, List.append_assoc])

theorem NeverEchoes.drop (h : NeverEchoes name st (before ++ after)) :
    NeverEchoes name (run st before) after :=
  fun b event a hsplit p hp => by
    rw [← run_append] at hp
    exact h (before ++ b) event a (by rw [hsplit, List.append_assoc]) p hp

/-- The table has the required flag of the configuration. -/
theorem required_run (hconf : c.process? name = some conf)
    (hrequired : conf.requiredForHealthyStatus = true) {beginningTime : ℤ} {q : ProcessInfo}
    (hq : (run (configureCOPS beginningTime c) events).processJurisdiction name = some q) :
    q.requiredForHealthyStatus = true := by
  obtain ⟨p, hp, hsettings⟩ := run_settings hconf beginningTime events
  obtain rfl : p = q := Option.some_inj.mp (hp.symm.trans hq)
  exact (congrArg Prod.fst hsettings).trans hrequired

theorem run_hangsDeclared {beginningTime : ℤ}
    (hsound : PatrolsSound c (configureCOPS beginningTime c) events) :
    HangsDeclared c (configureCOPS beginningTime c) events where
  byPatrol before silent visits after name conf q p hsplit hconf hrequired hq hnever hpast hp := by
    subst hsplit
    have hqrequired := required_run hconf hrequired hq
    have hrest := hsound.drop
    obtain ⟨mid, hmid⟩ := silent_run hrest.prefix hconf hrequired hq hqrequired hnever.prefix
    rw [← run_append] at hmid
    have hpatrol := hsound (before ++ silent) visits after (by rw [List.append_assoc])
    obtain ⟨hjudge, hreach⟩ := hpatrol.judges hconf hrequired hmid
    have hlimit : hangAllowance conf + q.healthStats.lastConfirmedAlive <
        (run (configureCOPS beginningTime c) (before ++ silent)).clock := by omega
    have hor : name ∈ (visited (run (configureCOPS beginningTime c) (before ++ silent))
        visits).map Visit.name ∨ mid.alive = false := by
      cases halive : mid.alive with
      | true => exact Or.inl (hreach halive hlimit)
      | false => exact Or.inr rfl
    obtain ⟨dead, hdead, hdeadFlag⟩ :=
      silent_patrol_dead hqrequired hmid visits hjudge hlimit hor
    have hclock := clock_le_step (run (configureCOPS beginningTime c) (before ++ silent))
      (.patrol visits)
    have hassoc : before ++ (silent ++ .patrol visits :: after) =
        (before ++ silent ++ [.patrol visits]) ++ after := by simp
    have hnever' := hnever
    rw [show silent ++ Event.patrol visits :: after = (silent ++ [.patrol visits]) ++ after by simp]
      at hnever'
    have hlater := hnever'.drop
    rw [← run_append, ← List.append_assoc] at hlater
    rw [hassoc] at hp hsound
    have hstate : run (configureCOPS beginningTime c) (before ++ silent ++ [.patrol visits]) =
        patrolProcesses (run (configureCOPS beginningTime c) (before ++ silent)) visits :=
      run_concat _ _ _
    rw [← hstate] at hdead
    obtain ⟨p', hp', hfinal, -⟩ := dead_run hsound.drop hconf hrequired hqrequired hdead
      (by rw [hstate]; exact Int.lt_of_lt_of_le hlimit hclock) hdeadFlag hlater
    rw [run_append] at hp
    exact Option.some_inj.mp (hp'.table.symm.trans hp) ▸ hfinal
  notBefore before silent name conf q p hsplit hconf hrequired hq hnever hp halive hdead := by
    subst hsplit
    have hqrequired := required_run hconf hrequired hq
    obtain ⟨p', hp'⟩ := silent_run hsound.drop hconf hrequired hq hqrequired hnever
    rw [run_append] at hp ⊢
    obtain rfl : p' = p := Option.some_inj.mp (hp'.table.symm.trans hp)
    have hpast := (hp'.declared hdead).resolve_left fun hwas => by
      rw [halive] at hwas
      exact absurd hwas (by simp)
    omega
  killedOnce before silent name conf q hsplit hconf hrequired hq hnever := by
    subst hsplit
    have hqrequired := required_run hconf hrequired hq
    obtain ⟨p', hp'⟩ := silent_run hsound.drop hconf hrequired hq hqrequired hnever
    rw [run_append]
    rcases hp'.killed with hkills | hkills <;> omega

/-- A patrol that reads no required process hung leaves the living alive. -/
theorem alive_patrol {p : ProcessInfo} (visits : List Visit)
    (hp : st.processJurisdiction name = some p) (halive : p.alive = true)
    (hjudge : ∀ now, (name, now) ∈ visitReadings st.clock (visited st visits) →
      p.requiredForHealthyStatus = true → p.isHungOrDead now = false) :
    ∃ p', (patrolProcesses st visits).processJurisdiction name = some p' ∧ p'.alive = true := by
  have hend : ∃ p', (patrolProcesses st visits).processJurisdiction name = some p' ∧
      p'.settings = p.settings ∧ p'.pulse = p.pulse ∧ p'.alive = true := by
    refine patrol_rule (R := fun reading => reading.1 = name →
        p.requiredForHealthyStatus = true → p.isHungOrDead reading.2 = false)
      (I := fun next => ∃ p', next.processJurisdiction name = some p' ∧
        p'.settings = p.settings ∧ p'.pulse = p.pulse ∧ p'.alive = true)
      (fun mid visit r hmid hr hR => ?_) visits ⟨p, hp, rfl, rfl, halive⟩
      (fun reading hreading hname => hjudge reading.2 (hname ▸ hreading))
    obtain ⟨p', hp', hsettings, hpulse, halive'⟩ := hmid
    by_cases hname : name = visit.name
    · subst hname
      obtain rfl : p' = r := Option.some_inj.mp (hp'.symm.trans hr)
      cases visitOne_checked hr with
      | unchanged table => exact ⟨p', table, hsettings, hpulse, halive'⟩
      | resurrected table => exact ⟨_, table, hsettings, hpulse, rfl⟩
      | declared table kills required judged =>
        have hrequired : p.requiredForHealthyStatus = true :=
          (congrArg Prod.fst hsettings).symm.trans required
        have hfalse := hR (visit.name, visit.hungAt mid.clock) (by simp [visitReadings]) rfl
          hrequired
        rw [isHungOrDead_congr hsettings hpulse, hfalse] at judged
        exact absurd judged (by simp)
    · exact ⟨p', (visitOne_ne mid hname).1.trans hp', hsettings, hpulse, halive'⟩
  obtain ⟨p', hp', -, -, halive'⟩ := hend
  exact ⟨p', hp', halive'⟩

/-- A step keeps a process alive that is at most three seconds from its last sign of life. -/
theorem alive_step (hconf : c.process? name = some conf) (hunset : conf.hangTimeAllowanceMS = 0)
    {event : Event} {p : ProcessInfo} (hp : st.processJurisdiction name = some p)
    (hrequired : p.requiredForHealthyStatus = conf.requiredForHealthyStatus)
    (halive : p.alive = true) (hsound : ∀ visits, event = .patrol visits → PatrolSound c st visits)
    (hrecent : ∀ p', (step st event).processJurisdiction name = some p' →
      (step st event).clock - p'.healthStats.lastConfirmedAlive ≤ 3000000000) :
    ∃ p', (step st event).processJurisdiction name = some p' ∧ p'.alive = true := by
  have hallowance : hangAllowance conf = 3000000000 := by
    have hdefault : (3000 : Int64).toInt = 3000 := by decide
    rw [hangAllowance, Process.withDefaults, if_pos hunset]
    dsimp only
    rw [hdefault]
    decide
  obtain ⟨p', hp', -⟩ := step_settings hp event
  by_cases hpatrol : ∃ visits, event = .patrol visits
  · obtain ⟨visits, rfl⟩ := hpatrol
    refine alive_patrol visits hp halive fun now hnow hneeds => ?_
    obtain ⟨q, hq, -, hpulse⟩ := steady_patrol visits ⟨p, hp, rfl, rfl⟩
    have hlast : q.healthStats.lastConfirmedAlive = p.healthStats.lastConfirmedAlive :=
      congrArg Prod.snd hpulse
    have hbound := hrecent q hq
    have hbefore : now ≤ (patrolProcesses st visits).clock := readings_le_patrol hnow
    have hclock : (step st (.patrol visits)).clock = (patrolProcesses st visits).clock := rfl
    have hjudge := ((hsound visits rfl) name conf p hconf (hrequired.symm.trans hneeds) hp).2
      now hnow
    rw [hallowance] at hjudge
    rw [← Bool.not_eq_true, hjudge]
    omega
  · obtain ⟨hsame, -⟩ := step_alive hp hp' fun visits heq => hpatrol ⟨visits, heq⟩
    exact ⟨p', hp', hsame.trans halive⟩

theorem run_keepsAlive {beginningTime : ℤ}
    (hsound : PatrolsSound c (configureCOPS beginningTime c) events) :
    KeepsAlive c (configureCOPS beginningTime c) events := by
  intro name conf hconf hunset hrecent
  have hend : ∃ p, (run (configureCOPS beginningTime c) events).processJurisdiction name =
      some p ∧ p.alive = true := by
    induction events using List.reverseRecOn with
    | nil =>
      refine ⟨processEntry beginningTime conf, ?_, rfl⟩
      change (c.process? name).map (processEntry beginningTime) = _
      rw [hconf, Option.map_some]
    | append_singleton before event ih =>
      obtain ⟨p, hp, halive⟩ := ih hsound.prefix fun b a q hsplit =>
        hrecent b (a ++ [event]) q (by rw [hsplit, List.append_assoc])
      obtain ⟨q, hq, hsettings⟩ := run_settings hconf beginningTime before
      obtain rfl : q = p := Option.some_inj.mp (hq.symm.trans hp)
      rw [run_concat]
      refine alive_step hconf hunset hp (congrArg Prod.fst hsettings) halive
        (fun visits heq => hsound before visits [] (by rw [heq])) fun p' hp' => ?_
      have hlast := hrecent (before ++ [event]) [] p' (by simp)
      rw [run_concat] at hlast
      exact hlast hp'
  obtain ⟨p, hp, halive⟩ := hend
  intro p' hp'
  exact Option.some_inj.mp (hp.symm.trans hp') ▸ halive

/-- Validation leaves the process list as it was written. -/
theorem validate_processList {hostname : String}
    {validateFailoverConfig : Config → Except ConfigError String} {c' : Config}
    (h : c.validate hostname validateFailoverConfig = .ok c') : c'.processList = c.processList := by
  unfold Config.validate at h
  dsimp only at h
  obtain ⟨_, -, hname⟩ := CheckedRun.of_bind_ok h
  split at hname
  · obtain ⟨name, -, hc⟩ := CheckedRun.of_bind_ok hname
    rw [← Except.ok.inj hc]
  · rw [← Except.ok.inj hname]

/-- The laws of the supervision. -/
structure Supervised (c : Config) (st : Supervisor) (events : List Event) : Prop where
  counted : RepliesCounted st events
  declared : HangsDeclared c st events
  keepsAlive : KeepsAlive c st events

/-- In a run of fewer events than there are heartbeat values, whose patrols are sound, the
laws hold. -/
theorem run_supervised {hostname : String}
    {validateFailoverConfig : Config → Except ConfigError String} {c c' : Config}
    (h : c.validate hostname validateFailoverConfig = .ok c') (beginningTime : ℤ)
    (events : List Event) (hlength : events.length ≤ 2 ^ 64)
    (hsound : PatrolsSound c (configureCOPS beginningTime c') events) :
    Supervised c (configureCOPS beginningTime c') events := by
  have hsame : configureCOPS beginningTime c' = configureCOPS beginningTime c := by
    simp only [configureCOPS, Config.process?, validate_processList h]
  rw [hsame] at hsound ⊢
  exact ⟨run_repliesCounted _ hlength, run_hangsDeclared hsound, run_keepsAlive hsound⟩

/-! ## A process without an allowance -/

/-- A required process whose allowance is left to the default. -/
def unsetProcess : Process where
  name := "site_controller"
  uri := "/site"
  enableConnectionStatus := false
  killOnHang := true
  requiredForHealthyStatus := true
  hangTimeAllowanceMS := 0

/-- A configuration that leaves everything to the defaults. -/
def unsetConfig : Config where
  name := "primary"
  heartbeatFrequencyMS := 0
  patrolFrequencyMS := 0
  briefingFrequencyMS := 0
  c2cMsgFrequencyMS := 0
  connectionHangtimeAllowance := 0
  enableRedundantFailover := false
  processList := [unsetProcess]

/-- An undisturbed visit. -/
def quietVisit : Visit where
  name := "site_controller"
  untilStillDead := 0
  untilResurrected := 0
  untilHung := 0
  primary := true
  killDelivered := true
  status := .updated
  pollSent := true

/-- The reply that echoes the first heartbeat value. -/
def firstEcho : Event :=
  .reply "site_controller" (.map [("cops_heartbeat", .int 0), ("pid", .int 7)]) 5 true

theorem unsetConfig_process (h : unsetConfig.process? name = some conf) :
    name = "site_controller" ∧ conf = unsetProcess := by
  have hmem := List.mem_of_find?_eq_some h
  have hname := List.find?_some h
  obtain rfl : conf = unsetProcess := by simpa [unsetConfig] using hmem
  exact ⟨(of_decide_eq_true hname).symm, rfl⟩

/-- The configuration after validation. -/
def validatedConfig : Config :=
  {unsetConfig with
    heartbeatFrequencyMS := 1000
    patrolFrequencyMS := 1000
    briefingFrequencyMS := 5000
    c2cMsgFrequencyMS := 50
    connectionHangtimeAllowance := 3500}

theorem unsetConfig_validate :
    unsetConfig.validate "host" (fun _ => .ok "host") = .ok validatedConfig := rfl

/-- The entry of the process after its first echo. -/
def echoedEntry : ProcessInfo :=
  {processEntry 0 unsetProcess with
    heartbeat := 1
    pid := 7
    processPtr := some 7
    healthStats := {totalRestarts := 0, copsRestarts := 0, lastConfirmedAlive := 5}}

theorem run_supervised_unsetConfig :
    unsetConfig.validate "host" (fun _ => .ok "host") = .ok validatedConfig ∧
      Supervised unsetConfig (configureCOPS 0 validatedConfig)
        [firstEcho, .pass 3000000001, .patrol [quietVisit]] := by
  refine ⟨unsetConfig_validate, run_supervised unsetConfig_validate 0 _ (by decide) ?_⟩
  intro before visits after hsplit name conf p hconf _ hp
  obtain ⟨rfl, rfl⟩ := unsetConfig_process hconf
  have hbefore : before = [firstEcho, .pass 3000000001] ∧ visits = [quietVisit] := by
    rcases before with - | ⟨e1, - | ⟨e2, - | ⟨e3, rest⟩⟩⟩
    · cases hsplit
    · cases hsplit
    · cases hsplit
      exact ⟨rfl, rfl⟩
    · simp at hsplit
  obtain ⟨rfl, rfl⟩ := hbefore
  have hentry : p = echoedEntry := (Option.some_inj.mp
    ((show _ = some echoedEntry from rfl).symm.trans hp)).symm
  subst hentry
  have hvisited : visited (run (configureCOPS 0 validatedConfig) [firstEcho, .pass 3000000001])
      [quietVisit] = [quietVisit] := rfl
  have hclock : (run (configureCOPS 0 validatedConfig) [firstEcho, .pass 3000000001]).clock =
      3000000006 := by decide
  rw [hvisited, hclock]
  refine ⟨fun _ _ => List.mem_singleton_self _, fun now hnow => ?_⟩
  obtain rfl : now = 3000000006 := by
    simpa [visitReadings, quietVisit, Visit.hungAt, Visit.resurrectedAt,
      Visit.stillDeadAt] using hnow
  decide

/-- With its allowance left to the default, a process is marked dead by a patrol one second
after the start. -/
theorem unset_markedDead :
    unsetConfig.validate "host" (fun _ => .ok "host") = .ok validatedConfig ∧
      ¬ KeepsAlive unsetConfig (configureCOPS 0 validatedConfig)
        [.pass 1000000000, .patrol [quietVisit]] := by
  refine ⟨unsetConfig_validate, fun hkeeps => ?_⟩
  have hdead : (run (configureCOPS 0 validatedConfig) [.pass 1000000000,
      .patrol [quietVisit]]).processJurisdiction "site_controller" =
        some {processEntry 0 unsetProcess with alive := false} := rfl
  have halive := hkeeps "site_controller" unsetProcess rfl rfl (fun before after p hsplit hp => ?_)
    _ hdead
  · exact absurd halive (by decide)
  · rcases before with - | ⟨e1, - | ⟨e2, - | ⟨e3, rest⟩⟩⟩
    · obtain rfl : processEntry 0 unsetProcess = p := Option.some_inj.mp hp
      decide
    · obtain rfl : Event.pass 1000000000 = e1 := (List.cons.inj hsplit).1
      obtain rfl : processEntry 0 unsetProcess = p := Option.some_inj.mp hp
      decide
    · obtain ⟨rfl, hrest⟩ := List.cons.inj hsplit
      obtain ⟨rfl, -⟩ := List.cons.inj hrest
      obtain rfl := Option.some_inj.mp (hdead.symm.trans hp)
      decide
    · simp at hsplit

end HybridOs.CopsHeartbeat
