import HybridOs.CloudSync
import HybridOs.WaitFor
import Mathlib.Data.List.Infix

/-!
# Workers of a client that block one another

A worker that puts something into a full queue waits for the worker that empties the queue,
and a worker that puts a request or waits for its answer waits for the transfer worker. Along
every run the only workers that are stuck are retry workers and clear workers in front of
their own full queues.
-/

namespace HybridOs.CloudSync

open WaitFor

/-- The workers of a client. -/
inductive Worker where
  | send
  | retry (serv : ServerName)
  | clear
  | transfer (serv : ServerName)
  deriving DecidableEq, Repr

/-- The worker that must act before this one can go on. Every other worker can go on, or
waits for something that is not a worker: a file, a transfer, a connection. -/
def blockedOn (cfg : ClientConfig) (st : Client) : Worker → Option Worker
  | .send =>
    match st.send with
    | .requesting cur =>
      if (st.transfer cur.serv).phase = .ready then none else some (.transfer cur.serv)
    | .awaiting cur =>
      match (st.transfer cur.serv).phase with
      | .answering .send _ _ _ => none
      | _ => some (.transfer cur.serv)
    | .queueing cur =>
      if (st.retryQ cur.serv).length < cfg.bufSz then none else some (.retry cur.serv)
    | .clearing _ => if st.clearQ.length < cfg.bufSz then none else some .clear
    | _ => none
  | .retry serv =>
    match st.retry serv with
    | .requesting _ =>
      if (st.transfer serv).connectionOkay ∧ (st.transfer serv).phase = .ready then none
      else some (.transfer serv)
    | .awaiting _ =>
      match (st.transfer serv).phase with
      | .answering .retry _ _ _ => none
      | _ => some (.transfer serv)
    | .requeueing _ => if (st.retryQ serv).length < cfg.bufSz then none else some (.retry serv)
    | .clearing _ => if st.clearQ.length < cfg.bufSz then none else some .clear
    | _ => none
  | .clear =>
    match st.clear with
    | .requeueing _ => if st.clearQ.length < cfg.bufSz then none else some .clear
    | _ => none
  | .transfer serv =>
    match (st.transfer serv).phase with
    | .answering .send _ _ _ =>
      match st.send with
      | .awaiting _ => none
      | _ => some .send
    | .answering .retry _ _ _ =>
      match st.retry serv with
      | .awaiting _ => none
      | _ => some (.retry serv)
    | _ => none

/-- Some workers of the client wait for one another. -/
def Deadlocked (cfg : ClientConfig) (st : Client) : Prop :=
  ∃ workers, Stuck (blockedOn cfg st) workers

/-- The retry worker stands before its own full queue. -/
def RetryJammed (cfg : ClientConfig) (st : Client) (serv : ServerName) : Prop :=
  (∃ fileName, st.retry serv = .requeueing fileName) ∧ cfg.bufSz ≤ (st.retryQ serv).length

/-- The clear worker stands before its own full queue. -/
def ClearJammed (cfg : ClientConfig) (st : Client) : Prop :=
  (∃ filePath, st.clear = .requeueing filePath) ∧ cfg.bufSz ≤ st.clearQ.length

/-! ## Where workers are stuck -/

variable {cfg : ClientConfig} {st : Client}

/-- A transfer worker never waits for another worker. -/
theorem AnswersAwaited.transfer_free (h : AnswersAwaited st)
    (serv : ServerName) : blockedOn cfg st (.transfer serv) = none := by
  have hawaited := h serv
  simp only [blockedOn]
  split
  next fileName resp counted hphase =>
    obtain ⟨cur, hcur, _⟩ := hawaited .send fileName (by simp [hphase, TransferPhase.serves])
    rw [hcur]
  next fileName resp counted hphase =>
    have hheld := hawaited .retry fileName (by simp [hphase, TransferPhase.serves])
    rw [hheld]
  · rfl

/-- Waiting for another worker leads from the send worker to the retry workers, from them to
the clear worker, and from all to the transfer workers. -/
def Worker.rank : Worker → ℕ
  | .send => 3
  | .retry _ => 2
  | .clear => 1
  | .transfer _ => 0

theorem AnswersAwaited.rank_lt (h : AnswersAwaited st)
    (w d : Worker) (hwaits : blockedOn cfg st w = some d) (hne : d ≠ w) : d.rank < w.rank := by
  cases w with
  | send =>
    simp only [blockedOn] at hwaits
    split at hwaits
    · split_ifs at hwaits
      cases hwaits
      simp [Worker.rank]
    · split at hwaits <;> cases hwaits
      simp [Worker.rank]
    · split_ifs at hwaits
      cases hwaits
      simp [Worker.rank]
    · split_ifs at hwaits
      cases hwaits
      simp [Worker.rank]
    · cases hwaits
  | retry serv =>
    simp only [blockedOn] at hwaits
    split at hwaits
    · split_ifs at hwaits
      cases hwaits
      simp [Worker.rank]
    · split at hwaits <;> cases hwaits
      simp [Worker.rank]
    · split_ifs at hwaits
      cases hwaits
      exact absurd rfl hne
    · split_ifs at hwaits
      cases hwaits
      simp [Worker.rank]
    · cases hwaits
  | clear =>
    simp only [blockedOn] at hwaits
    split at hwaits
    · split_ifs at hwaits
      cases hwaits
      exact absurd rfl hne
    · cases hwaits
  | transfer serv =>
    rw [h.transfer_free] at hwaits
    cases hwaits

variable {serv : ServerName} {st' : Client}

/-- A retry worker waits for itself exactly before its own full queue. -/
theorem blockedOn_retry_self_iff :
    blockedOn cfg st (.retry serv) = some (.retry serv) ↔ RetryJammed cfg st serv := by
  cases hretry : st.retry serv with
  | requeueing fileName | idle | requesting | getting | writing | clearing =>
    simp [blockedOn, RetryJammed, hretry]
  | awaiting fileName =>
    simp only [blockedOn, RetryJammed, hretry]
    split <;> simp

/-- The clear worker waits for itself exactly before its own full queue. -/
theorem blockedOn_clear_self_iff : blockedOn cfg st .clear = some .clear ↔ ClearJammed cfg st := by
  cases hclear : st.clear <;> simp [blockedOn, ClearJammed, hclear]

theorem blockedOn_send_ne_self : blockedOn cfg st .send ≠ some .send := by
  cases hsend : st.send with
  | awaiting cur =>
    simp only [blockedOn, hsend]
    split <;> simp
  | idle | requesting | getting | setting | copying | queueing | clearing =>
    simp [blockedOn, hsend]

/-- A worker stands before its own full queue. -/
def Jammed (cfg : ClientConfig) (st : Client) : Prop :=
  (∃ serv, RetryJammed cfg st serv) ∨ ClearJammed cfg st

/-- Workers are stuck exactly when one stands before its own full queue. -/
theorem AnswersAwaited.deadlocked_iff
    (h : AnswersAwaited st) : Deadlocked cfg st ↔ Jammed cfg st := by
  rw [Deadlocked, exists_stuck_iff (blockedOn cfg st) h.rank_lt]
  constructor
  · intro hself
    obtain ⟨w, hw⟩ := hself
    cases w with
    | send => exact absurd hw blockedOn_send_ne_self
    | retry serv => exact .inl ⟨serv, blockedOn_retry_self_iff.1 hw⟩
    | clear => exact .inr (blockedOn_clear_self_iff.1 hw)
    | transfer serv =>
      rw [h.transfer_free] at hw
      cases hw
  · intro hjam
    rcases hjam with ⟨serv, hserv⟩ | hclear
    · exact ⟨.retry serv, blockedOn_retry_self_iff.2 hserv⟩
    · exact ⟨.clear, blockedOn_clear_self_iff.2 hclear⟩

/-! ## The steps that get workers stuck -/

/-- The step puts a worker before its own full queue, or fills the queue of a worker that
stands before it. -/
def Jams (cfg : ClientConfig) (st : Client) : Event → Prop
  | .answer serv =>
    (∃ fileName counted,
      (st.transfer serv).phase = .answering .retry fileName (.failure true) counted) ∧
    cfg.bufSz ≤ (st.retryQ serv).length
  | .sendRetry =>
    ∃ cur, st.send = .queueing cur ∧ (∃ fileName, st.retry cur.serv = .requeueing fileName) ∧
      (st.retryQ cur.serv).length + 1 = cfg.bufSz
  | .remove fails => fails = true ∧ cfg.bufSz ≤ st.clearQ.length
  | .sendClear | .retryClear _ =>
    (∃ filePath, st.clear = .requeueing filePath) ∧ st.clearQ.length + 1 = cfg.bufSz
  | _ => False

/-- A step that jams leaves a worker before its own full queue. -/
theorem Taken.jammed_of_jams {event : Event} (htaken : Taken cfg st event st')
    (hjams : Jams cfg st event) : Jammed cfg st' := by
  cases htaken with
  | @answerSend serv fileName resp counted cur hphase hsend =>
    obtain ⟨⟨fileName', counted', hphase'⟩, _⟩ := hjams
    rw [hphase] at hphase'
    cases hphase'
  | @answerRetry serv fileName held resp counted hphase hretry =>
    obtain ⟨⟨fileName', counted', hphase'⟩, hfull⟩ := hjams
    rw [hphase] at hphase'
    cases hphase'
    refine .inl ⟨serv, ⟨held, ?_⟩, hfull⟩
    simp [Client.setRetry, retryAnswered]
  | @sendRetry cur hsend hroom =>
    obtain ⟨cur', hsend', hretry, hlast⟩ := hjams
    rw [hsend] at hsend'
    cases hsend'
    refine .inl ⟨cur.serv, hretry, ?_⟩
    simp [Client.setRetryQ, hlast]
  | sendClear hsend hroom | retryClear hretry hroom =>
    obtain ⟨hclear, hlast⟩ := hjams
    refine .inr ⟨hclear, ?_⟩
    simp [hlast]
  | @removeFails filePath hclear => exact .inr ⟨⟨filePath, rfl⟩, hjams.2⟩
  | removeSource | removeError => cases hjams.1
  | _ => exact absurd hjams id

/-- No retry worker is before its own full queue after one has changed, unless that one is. -/
theorem not_retryJammed_setRetry {phase : RetryPhase} (h : ¬ ∃ other, RetryJammed cfg st other)
    (hphase : (∃ fileName, phase = .requeueing fileName) → (st.retryQ serv).length < cfg.bufSz) :
    ¬ ∃ other, RetryJammed cfg (st.setRetry serv phase) other := by
  intro hjam
  obtain ⟨other, hrequeueing, hfull⟩ := hjam
  by_cases heq : other = serv
  · subst heq
    simp only [Client.setRetry, Function.update_self] at hrequeueing hfull
    have hroom := hphase hrequeueing
    omega
  · simp only [Client.setRetry, Function.update_of_ne heq] at hrequeueing
    exact h ⟨other, hrequeueing, hfull⟩

/-- No retry worker is before its own full queue after one queue has changed, unless it is the
worker of that queue. -/
theorem not_retryJammed_setRetryQ {queue : List FileName} (h : ¬ ∃ other, RetryJammed cfg st other)
    (hqueue : (∃ fileName, st.retry serv = .requeueing fileName) → queue.length < cfg.bufSz) :
    ¬ ∃ other, RetryJammed cfg (st.setRetryQ serv queue) other := by
  intro hjam
  obtain ⟨other, hrequeueing, hfull⟩ := hjam
  by_cases heq : other = serv
  · subst heq
    simp only [Client.setRetryQ, Function.update_self] at hfull
    have hroom := hqueue hrequeueing
    omega
  · simp only [Client.setRetryQ, Function.update_of_ne heq] at hfull
    exact h ⟨other, hrequeueing, hfull⟩

/-- The clear worker is not before its own full queue after the queue has grown by one,
unless this filled it. -/
theorem not_clearJammed_concat (st : Client) {filePath : FilePath} (hclear : st'.clear = st.clear)
    (hqueue : st'.clearQ = st.clearQ ++ [filePath]) (hroom : st.clearQ.length < cfg.bufSz)
    (hnot : ¬ ((∃ filePath, st.clear = .requeueing filePath) ∧ st.clearQ.length + 1 = cfg.bufSz)) :
    ¬ ClearJammed cfg st' := by
  intro hjam
  obtain ⟨hrequeueing, hfull⟩ := hjam
  rw [hclear] at hrequeueing
  rw [hqueue, List.length_append, List.length_singleton] at hfull
  exact hnot ⟨hrequeueing, by omega⟩

/-- A step that does not jam leaves no worker before its own full queue where none was. -/
theorem Taken.not_jammed {event : Event} (htaken : Taken cfg st event st') (hfree : ¬ Jammed cfg st)
    (hnot : ¬ Jams cfg st event) : ¬ Jammed cfg st' := by
  rw [Jammed, not_or] at hfree ⊢
  obtain ⟨hretries, hclears⟩ := hfree
  cases htaken with
  | arrive | takeFile | acceptSend | handled | answerSend | keepAliveFailed | reestablished
  | sendGet | sendSet | sendCopy => exact ⟨hretries, hclears⟩
  | acceptRetry hretry =>
    refine ⟨not_retryJammed_setRetry hretries ?_, hclears⟩
    simp
  | @answerRetry serv fileName held resp counted hphase hretry =>
    refine ⟨not_retryJammed_setRetry hretries fun hrequeueing => ?_, hclears⟩
    obtain ⟨requeued, hrequeued⟩ := hrequeueing
    have hresp : resp = .failure true := by
      revert hrequeued
      unfold retryAnswered
      split <;> simp
    subst hresp
    have hroom := mt (And.intro ⟨fileName, counted, hphase⟩) hnot
    exact not_le.1 hroom
  | @sendRetry cur hsend hroom =>
    refine ⟨not_retryJammed_setRetryQ hretries fun hrequeueing => ?_, hclears⟩
    have hlast := mt (fun hlast => ⟨cur, hsend, hrequeueing, hlast⟩) hnot
    rw [List.length_append, List.length_singleton]
    omega
  | sendClear hsend hroom =>
    exact ⟨hretries, not_clearJammed_concat st rfl rfl hroom hnot⟩
  | @takeRetry serv fileName rest hretry hqueue =>
    refine ⟨not_retryJammed_setRetry (not_retryJammed_setRetryQ hretries ?_) ?_, hclears⟩
    · simp [hretry]
    · simp
  | @requeueRetry serv fileName hretry hroom =>
    refine ⟨?_, hclears⟩
    intro hjam
    obtain ⟨other, hrequeueing, hfull⟩ := hjam
    by_cases heq : other = serv
    · subst heq
      simp [Client.setRetry] at hrequeueing
    · simp only [Client.setRetry, Client.setRetryQ, Function.update_of_ne heq] at hrequeueing hfull
      exact hretries ⟨other, hrequeueing, hfull⟩
  | retryMissing hretry | retryGet hretry =>
    refine ⟨not_retryJammed_setRetry hretries ?_, hclears⟩
    simp
  | @retryWrite serv fileName val hretry =>
    refine ⟨not_retryJammed_setRetry hretries ?_, hclears⟩
    split_ifs <;> simp
  | @retryClear serv fileName hretry hroom =>
    refine ⟨not_retryJammed_setRetry hretries ?_, not_clearJammed_concat st rfl rfl hroom hnot⟩
    simp
  | takeClear | removeSource | removeError | requeueClear =>
    refine ⟨hretries, ?_⟩
    simp [ClearJammed]
  | removeFails hclear =>
    have hroom := mt (And.intro rfl) hnot
    exact ⟨hretries, fun hjam => hroom hjam.2⟩

/-! ## Runs -/

/-- No prefix of the run has stuck workers. -/
def NeverDeadlocked (cfg : ClientConfig) (connected : ServerName → Bool) (events : List Event) :
    Prop :=
  ∀ before, before <+: events → ∀ st, run cfg connected before = some st → ¬ Deadlocked cfg st

/-- No step that the run takes jams. -/
def NeverJams (cfg : ClientConfig) (connected : ServerName → Bool) (events : List Event) : Prop :=
  ∀ before event, before ++ [event] <+: events → ∀ st st', run cfg connected before = some st →
    step cfg st event = some st' → ¬ Jams cfg st event

theorem not_jammed_started (cfg : ClientConfig) (connected : ServerName → Bool) :
    ¬ Jammed cfg (started connected) := by
  simp [Jammed, RetryJammed, ClearJammed, started]

/-- Where no step jams, no worker gets before its own full queue. -/
theorem NeverJams.not_jammed {connected : ServerName → Bool}
    {events : List Event} (h : NeverJams cfg connected events) {before : List Event}
    (hfirst : before <+: events) {st : Client} (hrun : run cfg connected before = some st) :
    ¬ Jammed cfg st := by
  induction before using List.reverseRecOn generalizing st with
  | nil =>
    cases hrun
    exact not_jammed_started cfg connected
  | append_singleton before event ih =>
    rw [run_concat, Option.bind_eq_some_iff] at hrun
    obtain ⟨mid, hmid, hstep⟩ := hrun
    have hfree := ih ((List.prefix_append before [event]).trans hfirst) hmid
    exact (taken_of_step hstep).not_jammed hfree (h before event hfirst mid st hmid hstep)

/-- In a run no workers are ever stuck exactly where none of its steps jams. -/
theorem neverDeadlocked_iff (cfg : ClientConfig) (connected : ServerName → Bool)
    (events : List Event) :
    NeverDeadlocked cfg connected events ↔ NeverJams cfg connected events := by
  constructor
  · intro h before event hfirst st st' hst hstep hjams
    have hrun : run cfg connected (before ++ [event]) = some st' := by
      rw [run_concat, hst]
      exact hstep
    have hawaited := answersAwaited_of_run hrun
    have hjammed := (taken_of_step hstep).jammed_of_jams hjams
    exact h _ hfirst st' hrun (hawaited.deadlocked_iff.2 hjammed)
  · intro h before hfirst st hrun hdead
    have hjammed := (answersAwaited_of_run hrun).deadlocked_iff.1 hdead
    exact h.not_jammed hfirst hrun hjammed

/-- A client with one server and queues for one file. -/
def oneSlot : ClientConfig where
  connectedServers := ["east"]
  nodup := by simp
  bufSz := 1
  bufSz_pos := le_rfl
  retryLimit := 10

/-- The send worker has a file fail in a way that can be retried. -/
def failsToSend (fileName : FileName) (serv : ServerName) : List Event :=
  [.arrive fileName, .takeFile fileName, .acceptSend serv, .handled serv (.failure true),
    .answer serv, .sendGet, .sendSet, .sendCopy, .sendRetry, .sendClear]

/-- While the first file is retried the second fills the retry queue, and the retry fails. -/
def retryBehindOwnQueue : List Event :=
  failsToSend "first" "east" ++ [.takeRetry "east", .takeClear] ++ failsToSend "second" "east" ++
    [.acceptRetry "east", .handled "east" (.failure true), .answer "east"]

theorem retryBehindOwnQueue_deadlocked :
    ¬ NeverDeadlocked oneSlot (fun _ => true) retryBehindOwnQueue := by
  intro h
  have hrun : (run oneSlot (fun _ => true) retryBehindOwnQueue).isSome = true := by decide
  obtain ⟨st, hst⟩ := Option.isSome_iff_exists.1 hrun
  have hjam : ((run oneSlot (fun _ => true) retryBehindOwnQueue).all fun st =>
      decide (blockedOn oneSlot st (.retry "east") = some (.retry "east"))) = true := by decide
  rw [hst] at hjam
  exact h _ List.prefix_rfl st hst ⟨_, stuck_singleton _ (of_decide_eq_true hjam)⟩

end HybridOs.CloudSync
