import HybridOs.CloudSync
import Mathlib.Data.List.Nodup

/-!
# How far a file has come

The send worker passes every file once by every server, in the order of the configuration. A
file is cleared from the source directory only after that. A server is asked again for a file
only by its retry worker, after it has answered with a failure.
-/

namespace HybridOs.CloudSync

/-! ## What the send worker is doing -/

/-- The file that the send worker has. -/
def SendPhase.file : SendPhase → Option FileName
  | .idle => none
  | .clearing fileName => some fileName
  | .requesting cur | .awaiting cur | .getting cur _ | .setting cur _ _ | .copying cur _
  | .queueing cur => some cur.fileName

/-- The servers that the send worker has no answer from. -/
def SendPhase.toAsk : SendPhase → List ServerName
  | .requesting cur | .awaiting cur => cur.serv :: cur.rest
  | .getting cur _ | .setting cur _ _ | .copying cur _ | .queueing cur => cur.rest
  | .idle | .clearing _ => []

/-- The servers that the send worker has not passed. -/
def SendPhase.toPass : SendPhase → List ServerName
  | .requesting cur | .awaiting cur | .getting cur _ | .setting cur _ _ | .copying cur _
  | .queueing cur => cur.serv :: cur.rest
  | .idle | .clearing _ => []

/-- The failure that the send worker deals with. -/
def SendPhase.failure : SendPhase → Option (FileName × ServerName)
  | .getting cur _ | .setting cur _ _ | .copying cur _ | .queueing cur =>
    some (cur.fileName, cur.serv)
  | _ => none

/-- The failure that the send worker is recording. -/
def SendPhase.recording : SendPhase → Option (FileName × ServerName)
  | .getting cur _ | .setting cur _ _ => some (cur.fileName, cur.serv)
  | _ => none

/-- The file that the send worker copies. -/
def SendPhase.copies : SendPhase → Option FileName
  | .copying cur _ => some cur.fileName
  | _ => none

/-- The file that the send worker has and that has not been marked as failed. -/
def SendPhase.unfailed : SendPhase → Option FileName
  | .requesting cur | .awaiting cur | .getting cur _ | .setting cur _ _ | .copying cur _
  | .queueing cur => if cur.failed then none else some cur.fileName
  | .idle | .clearing _ => none

section SendNext
variable (fileName : FileName) (rest : List ServerName) (failed : Bool)

@[simp] theorem sendNext_file : (sendNext fileName rest failed).file = some fileName := by
  cases rest <;> rfl

@[simp] theorem sendNext_toAsk : (sendNext fileName rest failed).toAsk = rest := by
  cases rest <;> rfl

@[simp] theorem sendNext_toPass : (sendNext fileName rest failed).toPass = rest := by
  cases rest <;> rfl

@[simp] theorem sendNext_failure : (sendNext fileName rest failed).failure = none := by
  cases rest <;> rfl

theorem eq_of_sendNext_unfailed {unfailed : FileName}
    (h : (sendNext fileName rest failed).unfailed = some unfailed) :
    unfailed = fileName ∧ failed = false := by
  cases rest with
  | nil => cases h
  | cons serv rest =>
    cases failed with
    | true => cases h
    | false =>
      cases h
      exact ⟨rfl, rfl⟩

end SendNext

section SendFailed
variable (cur : SendLoop) (retryable : Bool) (resp : Answer)

@[simp] theorem sendFailed_file : (sendFailed cur retryable).file = some cur.fileName := by
  cases retryable with
  | true => rfl
  | false => exact sendNext_file _ _ _

@[simp] theorem sendFailed_toAsk : (sendFailed cur retryable).toAsk = cur.rest := by
  cases retryable with
  | true => rfl
  | false => exact sendNext_toAsk _ _ _

theorem eq_of_sendFailed_failure {failure : FileName × ServerName}
    (h : (sendFailed cur retryable).failure = some failure) :
    failure = (cur.fileName, cur.serv) := by
  cases retryable with
  | true =>
    cases h
    rfl
  | false => simp [sendFailed] at h

@[simp] theorem sendAnswered_file : (sendAnswered cur resp).file = some cur.fileName := by
  cases resp with
  | success => exact sendNext_file _ _ _
  | failure retryable => rfl

@[simp] theorem sendAnswered_toAsk : (sendAnswered cur resp).toAsk = cur.rest := by
  cases resp with
  | success => exact sendNext_toAsk _ _ _
  | failure retryable => rfl

end SendFailed

/-- The send worker goes on with its file. -/
structure SendPhase.GoesOn (phase phase' : SendPhase) : Prop where
  file : phase'.file = phase.file
  toAsk : ∀ serv ∈ phase'.toAsk, serv ∈ phase.toAsk
  toPass : phase'.toPass.Sublist phase.toPass
  unfailed : ∀ fileName, phase'.unfailed = some fileName → phase.unfailed = some fileName

theorem SendPhase.GoesOn.refl (phase : SendPhase) : phase.GoesOn phase where
  file := rfl
  toAsk _ h := h
  toPass := List.Sublist.refl _
  unfailed _ h := h

variable {cur : SendLoop}

/-- After the server has been passed the send worker goes on to the next one. -/
theorem goesOn_sendNext {phase : SendPhase} (hfile : phase.file = some cur.fileName)
    (htoAsk : ∀ serv ∈ cur.rest, serv ∈ phase.toAsk) (htoPass : phase.toPass = cur.serv :: cur.rest)
    (hunfailed : phase.unfailed = if cur.failed then none else some cur.fileName) :
    phase.GoesOn (sendNext cur.fileName cur.rest cur.failed) where
  file := by rw [sendNext_file, hfile]
  toAsk := by
    rw [sendNext_toAsk]
    exact htoAsk
  toPass := by
    rw [sendNext_toPass, htoPass]
    exact List.sublist_cons_self _ _
  unfailed := by
    intro fileName h
    have heq := eq_of_sendNext_unfailed _ _ _ h
    rw [hunfailed, heq.1, heq.2]
    rfl

theorem goesOn_sendFailed {phase : SendPhase} {retryable : Bool}
    (hfile : phase.file = some cur.fileName) (htoAsk : phase.toAsk = cur.rest)
    (htoPass : phase.toPass = cur.serv :: cur.rest)
    (hunfailed : cur.failed = false → phase.unfailed = some cur.fileName) :
    phase.GoesOn (sendFailed cur retryable) := by
  cases retryable with
  | true =>
    refine ⟨hfile.symm, ?_, ?_, ?_⟩
    · rw [htoAsk]
      exact fun _ h => h
    · rw [htoPass]
      exact List.Sublist.refl _
    · intro fileName h
      simp only [sendFailed, if_true, SendPhase.unfailed] at h
      split_ifs at h with hfailed
      cases h
      exact hunfailed (by simpa using hfailed)
  | false =>
    refine ⟨?_, ?_, ?_, ?_⟩
    · simp [hfile]
    · simp [htoAsk]
    · simp [sendFailed, htoPass]
    · intro fileName h
      have heq := eq_of_sendNext_unfailed _ _ _ h
      rw [heq.1]
      exact hunfailed heq.2

variable {cfg : ClientConfig}

/-- Only the taking of a file and its clearing change what file the send worker has. -/
theorem Taken.send_goesOn {st st' : Client} {event : Event} (htaken : Taken cfg st event st')
    (htake : ∀ fileName, event ≠ .takeFile fileName) (hclear : event ≠ .sendClear) :
    st.send.GoesOn st'.send := by
  cases htaken with
  | takeFile => exact absurd rfl (htake _)
  | sendClear => exact absurd rfl hclear
  | @acceptSend cur hsend | sendGet hsend =>
    rw [hsend]
    exact ⟨rfl, fun _ h => h, List.Sublist.refl _, fun _ h => h⟩
  | @answerSend serv fileName resp counted cur hphase hsend =>
    rw [hsend]
    cases resp with
    | success =>
      exact goesOn_sendNext rfl (fun _ h => List.mem_cons_of_mem _ h) rfl rfl
    | failure retryable =>
      exact ⟨rfl, fun _ h => List.mem_cons_of_mem _ h, List.Sublist.refl _, fun _ h => h⟩
  | @sendSet cur retryable val hsend =>
    rw [hsend]
    by_cases hfailed : cur.failed
    · simp only [hfailed]
      refine goesOn_sendFailed rfl rfl rfl ?_
      simp [hfailed]
    · simp only [hfailed]
      exact ⟨rfl, fun _ h => h, List.Sublist.refl _, fun _ h => h⟩
  | @sendCopy cur retryable hsend =>
    rw [hsend]
    refine goesOn_sendFailed rfl rfl rfl ?_
    simp
  | sendRetry hsend =>
    rw [hsend]
    exact goesOn_sendNext rfl (fun _ h => h) rfl rfl
  | _ => exact .refl _

/-- The send worker takes a file, clears one or goes on. -/
theorem Taken.send_cases {st st' : Client} {event : Event} (htaken : Taken cfg st event st') :
    (∃ taken ∈ st.newFiles, st'.send = sendNext taken cfg.connectedServers false) ∨
      st'.send = .idle ∨ st.send.GoesOn st'.send := by
  have hstep := htaken
  cases htaken with
  | takeFile hsend hnoticed => exact .inl ⟨_, hnoticed, rfl⟩
  | sendClear => exact .inr (.inl rfl)
  | _ => exact .inr (.inr (hstep.send_goesOn (by simp) (by simp)))

/-! ## Paths to clear -/

/-- The path waits to be cleared. -/
def Queued (st : Client) (filePath : FilePath) : Prop :=
  filePath ∈ st.clearQ ∨ st.clear = .removing filePath ∨ st.clear = .requeueing filePath

/-- A path comes to wait only from the send worker, or from a retry worker. -/
theorem Taken.queued {st st' : Client} {event : Event} (htaken : Taken cfg st event st')
    {filePath : FilePath} (h : Queued st' filePath) :
    Queued st filePath ∨
      (∃ fileName, event = .sendClear ∧ st.send = .clearing fileName ∧
        filePath = .source fileName) ∨
      ∃ serv fileName, event = .retryClear serv ∧ st.retry serv = .clearing fileName ∧
        filePath = .error fileName := by
  cases htaken with
  | @sendClear fileName hsend =>
    rcases h with hmem | hclear
    · rcases List.mem_append.1 hmem with hmem | hlast
      · exact .inl (.inl hmem)
      · exact .inr (.inl ⟨fileName, rfl, hsend, List.mem_singleton.1 hlast⟩)
    · exact .inl (.inr hclear)
  | @retryClear serv fileName hretry =>
    rcases h with hmem | hclear
    · rcases List.mem_append.1 hmem with hmem | hlast
      · exact .inl (.inl hmem)
      · exact .inr (.inr ⟨serv, fileName, rfl, hretry, List.mem_singleton.1 hlast⟩)
    · exact .inl (.inr hclear)
  | @takeClear first rest hclear hqueue =>
    left
    rcases h with hmem | hremoving | hrequeueing
    · exact .inl (hqueue ▸ List.mem_cons_of_mem _ hmem)
    · cases hremoving
      exact .inl (hqueue ▸ List.mem_cons_self)
    · cases hrequeueing
  | removeFails hclear =>
    left
    rcases h with hmem | hremoving | hrequeueing
    · exact .inl hmem
    · cases hremoving
    · cases hrequeueing
      exact .inr (.inl hclear)
  | removeSource | removeError =>
    left
    rcases h with hmem | hremoving | hrequeueing
    · exact .inl hmem
    · cases hremoving
    · cases hrequeueing
  | requeueClear hclear =>
    left
    rcases h with hmem | hremoving | hrequeueing
    · rcases List.mem_append.1 hmem with hmem | hlast
      · exact .inl hmem
      · rw [List.mem_singleton.1 hlast]
        exact .inr (.inr hclear)
    · cases hremoving
    · cases hrequeueing
  | _ => exact .inl h

/-! ## Every file is sent once -/

/-- The files that have arrived, the last one first. -/
def arrivedAfter (arrived : List FileName) : Event → List FileName
  | .arrive fileName => fileName :: arrived
  | _ => arrived

/-- The file has arrived and the send worker has taken it. -/
def Begun (arrived : List FileName) (st : Client) (fileName : FileName) : Prop :=
  fileName ∈ arrived ∧ fileName ∉ st.newFiles

/-- The send worker has passed the file by every server. -/
def Finished (arrived : List FileName) (st : Client) (fileName : FileName) : Prop :=
  Begun arrived st fileName ∧ st.send.file ≠ some fileName

/-- Each file is sent once, and its source is there until then. -/
structure SentOnce (arrived : List FileName) (st : Client) : Prop where
  nodup : st.newFiles.Nodup
  noticed : ∀ fileName ∈ st.newFiles, fileName ∈ arrived
  begun : ∀ fileName, st.send.file = some fileName → Begun arrived st fileName
  queued : ∀ fileName, Queued st (.source fileName) → Finished arrived st fileName
  removed : ∀ fileName ∈ arrived, st.sourceDir fileName = false → Finished arrived st fileName
  toPass : st.send.toPass.Nodup

theorem sentOnce_started (connected : ServerName → Bool) : SentOnce [] (started connected) where
  nodup := List.nodup_nil
  noticed := by simp [started]
  begun := by simp [started, SendPhase.file]
  queued := by simp [started, Queued]
  removed := by simp
  toPass := List.nodup_nil

/-- Nothing about the files to send has changed, and the send worker goes on with its file. -/
theorem SentOnce.of_goesOn {arrived : List FileName} {st st' : Client}
    (h : SentOnce arrived st) (hnew : st'.newFiles = st.newFiles) (hgoes : st.send.GoesOn st'.send)
    (hqueued : ∀ fileName, Queued st' (.source fileName) → Queued st (.source fileName))
    (hremoved : ∀ fileName, st'.sourceDir fileName = false → st.sourceDir fileName = false ∨
      Queued st (.source fileName)) : SentOnce arrived st' := by
  have hbegun : ∀ fileName, Begun arrived st' fileName ↔ Begun arrived st fileName := by
    intro fileName
    rw [Begun, Begun, hnew]
  have hfinished : ∀ fileName, Finished arrived st' fileName ↔ Finished arrived st fileName := by
    intro fileName
    rw [Finished, Finished, hbegun, hgoes.file]
  refine ⟨?_, ?_, ?_, ?_, ?_, ?_⟩
  · rw [hnew]
    exact h.nodup
  · rw [hnew]
    exact h.noticed
  · intro fileName hfile
    rw [hgoes.file] at hfile
    exact (hbegun fileName).2 (h.begun fileName hfile)
  · intro fileName hqueue
    exact (hfinished fileName).2 (h.queued fileName (hqueued fileName hqueue))
  · intro fileName harrived hgone
    rw [hfinished]
    rcases hremoved fileName hgone with hgone | hqueue
    · exact h.removed fileName harrived hgone
    · exact h.queued fileName hqueue
  · exact h.toPass.sublist hgoes.toPass

/-- A file that arrives has not been sent, and a file that has is still there. -/
theorem begun_arrive {arrived : List FileName} {st : Client} {fresh fileName : FileName}
    (hfresh : fresh ∉ arrived) (hbegun : Begun arrived st fileName) :
    fileName ∈ fresh :: arrived ∧ fileName ∉ fresh :: st.newFiles := by
  have hne : fileName ≠ fresh := by
    rintro rfl
    exact hfresh hbegun.1
  exact ⟨List.mem_cons_of_mem _ hbegun.1, by simp [hne, hbegun.2]⟩

theorem SentOnce.step {cfg : ClientConfig} {arrived : List FileName} {st st' : Client}
    {event : Event} (h : SentOnce arrived st) (htaken : Taken cfg st event st')
    (hfresh : ∀ fileName, event = .arrive fileName → fileName ∉ arrived) :
    SentOnce (arrivedAfter arrived event) st' := by
  have hstep := htaken
  cases htaken with
  | arrive fresh =>
    have hnew := hfresh fresh rfl
    refine ⟨?_, ?_, ?_, ?_, ?_, h.toPass⟩
    · exact List.nodup_cons.2 ⟨fun hmem => hnew (h.noticed fresh hmem), h.nodup⟩
    · intro fileName hmem
      rcases List.mem_cons.1 hmem with rfl | hmem
      · exact List.mem_cons_self
      · exact List.mem_cons_of_mem _ (h.noticed fileName hmem)
    · intro fileName hfile
      exact begun_arrive hnew (h.begun fileName hfile)
    · intro fileName hqueue
      have hfinished := h.queued fileName hqueue
      exact ⟨begun_arrive hnew hfinished.1, hfinished.2⟩
    · intro fileName hmem hgone
      by_cases heq : fileName = fresh
      · subst heq
        simp at hgone
      · simp only [Function.update_of_ne heq] at hgone
        have harrived : fileName ∈ arrived := by simpa [arrivedAfter, heq] using hmem
        have hfinished := h.removed fileName harrived hgone
        exact ⟨begun_arrive hnew hfinished.1, hfinished.2⟩
  | @takeFile taken hsend hnoticed =>
    have hother : ∀ fileName, Finished arrived st fileName → fileName ≠ taken := by
      rintro fileName hfinished rfl
      exact hfinished.1.2 hnoticed
    have hkept : ∀ fileName, Finished arrived st fileName → Finished arrived {st with
        newFiles := st.newFiles.erase taken
        send := sendNext taken cfg.connectedServers false} fileName := by
      intro fileName hfinished
      refine ⟨⟨hfinished.1.1, fun hmem => hfinished.1.2 (List.mem_of_mem_erase hmem)⟩, ?_⟩
      rw [sendNext_file]
      simpa using (hother fileName hfinished).symm
    refine ⟨h.nodup.erase taken, ?_, ?_, ?_, ?_, ?_⟩
    · intro fileName hmem
      exact h.noticed fileName (List.mem_of_mem_erase hmem)
    · intro fileName hfile
      rw [sendNext_file] at hfile
      cases hfile
      exact ⟨h.noticed taken hnoticed, h.nodup.not_mem_erase⟩
    · intro fileName hqueue
      exact hkept fileName (h.queued fileName hqueue)
    · intro fileName harrived hgone
      exact hkept fileName (h.removed fileName harrived hgone)
    · rw [sendNext_toPass]
      exact cfg.nodup
  | @sendClear cleared hsend hroom =>
    have hkept : ∀ fileName, Finished arrived st fileName → Finished arrived {st with
        clearQ := st.clearQ ++ [.source cleared]
        send := .idle} fileName := by
      intro fileName hfinished
      exact ⟨hfinished.1, by simp [SendPhase.file]⟩
    refine ⟨h.nodup, h.noticed, ?_, ?_, ?_, List.nodup_nil⟩
    · intro fileName hfile
      cases hfile
    · intro fileName hqueue
      rcases hstep.queued hqueue with
        hqueue | ⟨taken, _, htaken, heq⟩ | ⟨_, _, hevent, _⟩
      · exact hkept fileName (h.queued fileName hqueue)
      · cases heq
        exact ⟨h.begun fileName (by rw [htaken]; rfl), by simp [SendPhase.file]⟩
      · cases hevent
    · intro fileName harrived hgone
      exact hkept fileName (h.removed fileName harrived hgone)
  | @removeSource removed hclear =>
    refine h.of_goesOn rfl (.refl _) (fun fileName hqueue => ?_) (fun fileName hgone => ?_)
    · simpa using hstep.queued hqueue
    · rcases eq_or_ne fileName removed with rfl | hne
      · exact .inr (.inr (.inl hclear))
      · simp only [Function.update_of_ne hne] at hgone
        exact .inl hgone
  | _ =>
    refine h.of_goesOn rfl (hstep.send_goesOn (by simp) (by simp)) (fun fileName hqueue => ?_)
      (fun fileName hgone => .inl hgone)
    simpa using hstep.queued hqueue

/-! ## Every server is asked once by the send worker -/

/-- The last answer of a server about a file. -/
def lastAnswer : List (FileName × ServerName × Answer) → FileName → ServerName → Option Answer
  | [], _, _ => none
  | (answered, at_, resp) :: rest, fileName, serv =>
    if answered = fileName ∧ at_ = serv then some resp else lastAnswer rest fileName serv

theorem lastAnswer_cons_self (answers : List (FileName × ServerName × Answer))
    (fileName : FileName) (serv : ServerName) (resp : Answer) :
    lastAnswer ((fileName, serv, resp) :: answers) fileName serv = some resp := by
  simp [lastAnswer]

theorem lastAnswer_cons_other (answers : List (FileName × ServerName × Answer))
    {answered fileName : FileName} {at_ serv : ServerName} (resp : Answer)
    (hne : (fileName, serv) ≠ (answered, at_)) :
    lastAnswer ((answered, at_, resp) :: answers) fileName serv =
      lastAnswer answers fileName serv := by
  rw [lastAnswer, if_neg]
  rintro ⟨rfl, rfl⟩
  exact hne rfl

theorem mem_of_lastAnswer {answers : List (FileName × ServerName × Answer)}
    {fileName : FileName} {serv : ServerName} {resp : Answer}
    (h : lastAnswer answers fileName serv = some resp) : (fileName, serv, resp) ∈ answers := by
  induction answers with
  | nil => cases h
  | cons first rest ih =>
    obtain ⟨answered, at_, resp'⟩ := first
    rw [lastAnswer] at h
    split_ifs at h with heq
    · obtain ⟨rfl, rfl⟩ := heq
      cases h
      exact List.mem_cons_self
    · exact List.mem_cons_of_mem _ (ih h)

/-- The last answer of the server about the file is a failure. -/
def Failing (st : Client) (fileName : FileName) (serv : ServerName) : Prop :=
  ∃ retryable, lastAnswer st.answers fileName serv = some (.failure retryable)

/-- The file is in the hands of the retry worker, or in its queue. -/
def RetryPhase.file : RetryPhase → Option FileName
  | .idle => none
  | .requesting fileName | .awaiting fileName | .requeueing fileName | .getting fileName
  | .writing fileName _ | .clearing fileName => some fileName

/-- The file that the retry worker is still to transfer. -/
def RetryPhase.toTransfer : RetryPhase → Option FileName
  | .requesting fileName | .awaiting fileName | .requeueing fileName => some fileName
  | _ => none

/-- The retry worker of the server has the file, or will take it from its queue. -/
def Retried (st : Client) (fileName : FileName) (serv : ServerName) : Prop :=
  fileName ∈ st.retryQ serv ∨ (st.retry serv).file = some fileName

/-- The file is still to be transferred again to the server. -/
def ToRetry (st : Client) (fileName : FileName) (serv : ServerName) : Prop :=
  fileName ∈ st.retryQ serv ∨ (st.retry serv).toTransfer = some fileName

/-- The send worker has not had an answer of the server about the file. -/
def ToAsk (arrived : List FileName) (st : Client) (fileName : FileName) (serv : ServerName) :
    Prop :=
  ¬ Begun arrived st fileName ∨ (st.send.file = some fileName ∧ serv ∈ st.send.toAsk)

/-- No failure of the file has been dealt with. -/
def Untouched (arrived : List FileName) (st : Client) (fileName : FileName) : Prop :=
  ¬ Begun arrived st fileName ∨ st.send.unfailed = some fileName

/-- The send worker has not passed the file by the server. -/
def ToPass (arrived : List FileName) (st : Client) (fileName : FileName) (serv : ServerName) :
    Prop :=
  Untouched arrived st fileName ∨ (st.send.file = some fileName ∧ serv ∈ st.send.toPass)

/-- A server is asked again about a file only after the send worker has passed it, and only
while its last answer is a failure. -/
structure AskedOnce (cfg : ClientConfig) (arrived : List FileName) (st : Client) : Prop where
  toAsk : ∀ fileName serv, ToAsk arrived st fileName serv →
    lastAnswer st.answers fileName serv = none
  asked : ∀ fileName, Begun arrived st fileName → ∀ serv ∈ cfg.connectedServers,
    ToAsk arrived st fileName serv ∨ lastAnswer st.answers fileName serv ≠ none
  failure : ∀ fileName serv, st.send.failure = some (fileName, serv) → Failing st fileName serv
  toPass : ∀ fileName serv, ToPass arrived st fileName serv → ¬ Retried st fileName serv
  nodup : ∀ serv, (st.retryQ serv).Nodup
  held : ∀ fileName serv, (st.retry serv).file = some fileName → fileName ∉ st.retryQ serv
  toRetry : ∀ fileName serv, ToRetry st fileName serv → Failing st fileName serv
  got : ∀ fileName serv, st.retry serv = .getting fileName → ¬ Failing st fileName serv
  queueing : ∀ cur, st.send = .queueing cur → cur.failed = true

section AskedOnce
variable {cfg : ClientConfig} {arrived : List FileName} {st st' : Client} {event : Event}

theorem askedOnce_started (connected : ServerName → Bool) :
    AskedOnce cfg [] (started connected) where
  toAsk _ _ _ := rfl
  asked := by simp [Begun]
  failure := by simp [started, SendPhase.failure]
  toPass := by simp [started, Retried, RetryPhase.file]
  nodup _ := List.nodup_nil
  held := by simp [started]
  toRetry := by simp [started, ToRetry, RetryPhase.toTransfer]
  got := by simp [started]
  queueing := by simp [started]

/-- A file is begun once it has been taken. -/
theorem Taken.begun (htaken : Taken cfg st event st') (h : SentOnce arrived st)
    (hfresh : ∀ fileName, event = .arrive fileName → fileName ∉ arrived) (fileName : FileName) :
    Begun (arrivedAfter arrived event) st' fileName ↔
      Begun arrived st fileName ∨ event = .takeFile fileName := by
  cases htaken with
  | arrive fresh =>
    have hnew := hfresh fresh rfl
    by_cases heq : fileName = fresh
    · subst heq
      simp [Begun, hnew]
    · simp [Begun, arrivedAfter, heq]
  | @takeFile taken hsend hnoticed =>
    by_cases heq : fileName = taken
    · subst heq
      simp [Begun, arrivedAfter, h.noticed fileName hnoticed, h.nodup.not_mem_erase]
    · simp [Begun, arrivedAfter, List.mem_erase_of_ne heq, Ne.symm heq]
  | _ =>
    simp only [reduceCtorEq, or_false]
    exact Iff.rfl

variable {fileName : FileName} {serv : ServerName}

section

variable (htaken : Taken cfg st event st') (h : SentOnce arrived st)
  (hfresh : ∀ fileName, event = .arrive fileName → fileName ∉ arrived)
include htaken h hfresh

/-- The send worker never gets an answer to give back. -/
theorem Taken.toAsk (hask : ToAsk (arrivedAfter arrived event) st' fileName serv) :
    ToAsk arrived st fileName serv := by
  rcases hask with hnew | ⟨hfile, hserv⟩
  · rw [htaken.begun h hfresh] at hnew
    exact .inl fun hbegun => hnew (.inl hbegun)
  · rcases htaken.send_cases with ⟨taken, hnoticed, hsend⟩ | hidle | hgoes
    · rw [hsend, sendNext_file] at hfile
      cases hfile
      exact .inl fun hbegun => hbegun.2 hnoticed
    · rw [hidle] at hfile
      cases hfile
    · exact .inr ⟨hgoes.file ▸ hfile, hgoes.toAsk serv hserv⟩

/-- A file that has been touched stays so. -/
theorem Taken.untouched (huntouched : Untouched (arrivedAfter arrived event) st' fileName) :
    Untouched arrived st fileName := by
  rcases huntouched with hnew | hunfailed
  · rw [htaken.begun h hfresh] at hnew
    exact .inl fun hbegun => hnew (.inl hbegun)
  · rcases htaken.send_cases with ⟨taken, hnoticed, hsend⟩ | hidle | hgoes
    · rw [hsend] at hunfailed
      rw [(eq_of_sendNext_unfailed _ _ _ hunfailed).1]
      exact .inl fun hbegun => hbegun.2 hnoticed
    · rw [hidle] at hunfailed
      cases hunfailed
    · exact .inr (hgoes.unfailed fileName hunfailed)

/-- The send worker never goes back to a server that it has passed. -/
theorem Taken.toPass (hpass : ToPass (arrivedAfter arrived event) st' fileName serv) :
    ToPass arrived st fileName serv := by
  rcases hpass with huntouched | ⟨hfile, hserv⟩
  · exact .inl (htaken.untouched h hfresh huntouched)
  · rcases htaken.send_cases with ⟨taken, hnoticed, hsend⟩ | hidle | hgoes
    · rw [hsend, sendNext_file] at hfile
      cases hfile
      exact .inl (.inl fun hbegun => hbegun.2 hnoticed)
    · rw [hidle] at hfile
      cases hfile
    · exact .inr ⟨hgoes.file ▸ hfile, hgoes.toPass.subset hserv⟩

end

theorem retryAnswered_file {held : FileName} {resp : Answer}
    (h : (retryAnswered held resp).file = some fileName) : held = fileName := by
  cases resp with
  | success => simpa [retryAnswered, RetryPhase.file] using h
  | failure retryable =>
    cases retryable with
    | true => simpa [retryAnswered, RetryPhase.file] using h
    | false => simp [retryAnswered, RetryPhase.file] at h

theorem retryAnswered_toTransfer {held : FileName} {resp : Answer}
    (h : (retryAnswered held resp).toTransfer = some fileName) :
    held = fileName ∧ resp = .failure true := by
  cases resp with
  | success => cases h
  | failure retryable =>
    cases retryable with
    | true =>
      cases h
      exact ⟨rfl, rfl⟩
    | false => cases h

/-- The retry worker has no file that it did not have before. -/
structure RetryPhase.GoesOn (phase phase' : RetryPhase) : Prop where
  file : ∀ fileName, phase'.file = some fileName → phase.file = some fileName
  toTransfer : ∀ fileName, phase'.toTransfer = some fileName → phase.toTransfer = some fileName

theorem RetryPhase.GoesOn.refl (phase : RetryPhase) : phase.GoesOn phase where
  file _ h := h
  toTransfer _ h := h

theorem goesOn_idle (phase : RetryPhase) : phase.GoesOn .idle where
  file := by simp [RetryPhase.file]
  toTransfer := by simp [RetryPhase.toTransfer]

/-- How the files to retry move. -/
inductive RetryMove (st st' : Client) : Prop where
  | goesOn (queue : st'.retryQ = st.retryQ)
      (retry : ∀ serv, (st.retry serv).GoesOn (st'.retry serv))
  | queued (cur : SendLoop) (send : st.send = .queueing cur)
      (send' : st'.send = sendNext cur.fileName cur.rest cur.failed)
      (queue : st'.retryQ =
        Function.update st.retryQ cur.serv (st.retryQ cur.serv ++ [cur.fileName]))
      (retry : st'.retry = st.retry)
  | taken (serv : ServerName) (fileName : FileName) (rest : List FileName)
      (queue : st.retryQ serv = fileName :: rest)
      (queue' : st'.retryQ = Function.update st.retryQ serv rest)
      (retry : st'.retry = Function.update st.retry serv (.requesting fileName))
  | requeued (serv : ServerName) (fileName : FileName)
      (retry : st.retry serv = .requeueing fileName)
      (queue : st'.retryQ = Function.update st.retryQ serv (st.retryQ serv ++ [fileName]))
      (retry' : st'.retry = Function.update st.retry serv .idle)

/-- A change of one retry worker that goes on. -/
theorem RetryMove.of_update {phase : RetryPhase} (hqueue : st'.retryQ = st.retryQ)
    (hretry : st'.retry = Function.update st.retry serv phase)
    (hphase : (st.retry serv).GoesOn phase) : RetryMove st st' := by
  refine .goesOn hqueue fun other => ?_
  rw [hretry]
  by_cases heq : other = serv
  · subst heq
    rw [Function.update_self]
    exact hphase
  · rw [Function.update_of_ne heq]
    exact .refl _

theorem Taken.retryMove (htaken : Taken cfg st event st') : RetryMove st st' := by
  cases htaken with
  | acceptRetry hretry =>
    refine .of_update rfl rfl ?_
    rw [hretry]
    exact ⟨fun _ h => h, fun _ h => h⟩
  | retryMissing hretry | retryGet hretry =>
    refine .of_update rfl rfl ?_
    rw [hretry]
    refine ⟨fun _ h => h, ?_⟩
    simp [RetryPhase.toTransfer]
  | answerRetry hphase hretry =>
    refine .of_update rfl rfl ?_
    rw [hretry]
    refine ⟨fun fileName h => ?_, fun fileName h => ?_⟩
    · rw [← retryAnswered_file h]
      rfl
    · rw [← (retryAnswered_toTransfer h).1]
      rfl
  | retryWrite hretry =>
    refine .of_update rfl rfl ?_
    rw [hretry]
    split_ifs
    · refine ⟨fun _ h => h, ?_⟩
      simp [RetryPhase.toTransfer]
    · exact goesOn_idle _
  | retryClear => exact .of_update rfl rfl (goesOn_idle _)
  | sendRetry hsend => exact .queued _ hsend rfl rfl rfl
  | takeRetry _ hqueue => exact .taken _ _ _ hqueue rfl rfl
  | requeueRetry hretry => exact .requeued _ _ hretry rfl rfl
  | _ => exact .goesOn rfl fun _ => .refl _

/-- What such a move does at one server. -/
theorem RetryMove.at_server (h : RetryMove st st') (serv : ServerName) :
    (st'.retryQ serv = st.retryQ serv ∧ (st.retry serv).GoesOn (st'.retry serv)) ∨
      (∃ cur, st.send = .queueing cur ∧ st'.send = sendNext cur.fileName cur.rest cur.failed ∧
        cur.serv = serv ∧ st'.retryQ serv = st.retryQ serv ++ [cur.fileName] ∧
        st'.retry serv = st.retry serv) ∨
      (∃ held rest, st.retryQ serv = held :: rest ∧ st'.retryQ serv = rest ∧
        st'.retry serv = .requesting held) ∨
      ∃ held, st.retry serv = .requeueing held ∧ st'.retryQ serv = st.retryQ serv ++ [held] ∧
        st'.retry serv = .idle := by
  rcases h with ⟨hqueue, hretry⟩ | ⟨cur, hsend, hsend', hqueue, hretry⟩ |
    ⟨at_, held, rest, hqueue, hqueue', hretry⟩ | ⟨at_, held, hretry, hqueue, hretry'⟩
  · exact .inl ⟨congrFun hqueue serv, hretry serv⟩
  · rw [hqueue, hretry]
    by_cases heq : serv = cur.serv
    · subst heq
      exact .inr (.inl ⟨cur, hsend, hsend', rfl, Function.update_self .., rfl⟩)
    · exact .inl ⟨Function.update_of_ne heq .., .refl _⟩
  · rw [hqueue', hretry]
    by_cases heq : serv = at_
    · subst heq
      exact .inr (.inr (.inl ⟨held, rest, hqueue, Function.update_self .., Function.update_self ..⟩))
    · rw [Function.update_of_ne heq, Function.update_of_ne heq]
      exact .inl ⟨rfl, .refl _⟩
  · rw [hqueue, hretry']
    by_cases heq : serv = at_
    · subst heq
      exact .inr (.inr (.inr ⟨held, hretry, Function.update_self .., Function.update_self ..⟩))
    · rw [Function.update_of_ne heq, Function.update_of_ne heq]
      exact .inl ⟨rfl, .refl _⟩

/-- A file comes to a retry worker only from the send worker; what counts is the files that the
worker has, or those of them that are still to be transferred. -/
theorem Taken.queued_or_had {files : RetryPhase → Option FileName} (hidle : files .idle = none)
    (hrequesting : ∀ held, files (.requesting held) = some held)
    (hrequeueing : ∀ held, files (.requeueing held) = some held)
    (hgoes : ∀ phase phase', phase.GoesOn phase' → files phase' = some fileName →
      files phase = some fileName) (htaken : Taken cfg st event st')
    (h : fileName ∈ st'.retryQ serv ∨ files (st'.retry serv) = some fileName) :
    (fileName ∈ st.retryQ serv ∨ files (st.retry serv) = some fileName) ∨
      ∃ cur, st.send = .queueing cur ∧ st'.send = sendNext cur.fileName cur.rest cur.failed ∧
        cur.fileName = fileName ∧ cur.serv = serv := by
  rcases htaken.retryMove.at_server serv with ⟨hqueue, hretry⟩ |
    ⟨cur, hsend, hsend', hserv, hqueue, hretry⟩ | ⟨held, rest, hqueue, hqueue', hretry⟩ |
    ⟨held, hretry, hqueue, hretry'⟩
  · rw [hqueue] at h
    exact .inl (h.imp_right (hgoes _ _ hretry))
  · rw [hqueue, hretry, List.mem_append, List.mem_singleton] at h
    rcases h with (hmem | hlast) | hfile
    · exact .inl (.inl hmem)
    · exact .inr ⟨cur, hsend, hsend', hlast.symm, hserv⟩
    · exact .inl (.inr hfile)
  · rw [hqueue', hretry, hrequesting, Option.some_inj] at h
    rw [hqueue, List.mem_cons]
    exact .inl (.inl (h.symm.imp_left Eq.symm))
  · rw [hqueue, hretry', hidle, List.mem_append, List.mem_singleton] at h
    rw [hretry, hrequeueing, Option.some_inj]
    rcases h with (hmem | hlast) | hfile
    · exact .inl (.inl hmem)
    · exact .inl (.inr hlast.symm)
    · cases hfile

/-- A file comes to a retry worker only from the send worker. -/
theorem Taken.retried (htaken : Taken cfg st event st') (h : Retried st' fileName serv) :
    Retried st fileName serv ∨ ∃ cur, st.send = .queueing cur ∧
      st'.send = sendNext cur.fileName cur.rest cur.failed ∧ cur.fileName = fileName ∧
      cur.serv = serv :=
  htaken.queued_or_had rfl (fun _ => rfl) (fun _ => rfl) (fun _ _ hgoes => hgoes.file _) h

/-- The answers grow by one answer about the file that was asked for, or not at all. -/
theorem Taken.answered (htaken : Taken cfg st event st') (hawaited : AnswersAwaited st) :
    st'.answers = st.answers ∨
      (∃ cur resp, st.send = .awaiting cur ∧ st'.send = sendAnswered cur resp ∧
        st'.retry = st.retry ∧ st'.retryQ = st.retryQ ∧
        st'.answers = (cur.fileName, cur.serv, resp) :: st.answers) ∨
      ∃ serv fileName resp, st.retry serv = .awaiting fileName ∧ st'.send = st.send ∧
        st'.retry = Function.update st.retry serv (retryAnswered fileName resp) ∧
        st'.retryQ = st.retryQ ∧ st'.answers = (fileName, serv, resp) :: st.answers := by
  cases htaken with
  | @answerSend serv fileName resp counted cur hphase hsend =>
    obtain ⟨held, hheld, rfl, rfl⟩ := hawaited serv .send fileName (by
      simp [hphase, TransferPhase.serves])
    rw [hsend] at hheld
    cases hheld
    exact .inr (.inl ⟨cur, resp, hsend, rfl, rfl, rfl, rfl⟩)
  | @answerRetry serv fileName held resp counted hphase hretry =>
    have hheld := hawaited serv .retry fileName (by simp [hphase, TransferPhase.serves])
    rw [Awaited, hretry] at hheld
    cases hheld
    exact .inr (.inr ⟨serv, _, resp, hretry, rfl, rfl, rfl, rfl⟩)
  | _ => exact .inl rfl

theorem lastAnswer_cons_ne_none {answers : List (FileName × ServerName × Answer)}
    (answer : FileName × ServerName × Answer) (h : lastAnswer answers fileName serv ≠ none) :
    lastAnswer (answer :: answers) fileName serv ≠ none := by
  obtain ⟨answered, at_, resp⟩ := answer
  rw [lastAnswer]
  split_ifs
  · simp
  · exact h

/-- Who has answered once has answered. -/
theorem Taken.lastAnswer_ne_none (htaken : Taken cfg st event st')
    (h : lastAnswer st.answers fileName serv ≠ none) :
    lastAnswer st'.answers fileName serv ≠ none := by
  cases htaken with
  | answerSend | answerRetry => exact lastAnswer_cons_ne_none _ h
  | _ => exact h

/-- The send worker of an asked file waits at the server. -/
theorem SentOnce.not_toAsk_rest (hsent : SentOnce arrived st) (hsend : st.send = .awaiting cur) :
    cur.serv ∉ cur.rest := by
  have hnodup := hsent.toPass
  rw [hsend] at hnodup
  exact (List.nodup_cons.1 hnodup).1

theorem AskedOnce.toAsk_step (h : AskedOnce cfg arrived st) (hsent : SentOnce arrived st)
    (hawaited : AnswersAwaited st) (htaken : Taken cfg st event st')
    (hfresh : ∀ fileName, event = .arrive fileName → fileName ∉ arrived) (fileName : FileName)
    (serv : ServerName) (hask : ToAsk (arrivedAfter arrived event) st' fileName serv) :
    lastAnswer st'.answers fileName serv = none := by
  have hnone := h.toAsk fileName serv (htaken.toAsk hsent hfresh hask)
  rcases htaken.answered hawaited with hsame | ⟨cur, resp, hsend, hsend', _, _, hanswers⟩ |
    ⟨at_, held, resp, hretry, _, _, _, hanswers⟩
  · rw [hsame, hnone]
  · rw [hanswers, lastAnswer_cons_other _ _ ?_, hnone]
    intro heq
    cases heq
    have hbegun := hsent.begun cur.fileName (by rw [hsend]; rfl)
    rcases hask with hnew | ⟨_, hrest⟩
    · exact hnew ((htaken.begun hsent hfresh _).2 (.inl hbegun))
    · have hnot := hsent.not_toAsk_rest hsend
      cases resp with
      | success =>
        rw [hsend', sendAnswered, sendNext_toAsk] at hrest
        exact hnot hrest
      | failure retryable =>
        rw [hsend'] at hrest
        exact hnot hrest
  · rw [hanswers, lastAnswer_cons_other _ _ ?_, hnone]
    intro heq
    cases heq
    obtain ⟨retryable, hfailed⟩ := h.toRetry fileName serv (.inr (by rw [hretry]; rfl))
    rw [hnone] at hfailed
    cases hfailed

/-- A server that the send worker is to ask stays so until it has answered. -/
theorem Taken.asks (htaken : Taken cfg st event st') (hawaited : AnswersAwaited st)
    (hfile : st.send.file = some fileName) (hserv : serv ∈ st.send.toAsk) :
    (st'.send.file = some fileName ∧ serv ∈ st'.send.toAsk) ∨
      lastAnswer st'.answers fileName serv ≠ none := by
  cases htaken with
  | takeFile hsend =>
    rw [hsend] at hfile
    cases hfile
  | acceptSend hsend | sendGet hsend =>
    rw [hsend] at hfile hserv
    exact .inl ⟨hfile, hserv⟩
  | @answerSend at_ answered resp counted cur hphase hsend =>
    obtain ⟨held, hheld, rfl, rfl⟩ := hawaited at_ .send answered (by
      simp [hphase, TransferPhase.serves])
    rw [hsend] at hheld hfile hserv
    cases hheld
    cases hfile
    rcases List.mem_cons.1 hserv with rfl | hrest
    · right
      rw [lastAnswer_cons_self]
      simp
    · left
      simpa using hrest
  | @sendSet cur retryable val hsend =>
    rw [hsend] at hfile hserv
    cases hfile
    left
    by_cases hfailed : cur.failed
    · simp only [hfailed, if_true, sendFailed_file, sendFailed_toAsk]
      exact ⟨trivial, hserv⟩
    · simp only [hfailed]
      exact ⟨rfl, hserv⟩
  | sendCopy hsend =>
    rw [hsend] at hfile hserv
    cases hfile
    left
    rw [sendFailed_file, sendFailed_toAsk]
    exact ⟨rfl, hserv⟩
  | sendRetry hsend =>
    rw [hsend] at hfile hserv
    cases hfile
    left
    rw [sendNext_file, sendNext_toAsk]
    exact ⟨rfl, hserv⟩
  | sendClear hsend =>
    rw [hsend] at hserv
    cases hserv
  | _ => exact .inl ⟨hfile, hserv⟩

theorem AskedOnce.asked_step (h : AskedOnce cfg arrived st) (hsent : SentOnce arrived st)
    (hawaited : AnswersAwaited st) (htaken : Taken cfg st event st')
    (hfresh : ∀ fileName, event = .arrive fileName → fileName ∉ arrived) (fileName : FileName)
    (hbegun : Begun (arrivedAfter arrived event) st' fileName) (serv : ServerName)
    (hserv : serv ∈ cfg.connectedServers) :
    ToAsk (arrivedAfter arrived event) st' fileName serv ∨
      lastAnswer st'.answers fileName serv ≠ none := by
  rcases (htaken.begun hsent hfresh fileName).1 hbegun with hwas | rfl
  · rcases h.asked fileName hwas serv hserv with (hnew | ⟨hfile, hask⟩) | hanswered
    · exact absurd hwas hnew
    · rcases htaken.asks hawaited hfile hask with hask' | hanswered
      · exact .inl (.inr hask')
      · exact .inr hanswered
    · exact .inr (htaken.lastAnswer_ne_none hanswered)
  · cases htaken with
    | takeFile =>
      left
      right
      simpa using hserv

/-- The send worker deals with a failure that it has just been answered, or with the same one
as before. -/
theorem Taken.failure (htaken : Taken cfg st event st') (hawaited : AnswersAwaited st)
    (hfailure : st'.send.failure = some (fileName, serv)) :
    Failing st' fileName serv ∨ st.send.failure = some (fileName, serv) := by
  cases htaken with
  | takeFile | sendRetry => simp at hfailure
  | acceptSend | sendClear => cases hfailure
  | @answerSend at_ answered resp counted cur hphase hsend =>
    obtain ⟨held, hheld, rfl, rfl⟩ := hawaited at_ .send answered (by
      simp [hphase, TransferPhase.serves])
    rw [hsend] at hheld
    cases hheld
    cases resp with
    | success => simp [sendAnswered] at hfailure
    | failure retryable =>
      cases hfailure
      exact .inl ⟨retryable, lastAnswer_cons_self _ _ _ _⟩
  | sendGet hsend =>
    right
    rw [hsend]
    exact hfailure
  | @sendSet cur retryable val hsend =>
    right
    rw [hsend]
    by_cases hfailed : cur.failed
    · simp only [hfailed] at hfailure
      rw [eq_of_sendFailed_failure _ _ hfailure]
      rfl
    · simp only [hfailed] at hfailure
      exact hfailure
  | sendCopy hsend =>
    right
    rw [hsend, eq_of_sendFailed_failure _ _ hfailure]
    rfl
  | _ => exact .inr hfailure

/-- The failure that the send worker deals with is at the server that it is to pass. -/
theorem toPass_of_failure (h : st.send.failure = some (fileName, serv)) :
    ToPass arrived st fileName serv := by
  refine .inr ?_
  cases hsend : st.send with
  | getting | setting | copying | queueing =>
    rw [hsend] at h
    cases h
    exact ⟨rfl, List.mem_cons_self⟩
  | idle | requesting | awaiting | clearing =>
    rw [hsend] at h
    cases h

/-- Only an answer about the file from the server changes its last answer. -/
theorem Taken.failing_iff (htaken : Taken cfg st event st') (hawaited : AnswersAwaited st)
    (hsend : ∀ cur, st.send = .awaiting cur → (fileName, serv) ≠ (cur.fileName, cur.serv))
    (hretry : st.retry serv ≠ .awaiting fileName) :
    Failing st' fileName serv ↔ Failing st fileName serv := by
  rcases htaken.answered hawaited with hsame | ⟨cur, resp, hcur, _, _, _, hanswers⟩ |
    ⟨at_, held, resp, hheld, _, _, _, hanswers⟩
  · rw [Failing, Failing, hsame]
  · rw [Failing, Failing, hanswers, lastAnswer_cons_other _ _ (hsend cur hcur)]
  · rw [Failing, Failing, hanswers, lastAnswer_cons_other]
    intro heq
    cases heq
    exact hretry hheld

section

variable (h : AskedOnce cfg arrived st)
include h

/-- The file whose failure the send worker deals with is not retried at the server. -/
theorem AskedOnce.not_retried_of_failure {serv : ServerName}
    (hfailure : st.send.failure = some (fileName, serv)) :
    ¬ Retried st fileName serv := h.toPass _ _ (toPass_of_failure hfailure)

theorem AskedOnce.not_retried_of_awaiting (hsend : st.send = .awaiting cur) :
    ¬ Retried st cur.fileName cur.serv := by
  refine h.toPass _ _ (.inr ?_)
  rw [hsend]
  exact ⟨rfl, List.mem_cons_self⟩

theorem AskedOnce.failure_step (hawaited : AnswersAwaited st) (htaken : Taken cfg st event st')
    (fileName : FileName) (serv : ServerName) (hfailure : st'.send.failure = some (fileName, serv)) :
    Failing st' fileName serv := by
  rcases htaken.failure hawaited hfailure with hnow | hwas
  · exact hnow
  · rw [htaken.failing_iff hawaited]
    · exact h.failure fileName serv hwas
    · intro cur hsend
      rw [hsend] at hwas
      cases hwas
    · intro hretry
      exact h.toPass fileName serv (toPass_of_failure hwas) (.inr (by rw [hretry]; rfl))

theorem AskedOnce.toPass_step (hsent : SentOnce arrived st) (htaken : Taken cfg st event st')
    (hfresh : ∀ fileName, event = .arrive fileName → fileName ∉ arrived) (fileName : FileName)
    (serv : ServerName) (hpass : ToPass (arrivedAfter arrived event) st' fileName serv) :
    ¬ Retried st' fileName serv := by
  intro hretried
  rcases htaken.retried hretried with hretried | ⟨cur, hsend, hsend', rfl, rfl⟩
  · exact h.toPass fileName serv (htaken.toPass hsent hfresh hpass) hretried
  · have hbegun := hsent.begun cur.fileName (by rw [hsend]; rfl)
    have hnodup := hsent.toPass
    rw [hsend] at hnodup
    rcases hpass with (hnew | hunfailed) | ⟨_, hmem⟩
    · exact hnew ((htaken.begun hsent hfresh _).2 (.inl hbegun))
    · rw [hsend'] at hunfailed
      have heq := eq_of_sendNext_unfailed _ _ _ hunfailed
      rw [h.queueing cur hsend] at heq
      cases heq.2
    · rw [hsend', sendNext_toPass] at hmem
      exact (List.nodup_cons.1 hnodup).1 hmem

theorem AskedOnce.nodup_step (htaken : Taken cfg st event st') (serv : ServerName) :
    (st'.retryQ serv).Nodup := by
  have hnodup := h.nodup serv
  rcases htaken.retryMove.at_server serv with ⟨hqueue, hretry⟩ |
    ⟨cur, hsend, hsend', rfl, hqueue, hretry⟩ | ⟨held, rest, hqueue, hqueue', hretry⟩ |
    ⟨held, hretry, hqueue, hretry'⟩
  · rw [hqueue]
    exact hnodup
  · have hnot := h.not_retried_of_failure (by rw [hsend]; rfl)
    rw [hqueue, List.nodup_append_comm]
    exact List.nodup_cons.2 ⟨fun hmem => hnot (.inl hmem), hnodup⟩
  · rw [hqueue] at hnodup
    rw [hqueue']
    exact (List.nodup_cons.1 hnodup).2
  · have hnot := h.held held serv (by rw [hretry]; rfl)
    rw [hqueue, List.nodup_append_comm]
    exact List.nodup_cons.2 ⟨hnot, hnodup⟩

theorem AskedOnce.held_step (htaken : Taken cfg st event st') (fileName : FileName)
    (serv : ServerName) (hfile : (st'.retry serv).file = some fileName) :
    fileName ∉ st'.retryQ serv := by
  rcases htaken.retryMove.at_server serv with ⟨hqueue, hretry⟩ |
    ⟨cur, hsend, hsend', rfl, hqueue, hretry⟩ | ⟨held, rest, hqueue, hqueue', hretry⟩ |
    ⟨held, hretry, hqueue, hretry'⟩
  · rw [hqueue]
    exact h.held fileName serv (hretry.file fileName hfile)
  · rw [hretry] at hfile
    have hnot := h.not_retried_of_failure (by rw [hsend]; rfl)
    rw [hqueue, List.mem_append, List.mem_singleton, not_or]
    refine ⟨h.held fileName _ hfile, ?_⟩
    rintro rfl
    exact hnot (.inr hfile)
  · rw [hretry] at hfile
    cases hfile
    have hnodup := h.nodup serv
    rw [hqueue] at hnodup
    rw [hqueue']
    exact (List.nodup_cons.1 hnodup).1
  · rw [hretry'] at hfile
    cases hfile

end

/-- A file that is to be retried was to be retried before, or the send worker has queued it. -/
theorem Taken.toRetry (htaken : Taken cfg st event st') (h : ToRetry st' fileName serv) :
    ToRetry st fileName serv ∨ st.send.failure = some (fileName, serv) := by
  rcases htaken.queued_or_had rfl (fun _ => rfl) (fun _ => rfl) (fun _ _ hgoes => hgoes.toTransfer _)
    h with hto | ⟨cur, hsend, -, rfl, rfl⟩
  · exact .inl hto
  · right
    rw [hsend]
    rfl

theorem retried_of_toRetry (h : ToRetry st fileName serv) : Retried st fileName serv := by
  refine h.imp_right fun htransfer => ?_
  cases hretry : st.retry serv with
  | requesting | awaiting | requeueing =>
    rw [hretry] at htransfer
    exact htransfer
  | idle | getting | writing | clearing =>
    rw [hretry] at htransfer
    cases htransfer

theorem AskedOnce.toRetry_step (h : AskedOnce cfg arrived st) (hawaited : AnswersAwaited st)
    (htaken : Taken cfg st event st') (fileName : FileName) (serv : ServerName)
    (hto : ToRetry st' fileName serv) : Failing st' fileName serv := by
  have hfailing : Failing st fileName serv := by
    rcases htaken.toRetry hto with hto | hfailure
    · exact h.toRetry fileName serv hto
    · exact h.failure fileName serv hfailure
  rcases htaken.answered hawaited with hsame | ⟨cur, resp, hsend, hsend', hretry, hqueue, hanswers⟩ |
    ⟨at_, held, resp, hretry, hsend', hretry', hqueue, hanswers⟩
  · rw [Failing, hsame]
    exact hfailing
  · rw [Failing, hanswers, lastAnswer_cons_other]
    · exact hfailing
    · intro heq
      cases heq
      rw [ToRetry, hqueue, hretry] at hto
      exact h.not_retried_of_awaiting hsend (retried_of_toRetry hto)
  · by_cases heq : (fileName, serv) = (held, at_)
    · cases heq
      rw [ToRetry, hqueue, hretry', Function.update_self] at hto
      rcases hto with hmem | htransfer
      · exact absurd hmem (h.held fileName serv (by rw [hretry]; rfl))
      · rw [(retryAnswered_toTransfer htransfer).2] at hanswers
        rw [Failing, hanswers]
        exact ⟨true, lastAnswer_cons_self _ _ _ _⟩
    · rw [Failing, hanswers, lastAnswer_cons_other _ _ heq]
      exact hfailing

/-- A retry worker reads the record of its file after a success. -/
theorem Taken.got (htaken : Taken cfg st event st') (hawaited : AnswersAwaited st)
    (h : st'.retry serv = .getting fileName) :
    st.retry serv = .getting fileName ∨ (st.retry serv = .awaiting fileName ∧
      st'.answers = (fileName, serv, .success) :: st.answers) := by
  have hother : ∀ at_ phase, st'.retry = Function.update st.retry at_ phase →
      phase ≠ .getting fileName → st.retry serv = .getting fileName := by
    intro at_ phase hretry hphase
    rw [hretry] at h
    by_cases heq : serv = at_
    · subst heq
      rw [Function.update_self] at h
      exact absurd h hphase
    · rwa [Function.update_of_ne heq] at h
  cases htaken with
  | acceptRetry | takeRetry | requeueRetry | retryMissing | retryGet | retryClear =>
    refine .inl (hother _ _ rfl ?_)
    simp
  | retryWrite =>
    refine .inl (hother _ _ rfl ?_)
    split_ifs <;> simp
  | @answerRetry at_ answered held resp counted hphase hretry =>
    have hheld := hawaited at_ .retry answered (by simp [hphase, TransferPhase.serves])
    rw [Awaited, hretry] at hheld
    cases hheld
    by_cases heq : serv = at_
    · subst heq
      right
      simp only [Client.setRetry, Function.update_self] at h
      have hfile := retryAnswered_file (by rw [h]; rfl)
      subst hfile
      cases resp with
      | success => exact ⟨hretry, rfl⟩
      | failure retryable => cases retryable <;> cases h
    · simp only [Client.setRetry, Function.update_of_ne heq] at h
      exact .inl h
  | _ => exact .inl h

theorem AskedOnce.got_step (h : AskedOnce cfg arrived st) (hawaited : AnswersAwaited st)
    (htaken : Taken cfg st event st') (fileName : FileName) (serv : ServerName)
    (hgot : st'.retry serv = .getting fileName) : ¬ Failing st' fileName serv := by
  rcases htaken.got hawaited hgot with hgot | ⟨hretry, hanswers⟩
  · rw [htaken.failing_iff hawaited]
    · exact h.got fileName serv hgot
    · intro cur hsend heq
      cases heq
      exact h.not_retried_of_awaiting hsend (.inr (by rw [hgot]; rfl))
    · rw [hgot]
      simp
  · rw [Failing, hanswers, lastAnswer_cons_self]
    simp

theorem AskedOnce.queueing_step (h : AskedOnce cfg arrived st) (htaken : Taken cfg st event st')
    (cur : SendLoop) (hsend' : st'.send = .queueing cur) : cur.failed = true := by
  have hnext : ∀ fileName rest failed, sendNext fileName rest failed ≠ .queueing cur := by
    intro fileName rest failed
    cases rest <;> simp [sendNext]
  have hfailed : ∀ held retryable, held.failed = true →
      sendFailed held retryable = .queueing cur → cur.failed = true := by
    intro held retryable hheld heq
    cases retryable with
    | true =>
      cases heq
      exact hheld
    | false => exact absurd heq (hnext _ _ _)
  cases htaken with
  | takeFile | sendRetry => exact absurd hsend' (hnext _ _ _)
  | acceptSend | sendGet | sendClear => cases hsend'
  | @answerSend at_ answered resp =>
    cases resp with
    | success => exact absurd hsend' (hnext _ _ _)
    | failure retryable => cases hsend'
  | @sendSet held retryable =>
    by_cases hheld : held.failed
    · simp only [hheld] at hsend'
      exact hfailed held retryable hheld hsend'
    · simp only [hheld] at hsend'
      cases hsend'
  | sendCopy => exact hfailed _ _ rfl hsend'
  | _ => exact h.queueing cur hsend'

theorem AskedOnce.step (h : AskedOnce cfg arrived st) (hsent : SentOnce arrived st)
    (hawaited : AnswersAwaited st) (htaken : Taken cfg st event st')
    (hfresh : ∀ fileName, event = .arrive fileName → fileName ∉ arrived) :
    AskedOnce cfg (arrivedAfter arrived event) st' where
  toAsk := h.toAsk_step hsent hawaited htaken hfresh
  asked := h.asked_step hsent hawaited htaken hfresh
  failure := h.failure_step hawaited htaken
  toPass := h.toPass_step hsent htaken hfresh
  nodup := h.nodup_step htaken
  held := h.held_step htaken
  toRetry := h.toRetry_step hawaited htaken
  got := h.got_step hawaited htaken
  queueing := h.queueing_step htaken

end AskedOnce

end HybridOs.CloudSync
