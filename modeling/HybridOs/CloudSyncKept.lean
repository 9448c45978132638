import HybridOs.CloudSyncProgress
import Mathlib.Data.List.Infix

/-!
# Files that are kept until every server has them

The database holds every server whose last answer about a file is a failure, and while there
is one the file is in the error directory. A client loses files only where the send worker
records a failure while a retry worker writes the same record, or after the last failure of
the record has been removed.
-/

namespace HybridOs.CloudSync

/-- The last answer is a failure that the send worker is not recording now. -/
def Failed (st : Client) (fileName : FileName) (serv : ServerName) : Prop :=
  Failing st fileName serv ∧ st.send.recording ≠ some (fileName, serv)

/-- Every failure of the file has been removed from its record. -/
def Completed (st : Client) (fileName : FileName) : Prop :=
  Queued st (.error fileName) ∨ ∃ serv, st.retry serv = .clearing fileName

/-- The send worker writes the record of a file while a retry worker is about to write it too,
or after the copy of the file was given up. -/
def Disturbs (st : Client) : Event → Prop
  | .sendSet => ∃ cur retryable val, st.send = .setting cur retryable val ∧
      ((∃ serv val', st.retry serv = .writing cur.fileName val') ∨
        (cur.failed = true ∧ (Completed st cur.fileName ∨ st.errorDir cur.fileName = false)))
  | _ => False

/-- Failures are in the database, and in what workers are about to write there. -/
structure Recorded (st : Client) : Prop where
  recorded : ∀ fileName serv, Failed st fileName serv → serv ∈ st.db fileName
  writing : ∀ fileName serv at_ val, Failed st fileName serv →
    st.retry at_ = .writing fileName val → serv ∈ val
  setting : ∀ cur retryable val, st.send = .setting cur retryable val →
    cur.serv ∈ val ∧ ∀ serv, Failed st cur.fileName serv → serv ∈ val

/-- A file with failures is in the error directory, and is not cleared from it. -/
structure Copied (arrived : List FileName) (st : Client) : Prop where
  untouched : ∀ fileName, Untouched arrived st fileName → ¬ Queued st (.error fileName)
  copied : ∀ fileName serv, Failed st fileName serv →
    ¬ Completed st fileName ∧ (st.errorDir fileName = true ∨ st.send.copies = some fileName)

/-- At the start nothing has failed. -/
theorem recorded_started (connected : ServerName → Bool) : Recorded (started connected) where
  recorded := by simp [Failed, Failing, started, lastAnswer]
  writing := by simp [started]
  setting := by simp [started]

/-- At the start nothing is queued. -/
theorem copied_started (connected : ServerName → Bool) : Copied [] (started connected) where
  untouched := by simp [started, Queued]
  copied := by simp [Failed, Failing, started, lastAnswer]

section Kept
variable {cfg : ClientConfig} {arrived : List FileName} {st st' : Client} {event : Event}

/-- The send worker has recorded a failure when it has written the record. -/
theorem Taken.recording (htaken : Taken cfg st event st') {failure : FileName × ServerName}
    (hwas : st.send.recording = some failure) (hnot : st'.send.recording ≠ some failure) :
    ∃ cur retryable val, event = .sendSet ∧ st.send = .setting cur retryable val ∧
      failure = (cur.fileName, cur.serv) := by
  cases htaken with
  | @sendSet cur retryable val hsend =>
    rw [hsend] at hwas
    cases hwas
    exact ⟨cur, retryable, val, rfl, hsend, rfl⟩
  | takeFile hsend | acceptSend hsend | sendCopy hsend | sendRetry hsend | sendClear hsend
  | answerSend hphase hsend =>
    rw [hsend] at hwas
    cases hwas
  | sendGet hsend =>
    rw [hsend] at hwas
    exact absurd hwas hnot
  | _ => exact absurd hwas hnot

variable {fileName : FileName} {val : List ServerName} {serv : ServerName} {cur : SendLoop}
  {retryable : Bool}

/-- A failure comes to be recorded only where the send worker writes the record. -/
theorem Taken.failed (htaken : Taken cfg st event st') (hasked : AskedOnce cfg arrived st)
    (hawaited : AnswersAwaited st) (h : Failed st' fileName serv) :
    Failed st fileName serv ∨ ∃ cur retryable val, event = .sendSet ∧
      st.send = .setting cur retryable val ∧ fileName = cur.fileName ∧ serv = cur.serv := by
  obtain ⟨hfailing, hnot⟩ := h
  by_cases hwas : st.send.recording = some (fileName, serv)
  · obtain ⟨cur, retryable, val, hevent, hsend, heq⟩ := htaken.recording hwas hnot
    cases heq
    exact .inr ⟨cur, retryable, val, hevent, hsend, rfl, rfl⟩
  · left
    refine ⟨?_, hwas⟩
    rcases htaken.answered hawaited with hsame | ⟨cur, resp, hsend, hsend', _, _, hanswers⟩ |
      ⟨at_, held, resp, hretry, _, _, _, hanswers⟩
    · rw [Failing, hsame] at hfailing
      exact hfailing
    · rw [Failing, hanswers] at hfailing
      by_cases heq : (fileName, serv) = (cur.fileName, cur.serv)
      · cases heq
        obtain ⟨retryable, hlast⟩ := hfailing
        rw [lastAnswer_cons_self] at hlast
        cases hlast
        rw [hsend'] at hnot
        exact absurd rfl hnot
      · rw [lastAnswer_cons_other _ _ heq] at hfailing
        exact hfailing
    · rw [Failing, hanswers] at hfailing
      by_cases heq : (fileName, serv) = (held, at_)
      · cases heq
        exact hasked.toRetry fileName serv (.inr (by rw [hretry]; rfl))
      · rw [lastAnswer_cons_other _ _ heq] at hfailing
        exact hfailing

/-- No retry worker is about to write where an undisturbed send worker writes. -/
theorem not_writing_of_not_disturbs (hnot : ¬ Disturbs st .sendSet)
    (hsend : st.send = .setting cur retryable val) (serv : ServerName) (val' : List ServerName) :
    st.retry serv ≠ .writing cur.fileName val' :=
  fun hwriting => hnot ⟨cur, retryable, val, hsend, .inl ⟨serv, val', hwriting⟩⟩

/-- An added server is in the list. -/
theorem mem_withServer_self (serv : ServerName) (val : List ServerName) :
    serv ∈ withServer serv val := by
  rw [withServer]
  split_ifs with hmem
  · exact hmem
  · exact List.mem_cons_self

/-- The servers before it stay. -/
theorem mem_withServer_of_mem (added : ServerName) (h : serv ∈ val) :
    serv ∈ withServer added val := by
  rw [withServer]
  split_ifs
  · exact h
  · exact List.mem_cons_of_mem _ h

/-- A retry worker is about to write what it was about to write, or the record without its
server. -/
theorem Taken.writing (htaken : Taken cfg st event st') {at_ : ServerName}
    (h : st'.retry at_ = .writing fileName val) :
    st.retry at_ = .writing fileName val ∨ (st.retry at_ = .getting fileName ∧
      event = .retryGet at_ ∧ val = (st.db fileName).filter (· ≠ at_)) := by
  have hother : ∀ serv phase, st'.retry = Function.update st.retry serv phase →
      phase ≠ .writing fileName val → st.retry at_ = .writing fileName val := by
    intro serv phase hretry hphase
    rw [hretry] at h
    by_cases heq : at_ = serv
    · subst heq
      rw [Function.update_self] at h
      exact absurd h hphase
    · rwa [Function.update_of_ne heq] at h
  cases htaken with
  | acceptRetry | takeRetry | requeueRetry | retryMissing | retryClear =>
    refine .inl (hother _ _ rfl ?_)
    simp
  | retryWrite =>
    refine .inl (hother _ _ rfl ?_)
    split_ifs <;> simp
  | @answerRetry serv answered held resp =>
    refine .inl (hother serv (retryAnswered held resp) rfl ?_)
    cases resp with
    | success => simp [retryAnswered]
    | failure retryable => cases retryable <;> simp [retryAnswered]
  | @retryGet serv held hretry hrecord =>
    by_cases heq : at_ = serv
    · subst heq
      simp only [Client.setRetry, Function.update_self] at h
      obtain ⟨rfl, rfl⟩ := h
      exact .inr ⟨hretry, rfl, rfl⟩
    · simp only [Client.setRetry, Function.update_of_ne heq] at h
      exact .inl h
  | _ => exact .inl h

/-- The send worker is about to write what it was about to write, or the record with its
server. -/
theorem Taken.setting (htaken : Taken cfg st event st')
    (h : st'.send = .setting cur retryable val) :
    event ≠ .sendSet ∧ (st.send = .setting cur retryable val ∨
      val = withServer cur.serv (st.db cur.fileName)) := by
  have hnext : ∀ fileName rest failed, sendNext fileName rest failed ≠
      .setting cur retryable val := by
    intro fileName rest failed
    cases rest <;> simp [sendNext]
  have hfailed : ∀ held again, sendFailed held again ≠ .setting cur retryable val := by
    intro held again
    cases again with
    | true => simp [sendFailed]
    | false => exact hnext _ _ _
  cases htaken with
  | takeFile | sendRetry => exact absurd h (hnext _ _ _)
  | acceptSend | sendClear => cases h
  | @answerSend at_ answered resp =>
    cases resp with
    | success => exact absurd h (hnext _ _ _)
    | failure again => cases h
  | sendGet =>
    cases h
    exact ⟨by simp, .inr rfl⟩
  | @sendSet held again =>
    by_cases hheld : held.failed
    · simp only [hheld] at h
      exact absurd h (hfailed held again)
    · simp only [hheld] at h
      cases h
  | sendCopy => exact absurd h (hfailed _ _)
  | _ => exact ⟨by simp, .inl h⟩

section

variable (h : Recorded st) (hasked : AskedOnce cfg arrived st) (hawaited : AnswersAwaited st)
  (htaken : Taken cfg st event st')
include h hasked hawaited htaken

/-- A failure stays in the database. -/
theorem Recorded.recorded_step (fileName : FileName) (serv : ServerName)
    (hfailed : Failed st' fileName serv) : serv ∈ st'.db fileName := by
  rcases htaken.failed hasked hawaited hfailed with hwas | ⟨cur, retryable, val, rfl, hsend, rfl, rfl⟩
  · have hmem := h.recorded fileName serv hwas
    cases htaken with
    | @sendSet cur retryable val hsend =>
      by_cases heq : fileName = cur.fileName
      · subst heq
        simp only [Function.update_self]
        exact (h.setting cur retryable val hsend).2 serv hwas
      · simp only [Function.update_of_ne heq]
        exact hmem
    | @retryWrite at_ held val hretry =>
      by_cases heq : fileName = held
      · subst heq
        simp only [Function.update_self]
        exact h.writing fileName serv at_ val hwas hretry
      · simp only [Function.update_of_ne heq]
        exact hmem
    | _ => exact hmem
  · cases htaken with
    | @sendSet cur' retryable' val' hsend' =>
      rw [hsend] at hsend'
      cases hsend'
      simp only [Function.update_self]
      exact (h.setting cur retryable val hsend).1

/-- A worker that writes a list back writes every failure. -/
theorem Recorded.writing_step (hnot : ¬ Disturbs st event) (fileName : FileName)
    (serv at_ : ServerName) (val : List ServerName)
    (hfailed : Failed st' fileName serv) (hwriting : st'.retry at_ = .writing fileName val) :
    serv ∈ val := by
  rcases htaken.failed hasked hawaited hfailed with hwas | ⟨cur, retryable, new, rfl, hsend, rfl, rfl⟩
  · rcases htaken.writing hwriting with hwriting | ⟨hgot, _, rfl⟩
    · exact h.writing fileName serv at_ val hwas hwriting
    · have hne : serv ≠ at_ := by
        rintro rfl
        exact hasked.got fileName serv hgot hwas.1
      simp [h.recorded fileName serv hwas, hne]
  · rcases htaken.writing hwriting with hwriting | ⟨_, hevent, _⟩
    · exact absurd hwriting (not_writing_of_not_disturbs hnot hsend at_ val)
    · cases hevent

/-- So does the send worker. -/
theorem Recorded.setting_step (cur : SendLoop) (retryable : Bool) (val : List ServerName)
    (hsend' : st'.send = .setting cur retryable val) :
    cur.serv ∈ val ∧ ∀ serv, Failed st' cur.fileName serv → serv ∈ val := by
  obtain ⟨hevent, hsetting⟩ := htaken.setting hsend'
  have hfailed : ∀ serv, Failed st' cur.fileName serv → Failed st cur.fileName serv := by
    intro serv hfailed
    rcases htaken.failed hasked hawaited hfailed with hwas | ⟨_, _, _, hset, _⟩
    · exact hwas
    · exact absurd hset hevent
  rcases hsetting with hsend | rfl
  · have hwas := h.setting cur retryable val hsend
    exact ⟨hwas.1, fun serv hserv => hwas.2 serv (hfailed serv hserv)⟩
  · refine ⟨mem_withServer_self _ _, fun serv hserv => ?_⟩
    exact mem_withServer_of_mem _ (h.recorded cur.fileName serv (hfailed serv hserv))

/-- A step that disturbs nobody keeps the failures recorded. -/
theorem Recorded.step (hnot : ¬ Disturbs st event) : Recorded st' where
  recorded := h.recorded_step hasked hawaited htaken
  writing := h.writing_step hasked hawaited htaken hnot
  setting := h.setting_step hasked hawaited htaken

end

/-! ## Copies -/

/-- A file that nobody has touched is in its source. -/
theorem Copied.untouched_step (h : Copied arrived st) (hsent : SentOnce arrived st)
    (hasked : AskedOnce cfg arrived st) (htaken : Taken cfg st event st')
    (hfresh : ∀ fileName, event = .arrive fileName → fileName ∉ arrived) (fileName : FileName)
    (huntouched : Untouched (arrivedAfter arrived event) st' fileName) :
    ¬ Queued st' (.error fileName) := by
  have hwas := htaken.untouched hsent hfresh huntouched
  intro hqueued
  rcases htaken.queued hqueued with hqueued | ⟨_, _, _, heq⟩ | ⟨serv, held, _, hretry, heq⟩
  · exact h.untouched fileName hwas hqueued
  · cases heq
  · cases heq
    exact hasked.toPass fileName serv (.inl hwas) (.inr (by rw [hretry]; rfl))

/-- A file comes to be completed when its record is found empty, or left empty. -/
theorem Taken.completed (htaken : Taken cfg st event st') (h : Completed st' fileName) :
    Completed st fileName ∨
      (∃ serv, st.retry serv = .getting fileName ∧ st.db fileName = []) ∨
      ∃ serv, st.retry serv = .writing fileName [] := by
  rcases h with hqueued | ⟨at_, hclearing⟩
  · left
    rcases htaken.queued hqueued with hqueued | ⟨_, _, _, heq⟩ | ⟨serv, held, _, hretry, heq⟩
    · exact .inl hqueued
    · cases heq
    · cases heq
      exact .inr ⟨serv, hretry⟩
  · have hother : ∀ serv phase, st'.retry = Function.update st.retry serv phase →
        phase ≠ .clearing fileName → Completed st fileName := by
      intro serv phase hretry hphase
      rw [hretry] at hclearing
      by_cases heq : at_ = serv
      · subst heq
        rw [Function.update_self] at hclearing
        exact absurd hclearing hphase
      · rw [Function.update_of_ne heq] at hclearing
        exact .inr ⟨at_, hclearing⟩
    cases htaken with
    | acceptRetry | takeRetry | requeueRetry | retryGet | retryClear =>
      refine .inl (hother _ _ rfl ?_)
      simp
    | @answerRetry serv answered held resp =>
      refine .inl (hother serv (retryAnswered held resp) rfl ?_)
      cases resp with
      | success => simp [retryAnswered]
      | failure retryable => cases retryable <;> simp [retryAnswered]
    | @retryMissing serv held hretry hrecord =>
      by_cases heq : held = fileName
      · subst heq
        exact .inr (.inl ⟨serv, hretry, hrecord⟩)
      · refine .inl (hother _ _ rfl ?_)
        simpa using heq
    | @retryWrite serv held val hretry =>
      by_cases heq : held = fileName ∧ val = []
      · obtain ⟨rfl, rfl⟩ := heq
        exact .inr (.inr ⟨serv, hretry⟩)
      · refine .inl (hother _ _ rfl ?_)
        split_ifs with hval
        · have hne : held ≠ fileName := fun hheld => heq ⟨hheld, hval⟩
          simpa using hne
        · simp
    | _ => exact .inl (.inr ⟨at_, hclearing⟩)

/-- A copy stays where its file is not completed. -/
theorem Taken.errorDir (htaken : Taken cfg st event st') (hnot : ¬ Completed st fileName)
    (h : st.errorDir fileName = true ∨ st.send.copies = some fileName) :
    st'.errorDir fileName = true ∨ st'.send.copies = some fileName := by
  cases htaken with
  | @removeError removed hclear =>
    have hne : fileName ≠ removed := by
      rintro rfl
      exact hnot (.inl (.inr (.inl hclear)))
    simp only [Function.update_of_ne hne]
    exact h
  | @sendCopy cur retryable hsend =>
    left
    by_cases heq : fileName = cur.fileName
    · subst heq
      simp
    · simp only [Function.update_of_ne heq]
      rcases h with hcopied | hcopies
      · exact hcopied
      · rw [hsend] at hcopies
        cases hcopies
        exact absurd rfl heq
  | takeFile hsend | acceptSend hsend | sendGet hsend | sendSet hsend | sendRetry hsend
  | sendClear hsend =>
    rw [hsend] at h
    exact .inl (h.resolve_right (by simp [SendPhase.copies]))
  | answerSend hphase hsend =>
    rw [hsend] at h
    exact .inl (h.resolve_right (by simp [SendPhase.copies]))
  | _ => exact h

/-- A file that failed has a copy to send. -/
theorem Copied.copied_step (h : Copied arrived st)
    (hasked : AskedOnce cfg arrived st) (hrecorded : Recorded st) (hawaited : AnswersAwaited st)
    (htaken : Taken cfg st event st') (hnot : ¬ Disturbs st event) (fileName : FileName)
    (serv : ServerName) (hfailed : Failed st' fileName serv) :
    ¬ Completed st' fileName ∧
      (st'.errorDir fileName = true ∨ st'.send.copies = some fileName) := by
  rcases htaken.failed hasked hawaited hfailed with hwas | ⟨cur, retryable, val, rfl, hsend, rfl, rfl⟩
  · obtain ⟨hopen, hcopy⟩ := h.copied fileName serv hwas
    refine ⟨fun hcompleted => ?_, htaken.errorDir hopen hcopy⟩
    rcases htaken.completed hcompleted with hcompleted | ⟨at_, _, hrecord⟩ | ⟨at_, hwriting⟩
    · exact hopen hcompleted
    · have hmem := hrecorded.recorded fileName serv hwas
      rw [hrecord] at hmem
      cases hmem
    · have hmem := hrecorded.writing fileName serv at_ [] hwas hwriting
      cases hmem
  · cases htaken with
    | @sendSet cur' retryable' val' hsend' =>
      rw [hsend] at hsend'
      cases hsend'
      by_cases hfailure : cur.failed = true
      · have hkept : ¬ (Completed st cur.fileName ∨ st.errorDir cur.fileName = false) :=
          fun hlost => hnot ⟨cur, retryable, val, hsend, .inr ⟨hfailure, hlost⟩⟩
        rw [not_or, Bool.not_eq_false] at hkept
        exact ⟨hkept.1, .inl hkept.2⟩
      · have huntouched : Untouched arrived st cur.fileName := by
          right
          rw [hsend]
          simp [SendPhase.unfailed, hfailure]
        refine ⟨?_, .inr ?_⟩
        · rintro (hqueued | ⟨at_, hclearing⟩)
          · exact h.untouched _ huntouched hqueued
          · have hclearing : st.retry at_ = .clearing cur.fileName := hclearing
            exact hasked.toPass _ at_ (.inl huntouched) (.inr (by rw [hclearing]; rfl))
        · simp [hfailure, SendPhase.copies]

/-- A step that disturbs nobody keeps the copies. -/
theorem Copied.step (h : Copied arrived st) (hsent : SentOnce arrived st)
    (hasked : AskedOnce cfg arrived st) (hrecorded : Recorded st) (hawaited : AnswersAwaited st)
    (htaken : Taken cfg st event st')
    (hfresh : ∀ fileName, event = .arrive fileName → fileName ∉ arrived)
    (hnot : ¬ Disturbs st event) : Copied (arrivedAfter arrived event) st' where
  untouched := h.untouched_step hsent hasked htaken hfresh
  copied := h.copied_step hasked hrecorded hawaited htaken hnot

end Kept

/-! ## Runs -/

/-- The files that arrive in a run, the last one first. -/
def arrivals (events : List Event) : List FileName := events.foldl arrivedAfter []

/-- In no step that the run takes the send worker is disturbed. -/
def Undisturbed (cfg : ClientConfig) (connected : ServerName → Bool) (events : List Event) :
    Prop :=
  ∀ before event, before ++ [event] <+: events → ∀ st, run cfg connected before = some st →
    ¬ Disturbs st event

/-- A file that is in neither directory has been transferred to every server, and failures
that have been recorded stay so until the next answer. -/
def KeepsFiles (cfg : ClientConfig) (arrived : List FileName) (st : Client) : Prop :=
  (∀ fileName ∈ arrived, st.sourceDir fileName = false → st.errorDir fileName = false →
    ∀ serv ∈ cfg.connectedServers, (fileName, serv, .success) ∈ st.answers) ∧
  ∀ fileName serv, Failed st fileName serv → serv ∈ st.db fileName

/-- What holds after a run that is never disturbed. -/
structure Kept (cfg : ClientConfig) (arrived : List FileName) (st : Client) : Prop where
  awaited : AnswersAwaited st
  sent : SentOnce arrived st
  asked : AskedOnce cfg arrived st
  recorded : Recorded st
  copied : Copied arrived st

/-- A failure is recorded of the file that the send worker has. -/
theorem file_of_recording {st : Client} {fileName : FileName} {serv : ServerName}
    (h : st.send.recording = some (fileName, serv)) : st.send.file = some fileName := by
  cases hsend : st.send with
  | getting | setting =>
    rw [hsend] at h
    cases h
    rfl
  | idle | requesting | awaiting | copying | queueing | clearing =>
    rw [hsend] at h
    cases h

/-- What is kept holds every file that is still owed. -/
theorem Kept.keepsFiles {cfg : ClientConfig} {arrived : List FileName} {st : Client}
    (h : Kept cfg arrived st) : KeepsFiles cfg arrived st := by
  refine ⟨fun fileName harrived hsource herror serv hserv => ?_, h.recorded.recorded⟩
  obtain ⟨hbegun, hfile⟩ := h.sent.removed fileName harrived hsource
  have hfailing : ¬ Failing st fileName serv := by
    intro hfailing
    have hrecording : st.send.recording ≠ some (fileName, serv) :=
      fun hrecording => hfile (file_of_recording hrecording)
    obtain ⟨_, hcopy⟩ := h.copied.copied fileName serv ⟨hfailing, hrecording⟩
    rcases hcopy with hcopied | hcopies
    · rw [herror] at hcopied
      cases hcopied
    · apply hfile
      cases hsend : st.send with
      | copying cur =>
        rw [hsend] at hcopies
        exact hcopies
      | _ =>
        rw [hsend] at hcopies
        cases hcopies
  rcases h.asked.asked fileName hbegun serv hserv with (hnew | ⟨hask, _⟩) | hanswered
  · exact absurd hbegun hnew
  · exact absurd hask hfile
  · obtain ⟨resp, hlast⟩ := Option.ne_none_iff_exists'.1 hanswered
    cases resp with
    | success => exact mem_of_lastAnswer hlast
    | failure retryable => exact absurd ⟨retryable, hlast⟩ hfailing

/-- At the start there is no file. -/
theorem kept_started (cfg : ClientConfig) (connected : ServerName → Bool) :
    Kept cfg [] (started connected) where
  awaited := answersAwaited_started connected
  sent := sentOnce_started connected
  asked := askedOnce_started connected
  recorded := recorded_started connected
  copied := copied_started connected

/-- A step that disturbs nobody keeps the files. -/
theorem Kept.step {cfg : ClientConfig} {arrived : List FileName} {st st' : Client}
    {event : Event} (h : Kept cfg arrived st) (htaken : Taken cfg st event st')
    (hfresh : ∀ fileName, event = .arrive fileName → fileName ∉ arrived)
    (hnot : ¬ Disturbs st event) : Kept cfg (arrivedAfter arrived event) st' where
  awaited := h.awaited.step htaken
  sent := h.sent.step htaken hfresh
  asked := h.asked.step h.sent h.awaited htaken hfresh
  recorded := h.recorded.step h.asked h.awaited htaken hnot
  copied := h.copied.step h.sent h.asked h.recorded h.awaited htaken hfresh hnot

/-- One more event may be one more arrival. -/
theorem arrivals_concat (before : List Event) (event : Event) :
    arrivals (before ++ [event]) = arrivedAfter (arrivals before) event := by
  simp [arrivals]

/-- Where files have distinct names, a file that arrives has not arrived before. -/
theorem not_mem_arrivals {before : List Event} {event : Event}
    (hdistinct : (arrivals (before ++ [event])).Nodup) :
    (arrivals before).Nodup ∧ ∀ fileName, event = .arrive fileName → fileName ∉ arrivals before := by
  rw [arrivals_concat] at hdistinct
  cases event with
  | arrive fresh =>
    have hcons := List.nodup_cons.1 hdistinct
    refine ⟨hcons.2, fun fileName heq => ?_⟩
    cases heq
    exact hcons.1
  | _ =>
    refine ⟨hdistinct, fun fileName heq => ?_⟩
    cases heq

/-- An undisturbed run keeps its files. -/
theorem kept_of_run {cfg : ClientConfig} {connected : ServerName → Bool} {events : List Event}
    (hundisturbed : Undisturbed cfg connected events) (hdistinct : (arrivals events).Nodup)
    {st : Client} (hrun : run cfg connected events = some st) : Kept cfg (arrivals events) st := by
  induction events using List.reverseRecOn generalizing st with
  | nil =>
    cases hrun
    exact kept_started cfg connected
  | append_singleton before event ih =>
    obtain ⟨mid, hmid, htaken⟩ := of_run_concat hrun
    obtain ⟨hbefore, hfresh⟩ := not_mem_arrivals hdistinct
    have hmidKept := ih (fun before' event' hfirst =>
      hundisturbed before' event' (hfirst.trans (List.prefix_append before [event]))) hbefore hmid
    rw [arrivals_concat]
    exact hmidKept.step htaken hfresh (hundisturbed before event List.prefix_rfl mid hmid)

/-- The arrivals so far are distinct. -/
theorem nodup_arrivals_of_append {before rest : List Event}
    (hdistinct : (arrivals (before ++ rest)).Nodup) : (arrivals before).Nodup := by
  induction rest using List.reverseRecOn with
  | nil =>
    rw [List.append_nil] at hdistinct
    exact hdistinct
  | append_singleton rest event ih =>
    rw [← List.append_assoc] at hdistinct
    exact ih (not_mem_arrivals hdistinct).1

/-- After no prefix of the run a file is lost, or a failure. -/
def NeverLoses (cfg : ClientConfig) (connected : ServerName → Bool) (events : List Event) :
    Prop :=
  ∀ before, before <+: events → ∀ st, run cfg connected before = some st →
    KeepsFiles cfg (arrivals before) st

/-- A client whose send worker is never disturbed keeps every file until all servers have
it, and every failure in the database. -/
theorem neverLoses_of_undisturbed (cfg : ClientConfig) (connected : ServerName → Bool)
    (events : List Event) (hdistinct : (arrivals events).Nodup)
    (hundisturbed : Undisturbed cfg connected events) : NeverLoses cfg connected events := by
  intro before hfirst st hrun
  have hbefore : Undisturbed cfg connected before := fun before' event' hfirst' =>
    hundisturbed before' event' (hfirst'.trans hfirst)
  obtain ⟨rest, rfl⟩ := hfirst
  exact (kept_of_run hbefore (nodup_arrivals_of_append hdistinct) hrun).keepsFiles

/-- A client with two servers. -/
def twoServers : ClientConfig where
  connectedServers := ["east", "west"]
  nodup := by decide
  bufSz := 10
  bufSz_pos := by decide
  retryLimit := 10

/-- The first server fails and the file waits for a retry. -/
def failsAtEast : List Event :=
  [.arrive "data", .takeFile "data", .acceptSend "east", .handled "east" (.failure true),
    .answer "east", .sendGet, .sendSet, .sendCopy, .sendRetry]

/-- The second server has the file, and it is cleared. -/
def passesWest : List Event :=
  [.acceptSend "west", .handled "west" .success, .answer "west", .sendClear, .takeClear,
    .remove false]

theorem neverLoses_passesWest :
    NeverLoses twoServers (fun _ => true) (failsAtEast ++ passesWest) := by
  refine neverLoses_of_undisturbed _ _ _ (by decide) ?_
  intro before event hfirst st hrun hdisturbs
  cases event with
  | sendSet =>
    have hlast : (failsAtEast ++ passesWest)[before.length]? = some .sendSet := by
      obtain ⟨rest, hrest⟩ := hfirst
      rw [← hrest]
      simp
    have hbefore : before = (failsAtEast ++ passesWest).take before.length := by
      rw [← List.prefix_iff_eq_take]
      exact (List.prefix_append before _).trans hfirst
    have honly : ∀ n < (failsAtEast ++ passesWest).length,
        (failsAtEast ++ passesWest)[n]? = some .sendSet → n = 6 := by decide
    rw [honly _ (List.getElem?_eq_some_iff.1 hlast).1 hlast] at hbefore
    subst hbefore
    cases hrun
    obtain ⟨cur, retryable, val, hsend, hbad⟩ := hdisturbs
    cases hsend
    rcases hbad with ⟨serv, val', hwriting⟩ | ⟨hfailed, _⟩
    · cases hwriting
    · cases hfailed
  | _ => exact hdisturbs

/-- The retry succeeds and the copy is cleared while the second server is still to be asked,
and then fails. -/
def retriedTooSoon : List Event :=
  failsAtEast ++
    [.takeRetry "east", .acceptRetry "east", .handled "east" .success, .answer "east",
      .retryGet "east", .retryWrite "east", .retryClear "east", .takeClear, .remove false,
      .acceptSend "west", .handled "west" (.failure true), .answer "west", .sendGet, .sendSet,
      .sendRetry, .sendClear, .takeClear, .remove false]

/-- A retry that comes too soon loses the file. -/
theorem retriedTooSoon_loses :
    (arrivals retriedTooSoon).Nodup ∧ ¬ NeverLoses twoServers (fun _ => true) retriedTooSoon := by
  refine ⟨by decide, fun h => ?_⟩
  have hlost : ((run twoServers (fun _ => true) retriedTooSoon).any fun st =>
      !st.sourceDir "data" && !st.errorDir "data" &&
        !decide (("data", "west", Answer.success) ∈ st.answers)) = true := by decide
  obtain ⟨st, hrun, hst⟩ := (Option.any_eq_true _ _).1 hlost
  simp only [Bool.and_eq_true, Bool.not_eq_true', decide_eq_false_iff_not] at hst
  exact hst.2 ((h _ List.prefix_rfl st hrun).1 "data" (by decide) hst.1.1 hst.1.2 "west" (by decide))

/-! ## Disturbed or not -/

section Answered

variable {cfg : ClientConfig} {st st' : Client}

/-- No answer about a file follows a success of the same server. -/
def SuccessLast (answers : List (FileName × ServerName × Answer)) : Prop :=
  answers.Pairwise fun later earlier =>
    later.1 = earlier.1 → later.2.1 = earlier.2.1 → earlier.2.2 ≠ .success

/-- An answer about a file not taken yet leaves a success last. -/
theorem SuccessLast.cons {answers : List (FileName × ServerName × Answer)} {fileName : FileName}
    {serv : ServerName} (h : SuccessLast answers)
    (hlast : lastAnswer answers fileName serv ≠ some .success) (resp : Answer) :
    SuccessLast ((fileName, serv, resp) :: answers) := by
  refine List.pairwise_cons.2 ⟨?_, h⟩
  induction answers with
  | nil => simp
  | cons answer rest ih =>
    obtain ⟨hhead, hrest⟩ := List.pairwise_cons.1 h
    by_cases hkey : answer.1 = fileName ∧ answer.2.1 = serv
    · obtain ⟨rfl, rfl⟩ := hkey
      rw [lastAnswer_cons_self] at hlast
      exact List.forall_mem_cons.2 ⟨fun _ _ heq => hlast (congrArg some heq), hhead⟩
    · rw [lastAnswer, if_neg hkey] at hlast
      exact List.forall_mem_cons.2 ⟨fun hfile hserv => absurd ⟨hfile.symm, hserv.symm⟩ hkey,
        ih hrest hlast⟩

/-- What holds of the answers in every run. -/
structure Answered (cfg : ClientConfig) (arrived : List FileName) (st : Client) : Prop where
  awaited : AnswersAwaited st
  sent : SentOnce arrived st
  asked : AskedOnce cfg arrived st
  successLast : SuccessLast st.answers

/-- No step answers about a file again once it is taken. -/
theorem Answered.successLast_step {arrived : List FileName} {event : Event}
    (h : Answered cfg arrived st) (htaken : Taken cfg st event st') : SuccessLast st'.answers := by
  rcases htaken.answered h.awaited with hsame | ⟨cur, resp, hsend, _, _, _, hanswers⟩ |
    ⟨serv, fileName, resp, hretry, _, _, _, hanswers⟩
  · rw [hsame]
    exact h.successLast
  · rw [hanswers]
    refine h.successLast.cons ?_ resp
    rw [h.asked.toAsk _ _ (.inr (by simp [hsend, SendPhase.file, SendPhase.toAsk]))]
    simp
  · rw [hanswers]
    refine h.successLast.cons ?_ resp
    obtain ⟨retryable, hfailed⟩ := h.asked.toRetry fileName serv (.inr (by rw [hretry]; rfl))
    rw [hfailed]
    simp

variable {connected : ServerName → Bool} {events : List Event}
  (hdistinct : (arrivals events).Nodup) (hrun : run cfg connected events = some st)
include hdistinct hrun

/-- Along every run the answers are as the workers asked. -/
theorem answered_of_run : Answered cfg (arrivals events) st := by
  induction events using List.reverseRecOn generalizing st with
  | nil =>
    cases hrun
    exact ⟨answersAwaited_started _, sentOnce_started _, askedOnce_started _, .nil⟩
  | append_singleton before event ih =>
    obtain ⟨mid, hmid, htaken⟩ := of_run_concat hrun
    obtain ⟨hbefore, hfresh⟩ := not_mem_arrivals hdistinct
    have h := ih hbefore hmid
    rw [arrivals_concat]
    exact ⟨h.awaited.step htaken, h.sent.step htaken hfresh,
      h.asked.step h.sent h.awaited htaken hfresh, h.successLast_step htaken⟩

end Answered

end HybridOs.CloudSync
