import HybridOs.CloudSyncStartRuns

/-!
# Failures that are queued again after a restart

The files of the error directory go to the retry queues of the servers in their records. The
files are filtered by the extension of the source directory, or of the archives in tar mode:
in untar mode the unpacked files that were sent do not have it.
-/

namespace HybridOs.CloudSync

/-- What is done with a file of the error directory. -/
inductive Recovered where
  /-- It is put into the retry queue of a server. -/
  | retry (serv : ServerName) (fileName : FileName)
  /-- It is moved back, to be sent to all servers. -/
  | moved (fileName : FileName)
  /-- It is put into the queue of packed files. -/
  | tarQueued (fileName : FileName)
  deriving DecidableEq, Repr

/-- What the goroutine of `sortFailures` has done, and whether it is blocked for ever. -/
structure Recovery where
  done : List Recovered
  blocked : Bool
  deriving DecidableEq, Repr

/-- The retries of a file for a map of servers, in the order in which they come. There is no
retry queue of a server that is not connected. -/
def retryRecorded (connected : List ServerName) (fileName : FileName) :
    List (ServerName × Bool) → Recovery
  | [] => ⟨[], false⟩
  | (serverName, alreadySuccessfullySent) :: rest =>
    if alreadySuccessfullySent then ⟨[], false⟩
    else if serverName ∈ connected then
      ⟨.retry serverName fileName :: (retryRecorded connected fileName rest).done,
        (retryRecorded connected fileName rest).blocked⟩
    else ⟨[], true⟩

/-- `sendExt`. -/
def SourceConfig.sendExt (cfg : SourceConfig) : String :=
  match cfg.mode with
  | .tar => metaArchiveExtension
  | _ => cfg.ext

/-- What is done with one file of the error directory. -/
def addFileToRetryFromError (cfg : SourceConfig) (connected : List ServerName)
    (db : FileName → Option (List (ServerName × Bool))) (fileName : FileName) : Recovery :=
  if contains fileName cfg.sendExt then
    match db fileName with
    | none =>
      if cfg.mode = .tar ∧ hasSuffix fileName metaArchiveExtension then
        ⟨[.moved fileName, .tarQueued fileName], false⟩
      else ⟨[.moved fileName], false⟩
    | some failedServersMap => retryRecorded connected fileName failedServersMap
  else ⟨[], false⟩

/-- What is done with the files of the error directory, one after the other. -/
def sortFailures (cfg : SourceConfig) (connected : List ServerName)
    (db : FileName → Option (List (ServerName × Bool))) : List FileName → Recovery
  | [] => ⟨[], false⟩
  | fileName :: rest =>
    let first := addFileToRetryFromError cfg connected db fileName
    if first.blocked then first
    else
      ⟨first.done ++ (sortFailures cfg connected db rest).done,
        (sortFailures cfg connected db rest).blocked⟩

/-- The extension of the files that are sent, and that come to the error directory. -/
def SourceConfig.sentExtension (cfg : SourceConfig) : String :=
  match cfg.mode with
  | .default => cfg.ext
  | .tar => metaArchiveExtension
  | .untar => cfg.extractedExtension

/-- What the client left behind: files that it sent, and records of connected servers that are
still to get them. -/
structure Leftover (cfg : SourceConfig) (connected : List ServerName) where
  errorDir : List FileName
  errorDir_nodup : errorDir.Nodup
  db : FileName → Option (List (ServerName × Bool))
  sent : ∀ fileName ∈ errorDir, hasSuffix fileName cfg.sentExtension = true
  servers_nodup : ∀ fileName failed, db fileName = some failed → (failed.map Prod.fst).Nodup
  servers : ∀ fileName failed, db fileName = some failed →
    ∀ entry ∈ failed, entry.2 = false ∧ entry.1 ∈ connected

section Recovery
variable {cfg : SourceConfig} {connected : List ServerName}

/-- The server is recorded as failed for the file. -/
def Leftover.Failed (left : Leftover cfg connected) (fileName : FileName) (serv : ServerName) :
    Prop :=
  ∃ failed, left.db fileName = some failed ∧ (serv, false) ∈ failed

/-- Every file of the error directory is queued once for the servers that are recorded for it,
and for no other. -/
def Recovers (left : Leftover cfg connected) : Prop :=
  (sortFailures cfg connected left.db left.errorDir).blocked = false ∧
    ∀ fileName ∈ left.errorDir, ∀ serv,
      (left.Failed fileName serv → (sortFailures cfg connected left.db left.errorDir).done.count
        (.retry serv fileName) = 1) ∧
      (¬ left.Failed fileName serv → (sortFailures cfg connected left.db left.errorDir).done.count
        (.retry serv fileName) = 0)

/-- The files with failures have the extension that they are filtered by. -/
def Leftover.Found (left : Leftover cfg connected) : Prop :=
  ∀ fileName ∈ left.errorDir, (∃ serv, left.Failed fileName serv) →
    contains fileName cfg.sendExt = true

variable {fileName : FileName}

theorem retryRecorded_of_connected {failed : List (ServerName × Bool)}
    (h : ∀ entry ∈ failed, entry.2 = false ∧ entry.1 ∈ connected) :
    retryRecorded connected fileName failed =
      ⟨failed.map fun entry => .retry entry.1 fileName, false⟩ := by
  induction failed with
  | nil => rfl
  | cons first rest ih =>
    obtain ⟨serv, sent⟩ := first
    obtain ⟨hsent, hserv⟩ := h (serv, sent) List.mem_cons_self
    have hrest := ih fun entry hentry => h entry (List.mem_cons_of_mem _ hentry)
    simp only at hsent hserv
    subst hsent
    rw [retryRecorded, if_neg (by simp), if_pos hserv, hrest]
    rfl

theorem addFile_skipped {db : FileName → Option (List (ServerName × Bool))}
    (hext : ¬ contains fileName cfg.sendExt = true) :
    addFileToRetryFromError cfg connected db fileName = ⟨[], false⟩ := by
  rw [addFileToRetryFromError, if_neg hext]

/-- A file without a record is not retried. -/
theorem addFile_missing {db : FileName → Option (List (ServerName × Bool))}
    {fileName : FileName} (hdb : db fileName = none) :
    (addFileToRetryFromError cfg connected db fileName).blocked = false ∧
      ∀ serv other, .retry serv other ∉ (addFileToRetryFromError cfg connected db fileName).done := by
  simp only [addFileToRetryFromError, hdb]
  split_ifs <;> simp

variable (left : Leftover cfg connected)

/-- A file is retried for the servers in its record. -/
theorem Leftover.addFile_recorded (hext : contains fileName cfg.sendExt = true)
    {failed : List (ServerName × Bool)} (hdb : left.db fileName = some failed) :
    addFileToRetryFromError cfg connected left.db fileName =
      ⟨failed.map fun entry => .retry entry.1 fileName, false⟩ := by
  simp only [addFileToRetryFromError, if_pos hext, hdb]
  exact retryRecorded_of_connected (left.servers fileName failed hdb)

/-- What is done with one file that the client left behind. -/
def Leftover.recovered (left : Leftover cfg connected) (fileName : FileName) : List Recovered :=
  (addFileToRetryFromError cfg connected left.db fileName).done

theorem Leftover.not_blocked (fileName : FileName) :
    (addFileToRetryFromError cfg connected left.db fileName).blocked = false := by
  by_cases hext : contains fileName cfg.sendExt = true
  · cases hdb : left.db fileName with
    | none => exact (addFile_missing hdb).1
    | some failed => rw [left.addFile_recorded hext hdb]
  · rw [addFile_skipped hext]

theorem Leftover.sortFailures_eq (names : List FileName) :
    sortFailures cfg connected left.db names = ⟨names.flatMap left.recovered, false⟩ := by
  induction names with
  | nil => rfl
  | cons first rest ih =>
    rw [sortFailures, ih]
    simp [left.not_blocked, Leftover.recovered]

/-- A file is queued for the servers in its record, if it has the extension. -/
theorem Leftover.retry_mem_recovered_iff {other : FileName} {serv : ServerName} :
    .retry serv fileName ∈ left.recovered other ↔
      other = fileName ∧ contains fileName cfg.sendExt = true ∧ left.Failed fileName serv := by
  by_cases hext : contains other cfg.sendExt = true
  · cases hdb : left.db other with
    | none =>
      have hnot := (@addFile_missing cfg connected _ _ hdb).2
      refine ⟨fun hmem => absurd hmem (hnot serv fileName), ?_⟩
      rintro ⟨rfl, _, failed, hfailed, _⟩
      rw [hdb] at hfailed
      cases hfailed
    | some failed =>
      rw [Leftover.recovered, left.addFile_recorded hext hdb]
      constructor
      · intro hmem
        obtain ⟨entry, hentry, heq⟩ := List.mem_map.1 hmem
        cases heq
        refine ⟨rfl, hext, failed, hdb, ?_⟩
        rw [← (left.servers _ _ hdb entry hentry).1]
        exact hentry
      · rintro ⟨rfl, _, failed', hdb', hmem⟩
        rw [hdb] at hdb'
        cases hdb'
        exact List.mem_map.2 ⟨_, hmem, rfl⟩
  · rw [Leftover.recovered, addFile_skipped hext]
    constructor
    · intro hmem
      cases hmem
    · rintro ⟨rfl, hin, _⟩
      exact absurd hin hext

theorem Leftover.count_recovered_le (fileName : FileName) (serv : ServerName) :
    (left.recovered fileName).count (.retry serv fileName) ≤ 1 := by
  by_cases hext : contains fileName cfg.sendExt = true
  · cases hdb : left.db fileName with
    | none =>
      have hzero : (left.recovered fileName).count (.retry serv fileName) = 0 :=
        List.count_eq_zero.2 ((addFile_missing hdb).2 serv fileName)
      omega
    | some failed =>
      rw [Leftover.recovered, left.addFile_recorded hext hdb]
      refine List.nodup_iff_count_le_one.1 ?_ _
      have hnodup := left.servers_nodup fileName failed hdb
      have hmap : failed.map (fun entry => Recovered.retry entry.1 fileName) =
          (failed.map Prod.fst).map fun serv => Recovered.retry serv fileName := by
        rw [List.map_map]
        rfl
      rw [hmap]
      refine hnodup.map fun a b heq => ?_
      cases heq
      rfl
  · rw [Leftover.recovered, addFile_skipped hext]
    simp

/-- Among the files of the error directory each is dealt with once. -/
theorem Leftover.count_flatMap_recovered {names : List FileName} (hnodup : names.Nodup)
    (hmem : fileName ∈ names) (serv : ServerName) :
    (names.flatMap left.recovered).count (.retry serv fileName) =
      (left.recovered fileName).count (.retry serv fileName) := by
  have hother : ∀ rest : List FileName, fileName ∉ rest →
      (rest.flatMap left.recovered).count (.retry serv fileName) = 0 := by
    intro rest hnot
    refine List.count_eq_zero.2 fun hin => ?_
    obtain ⟨other, hother, hin⟩ := List.mem_flatMap.1 hin
    rw [left.retry_mem_recovered_iff] at hin
    exact hnot (hin.1 ▸ hother)
  induction names with
  | nil => cases hmem
  | cons first rest ih =>
    rw [List.nodup_cons] at hnodup
    rw [List.flatMap_cons, List.count_append]
    rcases List.mem_cons.1 hmem with rfl | hrest
    · rw [hother rest hnodup.1, Nat.add_zero]
    · have hne : first ≠ fileName := by
        rintro rfl
        exact hnodup.1 hrest
      have hzero : (left.recovered first).count (.retry serv fileName) = 0 :=
        List.count_eq_zero.2 fun hin => hne (left.retry_mem_recovered_iff.1 hin).1
      rw [hzero, Nat.zero_add]
      exact ih hnodup.2 hrest

/-- The files that the client left behind are recovered exactly where those with failures have
the extension that they are filtered by. -/
theorem Leftover.recovers_iff : Recovers left ↔ left.Found := by
  rw [Recovers, left.sortFailures_eq]
  constructor
  · rintro ⟨_, hcount⟩ fileName hmem ⟨serv, hfailed⟩
    have hone := (hcount fileName hmem serv).1 hfailed
    rw [left.count_flatMap_recovered left.errorDir_nodup hmem] at hone
    have hin : Recovered.retry serv fileName ∈ left.recovered fileName :=
      List.count_pos_iff.1 (by omega)
    exact (left.retry_mem_recovered_iff.1 hin).2.1
  · intro hfound
    refine ⟨rfl, fun fileName hmem serv => ?_⟩
    rw [left.count_flatMap_recovered left.errorDir_nodup hmem]
    constructor
    · intro hfailed
      have hin : Recovered.retry serv fileName ∈ left.recovered fileName :=
        left.retry_mem_recovered_iff.2 ⟨rfl, hfound fileName hmem ⟨serv, hfailed⟩, hfailed⟩
      have hpos := List.count_pos_iff.2 hin
      have hle := left.count_recovered_le fileName serv
      omega
    · intro hnot
      exact List.count_eq_zero.2 fun hin => hnot (left.retry_mem_recovered_iff.1 hin).2.2

end Recovery

/-! ## Starts and restarts -/

/-- Every file is queued once along the start, and the failures of the run before it are queued
again. -/
def StartsSound (cfg : SourceConfig) (host : Host) (events : List StartEvent)
    {connected : List ServerName} (left : Leftover cfg connected) : Prop :=
  (∀ before, before <+: events → ∀ st, startRun cfg host before = some st →
    QueuedOnce cfg host (dueFiles cfg host before) st) ∧ Recovers left

theorem nodup_arrivedFiles_of_append {before rest : List StartEvent}
    (hdistinct : (arrivedFiles (before ++ rest)).Nodup) : (arrivedFiles before).Nodup := by
  induction rest using List.reverseRecOn with
  | nil =>
    rw [List.append_nil] at hdistinct
    exact hdistinct
  | append_singleton rest event ih =>
    rw [← List.append_assoc, arrivedFiles_concat] at hdistinct
    exact ih hdistinct.of_append_right

/-- A start of distinct files no step of which slips is sound exactly where the files with
failures have the extension that they are filtered by. -/
theorem startsSound_iff (cfg : SourceConfig) (host : Host) (events : List StartEvent)
    {connected : List ServerName} (left : Leftover cfg connected)
    (hdistinct : (arrivedFiles events).Nodup) (hnever : NeverSlips cfg host events) :
    StartsSound cfg host events left ↔ left.Found := by
  rw [StartsSound, left.recovers_iff]
  refine and_iff_right fun before hfirst st hrun => ?_
  have hbefore : NeverSlips cfg host before := fun before' event' hfirst' =>
    hnever before' event' (hfirst'.trans hfirst)
  obtain ⟨rest, rfl⟩ := hfirst
  obtain ⟨hsteady, hsub⟩ := steady_of_startRun hbefore (nodup_arrivedFiles_of_append hdistinct) hrun
  exact queuedOnce_of_steady hsteady hsub

/-- A client that packs its files. -/
def packing : SourceConfig where
  mode := .tar
  configuredExt := ".csv"
  extractedExtension := ""
  untar_ext := by simp

/-- A host with one file in the source directory and one archive in the subdirectory. -/
def oneFileHost : Host where
  eventName := id
  modTime _ := 0
  directory := [⟨"old.csv", false⟩, ⟨"error", true⟩]
  directory_nodup := by decide
  subdirectory := [⟨"site_1.metatargz", false⟩]
  subdirectory_nodup := by decide

/-- One archive is left in the error directory. -/
def oneArchiveLeft : Leftover packing ["east", "west"] where
  errorDir := ["site_0.metatargz"]
  errorDir_nodup := by simp
  db fileName := if fileName = "site_0.metatargz" then some [("west", false)] else none
  sent := by decide
  servers_nodup := by
    intro fileName failed hdb
    split_ifs at hdb
    cases hdb
    simp
  servers := by
    intro fileName failed hdb
    split_ifs at hdb
    cases hdb
    simp

/-- A file arrives while the source directory is read, and its event is taken there. -/
def arrivesInTime : List StartEvent :=
  [.addWatch, .readSource, .moveIn ⟨"new.csv", false⟩, .receive, .noMoreNewFiles, .readSub,
    .noMoreNewFiles, .loadSource, .loadSub]

theorem neverSlips_nil (cfg : SourceConfig) (host : Host) : NeverSlips cfg host [] := by
  intro before event hfirst
  simp at hfirst

/-- One more step that does not slip. -/
theorem NeverSlips.concat {cfg : SourceConfig} {host : Host} {events : List StartEvent}
    (h : NeverSlips cfg host events) (event : StartEvent)
    (hnot : ∀ st, startRun cfg host events = some st → ¬ Slips cfg host st event) :
    NeverSlips cfg host (events ++ [event]) := by
  intro before last hfirst st hrun
  rcases List.prefix_concat_iff.1 hfirst with heq | hfirst
  · obtain ⟨rfl, hlast⟩ := List.append_inj' heq rfl
    cases hlast
    exact hnot st hrun
  · exact h before last hfirst st hrun

theorem neverSlips_arrivesInTime : NeverSlips packing oneFileHost arrivesInTime := by
  have hread := ((neverSlips_nil packing oneFileHost).concat .addWatch fun _ _ => id).concat
    .readSource fun _ _ => id
  have hmoved := hread.concat (.moveIn ⟨"new.csv", false⟩) fun _ _ hslips => hslips.2 rfl
  have hreceived := hmoved.concat .receive fun st hrun hslips => by
    cases hrun
    cases hslips.1
  have hsub := (hreceived.concat .noMoreNewFiles fun _ _ => id).concat .readSub
    fun st _ hslips => by
      obtain ⟨entry, hwaiting, hext⟩ := hslips
      obtain rfl := List.mem_singleton.1 hwaiting.1
      revert hext
      decide
  exact ((hsub.concat .noMoreNewFiles fun _ _ => id).concat .loadSource fun _ _ => id).concat
    .loadSub fun _ _ => id

theorem startsSound_arrivesInTime :
    StartsSound packing oneFileHost arrivesInTime oneArchiveLeft := by
  refine (startsSound_iff _ _ _ _ (by decide) neverSlips_arrivesInTime).2 ?_
  intro fileName hmem _
  obtain rfl := List.mem_singleton.1 hmem
  decide

/-- A file arrives after the source directory was read, and its event is taken while the
subdirectory is read. -/
def arrivesLate : List StartEvent :=
  [.addWatch, .readSource, .noMoreNewFiles, .moveIn ⟨"new.csv", false⟩, .readSub, .receive,
    .noMoreNewFiles, .loadSource, .loadSub]

theorem arrivesLate_missed :
    (arrivedFiles arrivesLate).Nodup ∧
      ¬ StartsSound packing oneFileHost arrivesLate oneArchiveLeft := by
  refine ⟨by decide, fun h => ?_⟩
  have hsettled : ((startRun packing oneFileHost arrivesLate).any fun st =>
      decide (st.stage = .monitoring ∧ st.events = [] ∧ st.sourceLoaded = true ∧
        st.subLoaded = true ∧ st.newFilesQ.count "new.csv" = 0)) = true := by decide
  obtain ⟨st, hrun, hst⟩ := (Option.any_eq_true _ _).1 hsettled
  obtain ⟨hstage, hevents, hsource, hsub, hzero⟩ := of_decide_eq_true hst
  have honce := (h.1 _ List.prefix_rfl st hrun).2 ⟨hstage, hevents, hsource, fun _ => hsub⟩
  have hone := honce.1 "new.csv" (by decide)
  omega

end HybridOs.CloudSync
