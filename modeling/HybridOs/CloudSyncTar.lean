import HybridOs.CloudSync
import HybridOs.DecimalText
import HybridOs.GoText

/-!
# The tar worker of a client

The tar worker buffers the files that arrive and packs them into tarballs, when there are enough
of them or a tick finds some. A tarball that is made is queued for sending, and what went into it
is cleared. The name of a tarball is the time of its making, or it is taken from the names of the
files: then there is one for each lane, with the latest timestamp in its name.
-/

namespace HybridOs.CloudSync

/-! ## Names of files -/

/-- The parts of a file name in CSDT format. -/
structure CSDTName where
  clientName : String
  siteName : String
  deviceName : String
  laneName : String
  fileTimestamp : ℤ

/-- `parseFilenameCSDT`. -/
def parseFilenameCSDT (fileName : FileName) : Option CSDTName :=
  let baseFileNameSplit := GoText.split ['.'] fileName.toList
  if baseFileNameSplit.length = 1 then none
  else
    match GoText.split ['_', '_'] (baseFileNameSplit.headD []) with
    | [clientName, siteName, deviceName, laneName, fileTimestampStr] =>
      (DecimalText.atoi (String.ofList fileTimestampStr).toUTF8.toList).map fun fileTimestamp =>
        ⟨.ofList clientName, .ofList siteName, .ofList deviceName, .ofList laneName, fileTimestamp⟩
    | _ => none

/-- The key of the lane that a name belongs to. -/
def CSDTName.fileKey (name : CSDTName) : String :=
  name.clientName ++ "__" ++ name.siteName ++ "__" ++ name.deviceName ++ "__" ++ name.laneName

/-! ## Tarballs -/

/-- What a call of `compress` meets. -/
structure CompressEnv where
  /-- The metaarchive directory is there or can be made. -/
  destDirExists : Bool
  /-- The destination can be created. -/
  created : Bool
  /-- `time.Now().UnixMicro()`. -/
  now : ℤ
  /-- Whether the file at an index can be opened, examined and written. -/
  compressed : ℕ → Bool

/-- A tarball, and the files that it contains. -/
structure TarBall where
  tarName : String
  files : List FileName

/-- The loop of `compress` over the names, with the last one parsed and the latest timestamp. -/
def latestOf (parsed : Option CSDTName) (latestTimestamp : ℤ) :
    List FileName → Option (Option CSDTName × ℤ)
  | [] => some (parsed, latestTimestamp)
  | fileName :: fileNames =>
    (parseFilenameCSDT fileName).bind fun name =>
      latestOf (some name)
        (if latestTimestamp < name.fileTimestamp then name.fileTimestamp else latestTimestamp)
        fileNames

/-- The name of a tarball from the names of its files. -/
def tarNameCSDT (fileNames : List FileName) (clientName : String) : Option String :=
  (latestOf none (-2 ^ 63) fileNames).map fun (parsed, latestTimestamp) =>
    (parsed.elim (clientName ++ "__" ++ "__" ++ "__") CSDTName.fileKey) ++ "__" ++
      toString latestTimestamp ++ metaArchiveExtension

/-- The name of a tarball from the time. -/
def tarNameTimed (clientName : String) (now : ℤ) : String :=
  clientName ++ "_" ++ toString now ++ metaArchiveExtension

/-- `compress`. Nothing is there where it returns an error. -/
def compress (fileNames : List FileName) (clientName : String) (useCSDTNamingFormat : Bool)
    (env : CompressEnv) : Option TarBall :=
  if env.destDirExists then
    (if useCSDTNamingFormat then tarNameCSDT fileNames clientName
      else some (tarNameTimed clientName env.now)).bind fun tarName =>
    if env.created then
      -- A file that fails is logged and left out.
      some ⟨tarName, (fileNames.zipIdx.filter fun entry => env.compressed entry.2).map Prod.fst⟩
    else none
  else none

/-! ## The worker -/

/-- What the configuration gives the tar worker. -/
structure TarConfig where
  name : String
  useCSDTNamingFormat : Bool
  bufferSize : ℕ

/-- The tar worker, with what it has done. -/
structure TarWorker where
  /-- The files that have arrived. -/
  received : List FileName
  fileBuffer : List FileName
  flush : Bool
  /-- The tarballs in the order in which they were made. -/
  tarBalls : List TarBall
  /-- The tarballs queued for sending. -/
  tarQOut : List String
  /-- The files of the source directory put on the clear queue. -/
  clearQ : List FileName

/-- A worker that has just begun. -/
def TarWorker.start : TarWorker := ⟨[], [], false, [], [], []⟩

/-- What one iteration selects. -/
inductive TarEvent where
  | tick
  | newFile (fileName : FileName)

/-- Files of one lane, under its key. -/
abbrev Group := String × List FileName

/-- A file is added to the files of its lane. -/
def addToGroup (fileKey : String) (fileName : FileName) : List Group → List Group
  | [] => [(fileKey, [fileName])]
  | (key, fileNames) :: groups =>
    if key = fileKey then (key, fileNames ++ [fileName]) :: groups
    else (key, fileNames) :: addToGroup fileKey fileName groups

/-- The lanes of the files. A file that does not parse is logged and left out. -/
def groupsFrom (groups : List Group) : List FileName → List Group
  | [] => groups
  | fileName :: fileNames =>
    match parseFilenameCSDT fileName with
    | none => groupsFrom groups fileNames
    | some name => groupsFrom (addToGroup name.fileKey fileName groups) fileNames

/-- `clientsSiteDeviceLaneMap`. -/
def clientsSiteDeviceLaneMap (fileBuffer : List FileName) : List Group := groupsFrom [] fileBuffer

/-- An order in which a map is ranged over. -/
structure MapOrder where
  order : List Group → List Group
  perm : ∀ groups, (order groups).Perm groups

/-- One iteration: what it selects, and what its calls of `compress` meet. -/
structure TarIteration where
  event : TarEvent
  /-- The call for the whole buffer. -/
  whole : CompressEnv
  /-- The call for a lane. -/
  lane : String → CompressEnv
  mapOrder : MapOrder

namespace TarWorker

/-- What is selected. -/
def receive (cfg : TarConfig) (worker : TarWorker) : TarEvent → TarWorker
  | .tick => {worker with flush := worker.flush || decide (0 < worker.fileBuffer.length)}
  | .newFile fileName =>
    let fileBuffer := worker.fileBuffer ++ [fileName]
    {worker with
      received := worker.received ++ [fileName]
      fileBuffer
      flush := worker.flush || decide (fileBuffer.length = cfg.bufferSize)}

/-- A tarball is made, queued, and its files are cleared. -/
def send (worker : TarWorker) (tarBall : TarBall) (fileNames : List FileName) : TarWorker :=
  {worker with
    tarBalls := worker.tarBalls ++ [tarBall]
    tarQOut := worker.tarQOut ++ [tarBall.tarName]
    clearQ := worker.clearQ ++ fileNames}

/-- Files are compressed and sent, if there is no error. -/
def compressAndSend (worker : TarWorker) (fileNames : List FileName)
    (tarBall : Option TarBall) : TarWorker :=
  tarBall.elim worker fun tarBall => worker.send tarBall fileNames

/-- The lanes are sent one after the other. The client name is the first part of the key. -/
def sendLanes (lane : String → CompressEnv) (worker : TarWorker) : List Group → TarWorker
  | [] => worker
  | (key, fileNames) :: groups =>
    let clientName := String.ofList ((GoText.split ['_', '_'] key.toList).headD [])
    sendLanes lane
      (worker.compressAndSend fileNames (compress fileNames clientName true (lane key))) groups

/-- The flush of an iteration. -/
def flushBuffer (cfg : TarConfig) (iteration : TarIteration) (worker : TarWorker) : TarWorker :=
  if cfg.useCSDTNamingFormat = false then
    match compress worker.fileBuffer cfg.name false iteration.whole with
    -- The flag and the buffer are kept.
    | none => worker
    | some tarBall => {worker.send tarBall worker.fileBuffer with fileBuffer := [], flush := false}
  else
    let groups := iteration.mapOrder.order (clientsSiteDeviceLaneMap worker.fileBuffer)
    {worker.sendLanes iteration.lane groups with fileBuffer := [], flush := false}

/-- One iteration of the loop. -/
def iterate (cfg : TarConfig) (worker : TarWorker) (iteration : TarIteration) : TarWorker :=
  let worker := worker.receive cfg iteration.event
  if worker.flush then worker.flushBuffer cfg iteration else worker

/-- A run of the loop. -/
def run (cfg : TarConfig) (worker : TarWorker) (iterations : List TarIteration) : TarWorker :=
  iterations.foldl (iterate cfg) worker

/-! ## Losses -/

/-- A file is in a tarball that was queued and is not overwritten by a later one. -/
def Archived (worker : TarWorker) (fileName : FileName) : Prop :=
  ∃ before tarBall after, worker.tarBalls = before ++ tarBall :: after ∧
    fileName ∈ tarBall.files ∧ tarBall.tarName ∈ worker.tarQOut ∧
    ∀ later ∈ after, later.tarName ≠ tarBall.tarName

/-- No file is lost: one that is cleared is archived, and every one that has arrived is cleared
or in the buffer. -/
structure NothingLost (worker : TarWorker) : Prop where
  archived : ∀ fileName ∈ worker.clearQ, worker.Archived fileName
  kept : worker.received.Perm (worker.clearQ ++ worker.fileBuffer)

/-- No tarball of the name has been made. -/
def NewName (worker : TarWorker) (tarName : String) : Prop :=
  ∀ tarBall ∈ worker.tarBalls, tarBall.tarName ≠ tarName

end TarWorker

/-- Every file can be written. -/
def CompressEnv.CompressesAll (env : CompressEnv) (fileNames : List FileName) : Prop :=
  ∀ i < fileNames.length, env.compressed i = true

/-- What a flush must meet so as to lose nothing. -/
def TarWorker.FlushSpares (cfg : TarConfig) (iteration : TarIteration) (worker : TarWorker) :
    Prop :=
  if cfg.useCSDTNamingFormat = false then
    iteration.whole.destDirExists = true → iteration.whole.created = true →
      iteration.whole.CompressesAll worker.fileBuffer ∧
        worker.NewName (tarNameTimed cfg.name iteration.whole.now)
  else
    (∀ fileName ∈ worker.fileBuffer, (parseFilenameCSDT fileName).isSome) ∧
      ∀ group ∈ clientsSiteDeviceLaneMap worker.fileBuffer,
        (iteration.lane group.1).destDirExists = true ∧ (iteration.lane group.1).created = true ∧
          (iteration.lane group.1).CompressesAll group.2 ∧
          ∀ tarName, tarNameCSDT group.2 "" = some tarName → worker.NewName tarName

/-- What an iteration must meet. -/
def TarWorker.Spares (cfg : TarConfig) (worker : TarWorker) (iteration : TarIteration) : Prop :=
  (worker.receive cfg iteration.event).flush = true →
    (worker.receive cfg iteration.event).FlushSpares cfg iteration

/-- Every iteration of a run meets it. -/
def TarWorker.SparesRun (cfg : TarConfig) : TarWorker → List TarIteration → Prop
  | _, [] => True
  | worker, iteration :: iterations =>
    worker.Spares cfg iteration ∧ SparesRun cfg (worker.iterate cfg iteration) iterations

/-! ## Lanes -/

/-- The files of all groups. -/
def groupedFiles (groups : List Group) : List FileName := groups.flatMap Prod.snd

/-- A file is added to the grouped ones. -/
theorem groupedFiles_addToGroup (fileKey : String) (fileName : FileName) (groups : List Group) :
    (groupedFiles (addToGroup fileKey fileName groups)).Perm (groupedFiles groups ++ [fileName]) := by
  induction groups with
  | nil => simp [addToGroup, groupedFiles]
  | cons group groups ih =>
    rw [addToGroup]
    split
    · simp only [groupedFiles, List.flatMap_cons, List.append_assoc]
      exact List.Perm.append_left _ List.perm_append_comm
    · simp only [groupedFiles, List.flatMap_cons, List.append_assoc]
      exact List.Perm.append_left _ ih

variable {fileNames : List FileName} {fileKey : String} {groups : List Group}

/-- Every file is in one group. -/
theorem groupedFiles_groupsFrom (groups : List Group)
    (hparsed : ∀ fileName ∈ fileNames, (parseFilenameCSDT fileName).isSome) :
    (groupedFiles (groupsFrom groups fileNames)).Perm (groupedFiles groups ++ fileNames) := by
  induction fileNames generalizing groups with
  | nil => simp [groupsFrom]
  | cons fileName fileNames ih =>
    obtain ⟨name, hname⟩ := Option.isSome_iff_exists.mp (hparsed fileName (by simp))
    have hrest := ih (addToGroup name.fileKey fileName groups)
      fun f hf => hparsed f (List.mem_cons_of_mem _ hf)
    have hadd := groupedFiles_addToGroup name.fileKey fileName groups
    rw [groupsFrom, hname]
    refine hrest.trans ((hadd.append_right fileNames).trans ?_)
    simp

/-- Groups of distinct keys, each with files of its key. -/
structure ByLane (groups : List Group) : Prop where
  nodup : (groups.map Prod.fst).Nodup
  nonempty : ∀ group ∈ groups, group.2 ≠ []
  parsed : ∀ group ∈ groups, ∀ fileName ∈ group.2, ∃ name,
    parseFilenameCSDT fileName = some name ∧ name.fileKey = group.1

/-- At most one key is new. -/
theorem mem_keys_addToGroup {key : String} {fileName : FileName}
    (hkey : key ∈ (addToGroup fileKey fileName groups).map Prod.fst) :
    key = fileKey ∨ key ∈ groups.map Prod.fst := by
  induction groups with
  | nil =>
    simp only [addToGroup, List.map_cons, List.map_nil, List.mem_singleton] at hkey
    exact .inl hkey
  | cons group groups ih =>
    rw [addToGroup] at hkey
    split at hkey
    · exact .inr (by simpa using hkey)
    · simp only [List.map_cons, List.mem_cons] at hkey ⊢
      rcases hkey with heq | htail
      · exact .inr (.inl heq)
      · rcases ih htail with heq | hmem
        · exact .inl heq
        · exact .inr (.inr hmem)

/-- A file goes to the group of its lane. -/
theorem ByLane.addToGroup (hlane : ByLane groups) {fileName : FileName} {name : CSDTName}
    (hname : parseFilenameCSDT fileName = some name) :
    ByLane (addToGroup name.fileKey fileName groups) := by
  induction groups with
  | nil =>
    constructor
    · simp [CloudSync.addToGroup]
    · simp [CloudSync.addToGroup]
    · simp [CloudSync.addToGroup, hname]
  | cons group groups ih =>
    obtain ⟨hnodup, hnonempty, hparsed⟩ := hlane
    rw [List.map_cons, List.nodup_cons] at hnodup
    rw [List.forall_mem_cons] at hnonempty hparsed
    rw [CloudSync.addToGroup]
    split
    · rename_i hkey
      constructor
      · simpa using hnodup
      · simpa using hnonempty.2
      · rw [List.forall_mem_cons]
        constructor
        · intro f hf
          rw [List.mem_append, List.mem_singleton] at hf
          rcases hf with hold | hnew
          · exact hparsed.1 f hold
          · exact ⟨name, hnew ▸ hname, hkey.symm⟩
        · exact hparsed.2
    · rename_i hkey
      have hrest := ih ⟨hnodup.2, hnonempty.2, hparsed.2⟩
      constructor
      · rw [List.map_cons, List.nodup_cons]
        constructor
        · intro hmem
          rcases mem_keys_addToGroup hmem with heq | hold
          · exact hkey heq
          · exact hnodup.1 hold
        · exact hrest.nodup
      · rw [List.forall_mem_cons]
        exact ⟨hnonempty.1, hrest.nonempty⟩
      · rw [List.forall_mem_cons]
        exact ⟨hparsed.1, hrest.parsed⟩

/-- The groups are by lane. -/
theorem byLane_groupsFrom (hlane : ByLane groups) (fileNames : List FileName) :
    ByLane (groupsFrom groups fileNames) := by
  induction fileNames generalizing groups with
  | nil => exact hlane
  | cons fileName fileNames ih =>
    rw [groupsFrom]
    split
    · exact ih hlane
    · rename_i name hname
      exact ih (hlane.addToGroup hname)

/-- So are those of a buffer. -/
theorem byLane_clientsSiteDeviceLaneMap (fileBuffer : List FileName) :
    ByLane (clientsSiteDeviceLaneMap fileBuffer) := by
  apply byLane_groupsFrom
  constructor
  · simp
  · simp
  · simp

/-! ## Names of tarballs -/

/-- The name of the tarball of a lane. -/
def laneTarName (fileKey : String) (timestamp : ℤ) : String :=
  fileKey ++ "__" ++ toString timestamp ++ metaArchiveExtension

/-- A number has no underscore. -/
theorem underscore_not_mem_toString (n : ℤ) : '_' ∉ (toString n).toList := by
  have hdigits (k : ℕ) : '_' ∉ k.repr.toList := by
    rw [Nat.repr_eq_ofList_toDigits, String.toList_ofList]
    exact Nat.underscore_not_in_toDigits
  cases n with
  | ofNat k => exact hdigits k
  | negSucc k =>
    have htext : (toString (Int.negSucc k)).toList = '-' :: (k + 1).repr.toList := by
      change ("-" ++ (k + 1).repr).toList = _
      simp
    rw [htext, List.mem_cons, not_or]
    exact ⟨by decide, hdigits (k + 1)⟩

/-- What comes before the last of a separator is determined. -/
theorem before_last_eq {α : Type} {separator : α} {before before' after after' : List α}
    (hafter : separator ∉ after) (hafter' : separator ∉ after')
    (heq : before ++ separator :: after = before' ++ separator :: after') : before = before' := by
  rcases List.append_eq_append_iff.mp heq with ⟨between, hlonger, htail⟩ | ⟨between, hlonger, htail⟩
  · cases between with
    | nil => simpa using hlonger.symm
    | cons c between =>
      rw [List.cons_append, List.cons.injEq] at htail
      exact absurd (htail.2 ▸ by simp) hafter
  · cases between with
    | nil => simpa using hlonger
    | cons c between =>
      rw [List.cons_append, List.cons.injEq] at htail
      exact absurd (htail.2 ▸ by simp) hafter'

/-- Tarballs of distinct lanes have distinct names. -/
theorem laneTarName_injective {fileKey' : String} {timestamp timestamp' : ℤ}
    (heq : laneTarName fileKey timestamp = laneTarName fileKey' timestamp') :
    fileKey = fileKey' := by
  have hlists : (fileKey.toList ++ ['_']) ++ '_' :: (toString timestamp).toList =
      (fileKey'.toList ++ ['_']) ++ '_' :: (toString timestamp').toList := by
    have htext := congrArg String.toList heq
    simp only [laneTarName, String.toList_append, List.append_left_inj] at htext
    simpa using htext
  have hbefore := before_last_eq (underscore_not_mem_toString timestamp)
    (underscore_not_mem_toString timestamp') hlists
  rw [List.append_left_inj] at hbefore
  exact String.toList_inj.mp hbefore

/-- The latest time in a lane is that of one of its files. -/
theorem latestOf_lane {name : CSDTName} (hkey : name.fileKey = fileKey) (timestamp : ℤ)
    (hparsed : ∀ fileName ∈ fileNames, ∃ name,
      parseFilenameCSDT fileName = some name ∧ name.fileKey = fileKey) :
    ∃ last latest, latestOf (some name) timestamp fileNames = some (some last, latest) ∧
      last.fileKey = fileKey := by
  induction fileNames generalizing name timestamp with
  | nil => exact ⟨name, timestamp, rfl, hkey⟩
  | cons fileName fileNames ih =>
    rw [List.forall_mem_cons] at hparsed
    obtain ⟨⟨next, hnext, hkey'⟩, hrest⟩ := hparsed
    obtain ⟨last, latest, hlast, hkeyLast⟩ := ih hkey'
      (if timestamp < next.fileTimestamp then next.fileTimestamp else timestamp) hrest
    refine ⟨last, latest, ?_, hkeyLast⟩
    rw [latestOf, hnext, Option.bind_some, hlast]

/-- A tarball of the files of a lane has its name. -/
theorem tarNameCSDT_lane (hne : fileNames ≠ []) (hparsed : ∀ fileName ∈ fileNames, ∃ name,
      parseFilenameCSDT fileName = some name ∧ name.fileKey = fileKey) :
    ∃ latest, ∀ clientName, tarNameCSDT fileNames clientName = some (laneTarName fileKey latest) := by
  cases fileNames with
  | nil => exact absurd rfl hne
  | cons fileName fileNames =>
    rw [List.forall_mem_cons] at hparsed
    obtain ⟨⟨name, hname, hkey⟩, hrest⟩ := hparsed
    obtain ⟨last, latest, hlast, hkeyLast⟩ := latestOf_lane hkey
      (if -2 ^ 63 < name.fileTimestamp then name.fileTimestamp else -2 ^ 63) hrest
    refine ⟨latest, fun clientName => ?_⟩
    rw [tarNameCSDT, latestOf, hname, Option.bind_some, hlast]
    simp [laneTarName, hkeyLast]

/-- Where nothing fails every file is in the archive. -/
theorem compress_all {env : CompressEnv} (hall : env.CompressesAll fileNames) :
    (fileNames.zipIdx.filter fun entry => env.compressed entry.2).map Prod.fst = fileNames := by
  rw [List.filter_eq_self.mpr]
  · simp
  · intro entry hentry
    apply hall
    have hlt := List.snd_lt_of_mem_zipIdx hentry
    simpa using hlt

/-! ## Runs -/

namespace TarWorker

/-- Everything cleared is in a tarball, and no two tarballs have one name. -/
structure Sound (worker : TarWorker) : Prop where
  names : (worker.tarBalls.map TarBall.tarName).Nodup
  queued : worker.tarQOut = worker.tarBalls.map TarBall.tarName
  contained : ∀ fileName ∈ worker.clearQ, ∃ tarBall ∈ worker.tarBalls, fileName ∈ tarBall.files

variable {worker : TarWorker}

/-- A cleared file is in an archive. -/
theorem Sound.archived (hsound : worker.Sound) {fileName : FileName}
    (hcleared : fileName ∈ worker.clearQ) : worker.Archived fileName := by
  obtain ⟨tarBall, hmade, hfile⟩ := hsound.contained fileName hcleared
  obtain ⟨before, after, hsplit⟩ := List.append_of_mem hmade
  have hnodup := hsound.names
  rw [hsplit, List.map_append, List.nodup_append, List.map_cons, List.nodup_cons] at hnodup
  refine ⟨before, tarBall, after, hsplit, hfile, ?_, ?_⟩
  · rw [hsound.queued]
    exact List.mem_map_of_mem hmade
  · intro later hlater hsame
    exact hnodup.2.1.1 (hsame ▸ List.mem_map_of_mem hlater)

/-- A tarball of a new name with all of its files. -/
theorem Sound.send (hsound : worker.Sound) {tarName : String} (hnew : worker.NewName tarName)
    (fileNames : List FileName) : (worker.send ⟨tarName, fileNames⟩ fileNames).Sound := by
  constructor
  · simp only [TarWorker.send, List.map_append, List.map_cons, List.map_nil]
    rw [List.nodup_append]
    refine ⟨hsound.names, by simp, ?_⟩
    intro name hname name' hname' heq
    obtain ⟨tarBall, hmade, hmade'⟩ := List.mem_map.mp hname
    rw [List.mem_singleton] at hname'
    exact hnew tarBall hmade (hmade'.trans (heq.trans hname'))
  · simp [TarWorker.send, hsound.queued]
  · intro fileName hcleared
    simp only [TarWorker.send, List.mem_append] at hcleared ⊢
    rcases hcleared with hold | hnow
    · obtain ⟨tarBall, hmade, hfile⟩ := hsound.contained fileName hold
      exact ⟨tarBall, .inl hmade, hfile⟩
    · exact ⟨⟨tarName, fileNames⟩, .inr (by simp), hnow⟩

/-- A lane whose call succeeds, with a name that is new. -/
structure LaneSpares (worker : TarWorker) (lane : String → CompressEnv) (group : Group) : Prop where
  destDirExists : (lane group.1).destDirExists = true
  created : (lane group.1).created = true
  compressed : (lane group.1).CompressesAll group.2
  named : ∃ latest, (∀ clientName, tarNameCSDT group.2 clientName =
    some (laneTarName group.1 latest)) ∧ worker.NewName (laneTarName group.1 latest)

variable {lane : String → CompressEnv} {cfg : TarConfig}

/-- A lane writes one archive of a new name. -/
theorem LaneSpares.compressAndSend {group : Group} (hspares : worker.LaneSpares lane group)
    (clientName : String) :
    ∃ latest, worker.NewName (laneTarName group.1 latest) ∧
      worker.compressAndSend group.2 (compress group.2 clientName true (lane group.1)) =
        worker.send ⟨laneTarName group.1 latest, group.2⟩ group.2 := by
  obtain ⟨latest, hname, hnew⟩ := hspares.named
  refine ⟨latest, hnew, ?_⟩
  simp [compress, hspares.destDirExists, hspares.created, hname, compress_all hspares.compressed,
    TarWorker.compressAndSend]

/-- A lane is still spared after another one is sent. -/
theorem LaneSpares.send {group : Group} (hspares : worker.LaneSpares lane group) {fileKey : String}
    (hne : fileKey ≠ group.1) (latest : ℤ) (fileNames : List FileName) :
    (worker.send ⟨laneTarName fileKey latest, fileNames⟩ fileNames).LaneSpares lane group := by
  obtain ⟨last, hname, hnew⟩ := hspares.named
  refine ⟨hspares.destDirExists, hspares.created, hspares.compressed, last, hname, ?_⟩
  intro tarBall hmade
  simp only [TarWorker.send, List.mem_append, List.mem_singleton] at hmade
  rcases hmade with hold | hnow
  · exact hnew tarBall hold
  · rw [hnow]
    intro heq
    exact hne (laneTarName_injective heq)

/-- Lanes that are spared are all sent. -/
theorem sendLanes_sound {groups : List Group} (hsound : worker.Sound)
    (hnodup : (groups.map Prod.fst).Nodup)
    (hspares : ∀ group ∈ groups, worker.LaneSpares lane group) :
    (worker.sendLanes lane groups).Sound ∧
      (worker.sendLanes lane groups).clearQ = worker.clearQ ++ groupedFiles groups ∧
      (worker.sendLanes lane groups).received = worker.received := by
  induction groups generalizing worker with
  | nil => simp [sendLanes, groupedFiles, hsound]
  | cons group groups ih =>
    rw [List.map_cons, List.nodup_cons] at hnodup
    rw [List.forall_mem_cons] at hspares
    obtain ⟨latest, hnew, hsend⟩ := hspares.1.compressAndSend
      (String.ofList ((GoText.split ['_', '_'] group.1.toList).headD []))
    have hrest : ∀ other ∈ groups,
        (worker.send ⟨laneTarName group.1 latest, group.2⟩ group.2).LaneSpares lane other := by
      intro other hother
      apply (hspares.2 other hother).send
      intro hsame
      exact hnodup.1 (hsame ▸ List.mem_map_of_mem hother)
    obtain ⟨hsound', hclear, hreceived⟩ := ih (hsound.send hnew group.2) hnodup.2 hrest
    rw [sendLanes, hsend]
    refine ⟨hsound', ?_, ?_⟩
    · rw [hclear]
      simp [TarWorker.send, groupedFiles]
    · rw [hreceived]
      simp [TarWorker.send]

/-- What holds of a worker that has lost nothing. -/
structure Whole (worker : TarWorker) : Prop where
  sound : worker.Sound
  kept : worker.received.Perm (worker.clearQ ++ worker.fileBuffer)

/-- A worker that is whole has lost nothing. -/
theorem Whole.nothingLost (hwhole : worker.Whole) : worker.NothingLost where
  archived := fun _ hcleared => hwhole.sound.archived hcleared
  kept := hwhole.kept

/-- The worker is whole at the start. -/
theorem whole_start : start.Whole := by
  constructor
  · constructor
    · simp [start]
    · simp [start]
    · simp [start]
  · simp [start]

/-- A worker that is whole stays so when it receives. -/
theorem Whole.receive (hwhole : worker.Whole) (cfg : TarConfig) (event : TarEvent) :
    (worker.receive cfg event).Whole := by
  cases event with
  | tick => exact ⟨⟨hwhole.sound.names, hwhole.sound.queued, hwhole.sound.contained⟩, hwhole.kept⟩
  | newFile fileName =>
    refine ⟨⟨hwhole.sound.names, hwhole.sound.queued, hwhole.sound.contained⟩, ?_⟩
    have hkept := hwhole.kept.append_right [fileName]
    simpa [TarWorker.receive] using hkept

/-- A flush that meets the condition loses nothing. -/
theorem Whole.flushBuffer {iteration : TarIteration} (hwhole : worker.Whole)
    (hspares : worker.FlushSpares cfg iteration) : (worker.flushBuffer cfg iteration).Whole := by
  unfold TarWorker.flushBuffer
  unfold FlushSpares at hspares
  by_cases hmode : cfg.useCSDTNamingFormat = false
  · rw [if_pos hmode] at hspares ⊢
    split
    · exact hwhole
    · rename_i tarBall hcompress
      by_cases hready : iteration.whole.destDirExists = true ∧ iteration.whole.created = true
      · obtain ⟨hall, hnew⟩ := hspares hready.1 hready.2
        have hmade : tarBall =
            ⟨tarNameTimed cfg.name iteration.whole.now, worker.fileBuffer⟩ := by
          simpa [compress, hready, compress_all hall, eq_comm] using hcompress
        subst hmade
        have hsound := hwhole.sound.send hnew worker.fileBuffer
        refine ⟨⟨hsound.names, hsound.queued, hsound.contained⟩, ?_⟩
        simpa [TarWorker.send] using hwhole.kept
      · rw [not_and_or, Bool.not_eq_true, Bool.not_eq_true] at hready
        rcases hready with hmissing | hmissing
        · simp [compress, hmissing] at hcompress
        · simp [compress, hmissing] at hcompress
  · rw [if_neg hmode] at hspares ⊢
    obtain ⟨hparsed, hgroups⟩ := hspares
    have hlanes := byLane_clientsSiteDeviceLaneMap worker.fileBuffer
    have hperm := iteration.mapOrder.perm (clientsSiteDeviceLaneMap worker.fileBuffer)
    have hnodup : ((iteration.mapOrder.order
        (clientsSiteDeviceLaneMap worker.fileBuffer)).map Prod.fst).Nodup :=
      (hperm.map Prod.fst).nodup_iff.mpr hlanes.nodup
    have hready : ∀ group ∈ iteration.mapOrder.order (clientsSiteDeviceLaneMap worker.fileBuffer),
        worker.LaneSpares iteration.lane group := by
      intro group hmem
      have hgroup := hperm.mem_iff.mp hmem
      obtain ⟨hdest, hcreated, hall, hnew⟩ := hgroups group hgroup
      obtain ⟨latest, hname⟩ := tarNameCSDT_lane (hlanes.nonempty group hgroup)
        (hlanes.parsed group hgroup)
      exact ⟨hdest, hcreated, hall, latest, hname, hnew _ (hname "")⟩
    obtain ⟨hsound, hclear, hreceived⟩ := sendLanes_sound hwhole.sound hnodup hready
    refine ⟨⟨hsound.names, hsound.queued, hsound.contained⟩, ?_⟩
    have hfiles : (groupedFiles (iteration.mapOrder.order
        (clientsSiteDeviceLaneMap worker.fileBuffer))).Perm worker.fileBuffer := by
      have hflat : (groupedFiles (iteration.mapOrder.order
          (clientsSiteDeviceLaneMap worker.fileBuffer))).Perm
          (groupedFiles (clientsSiteDeviceLaneMap worker.fileBuffer)) := hperm.flatMap_right _
      have hall := groupedFiles_groupsFrom [] hparsed
      exact hflat.trans (by simpa [groupedFiles, clientsSiteDeviceLaneMap] using hall)
    simp only [hclear, hreceived, List.append_nil]
    exact hwhole.kept.trans (List.Perm.append_left _ hfiles.symm)

/-- It stays so in an iteration that overwrites nothing. -/
theorem Whole.iterate {iteration : TarIteration} (hwhole : worker.Whole)
    (hspares : worker.Spares cfg iteration) : (worker.iterate cfg iteration).Whole := by
  have hreceived := hwhole.receive cfg iteration.event
  unfold TarWorker.iterate
  simp only
  split
  · rename_i hflush
    exact hreceived.flushBuffer (hspares hflush)
  · exact hreceived

/-- It stays so over a run of them. -/
theorem Whole.run {iterations : List TarIteration} (hwhole : worker.Whole)
    (hspares : SparesRun cfg worker iterations) : (worker.run cfg iterations).Whole := by
  induction iterations generalizing worker with
  | nil => exact hwhole
  | cons iteration iterations ih => exact ih (hwhole.iterate hspares.1) hspares.2

/-- The first part of such a run is one. -/
theorem SparesRun.append {before after : List TarIteration}
    (hspares : SparesRun cfg worker (before ++ after)) : SparesRun cfg worker before := by
  induction before generalizing worker with
  | nil => exact trivial
  | cons iteration before ih => exact ⟨hspares.1, ih hspares.2⟩

/-- No state of a run loses a file if every iteration meets the condition. -/
theorem run_nothingLost {cfg : TarConfig} {iterations : List TarIteration}
    (hspares : SparesRun cfg start iterations) :
    ∀ before, before <+: iterations → (start.run cfg before).NothingLost := by
  rintro before ⟨after, rfl⟩
  exact (whole_start.run hspares.append).nothingLost

/-- A client that packs every file by itself. -/
def packingSite : TarConfig where
  name := "site"
  useCSDTNamingFormat := false
  bufferSize := 1

/-- A file arrives at a time, and its tarball is made. -/
def arrival (fileName : FileName) (now : ℤ) (compressed : Bool) : TarIteration where
  event := .newFile fileName
  whole := ⟨true, true, now, fun _ => compressed⟩
  lane := fun _ => ⟨true, true, now, fun _ => compressed⟩
  mapOrder := ⟨id, fun _ => List.Perm.refl _⟩

/-- Two files arrive, with a tick of the flush timer between them. -/
def packingRun : List TarIteration :=
  [arrival "a.csv" 1 true,
    ⟨.tick, ⟨true, true, 2, fun _ => true⟩, fun _ => ⟨true, true, 2, fun _ => true⟩,
      ⟨id, fun _ => List.Perm.refl _⟩⟩,
    arrival "b.csv" 3 true]

theorem packingSite_nothingLost : (start.run packingSite packingRun).NothingLost := by
  refine run_nothingLost ?_ packingRun List.prefix_rfl
  rw [packingRun]
  refine ⟨?_, ?_, ?_, trivial⟩
  · intro _
    simp [FlushSpares, packingSite, arrival, CompressEnv.CompressesAll, NewName, start, receive]
  · intro hflush
    simp [packingSite, arrival, start, receive, iterate, flushBuffer, compress] at hflush
  · intro _
    simp [FlushSpares, packingSite, arrival, CompressEnv.CompressesAll, NewName, start, receive,
      iterate, flushBuffer, compress, send, tarNameTimed]

/-- A file that cannot be opened is cleared all the same. -/
theorem unopened_lost : ¬ (start.run packingSite [arrival "a.csv" 1 false]).NothingLost := by
  intro hnothing
  have hcleared : "a.csv" ∈ (start.run packingSite [arrival "a.csv" 1 false]).clearQ := by
    simp [TarWorker.run, iterate, receive, flushBuffer, compress, send, start, packingSite, arrival]
  obtain ⟨before, tarBall, after, hsplit, hfile, -⟩ := hnothing.archived "a.csv" hcleared
  have hempty : ∀ tarBall ∈ (start.run packingSite [arrival "a.csv" 1 false]).tarBalls,
      tarBall.files = [] := by
    simp [TarWorker.run, iterate, receive, flushBuffer, compress, send, start, packingSite, arrival]
  have hnone := hempty tarBall (by simp [hsplit])
  rw [hnone] at hfile
  exact absurd hfile (by simp)

end TarWorker

end HybridOs.CloudSync
