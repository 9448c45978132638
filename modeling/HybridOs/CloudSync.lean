import Mathlib.Data.Int.Basic
import Mathlib.Data.List.Basic
import Mathlib.Data.List.Induction
import Mathlib.Data.List.Sort

/-!
# The workers of a client

A client in its default mode sends every file of its source directory to all its servers. A
file that fails is copied to the error directory, its failed servers are recorded in the
database, and one retry worker for each server sends it again until the record is empty.
Retry and clear queues are bounded. The steps of the workers are the operations between
which another worker can run: a queue operation, a request or its answer, one database
call, one file operation.
-/

namespace HybridOs.CloudSync

/-- A file, by its name. -/
abbrev FileName := String

/-- A server, by its cleaned name. -/
abbrev ServerName := String

/-- What the configuration gives a client. -/
structure ClientConfig where
  /-- `connectedServers`. -/
  connectedServers : List ServerName
  nodup : connectedServers.Nodup
  /-- `BufSz`: the size of the clear queue and of every retry queue. -/
  bufSz : ℕ
  bufSz_pos : 1 ≤ bufSz
  /-- `RetryLimit`. -/
  retryLimit : ℤ

/-- A path that is cleared: a file of the source directory or of the error directory. -/
inductive FilePath where
  | source (fileName : FileName)
  | error (fileName : FileName)
  deriving DecidableEq, Repr

/-- `transferResponse`: success, or a failure that is retryable or not. -/
inductive Answer where
  | success
  | failure (retryable : Bool)
  deriving DecidableEq, Repr

/-- Whether the answer is a success. -/
def Answer.ok : Answer → Bool
  | .success => true
  | .failure _ => false

/-! ## Workers -/

/-- Where the send worker is with a file: the server it is at, the servers to come, and
whether the file has failed. -/
structure SendLoop where
  fileName : FileName
  serv : ServerName
  rest : List ServerName
  failed : Bool
  deriving DecidableEq, Repr

/-- The send worker. -/
inductive SendPhase where
  /-- Waits for a file. -/
  | idle
  /-- Puts a request to the server's transfer worker. -/
  | requesting (cur : SendLoop)
  /-- Waits for the answer. -/
  | awaiting (cur : SendLoop)
  /-- In `addFailure`, before its `Get`. -/
  | getting (cur : SendLoop) (retryable : Bool)
  /-- In `addFailure`, before its `Set`. -/
  | setting (cur : SendLoop) (retryable : Bool) (val : List ServerName)
  /-- Before the copy to the error directory. -/
  | copying (cur : SendLoop) (retryable : Bool)
  /-- Puts the file into the retry queue of the server. -/
  | queueing (cur : SendLoop)
  /-- Puts the file of the source directory into the clear queue. -/
  | clearing (fileName : FileName)
  deriving DecidableEq, Repr

/-- The retry worker of a server. -/
inductive RetryPhase where
  /-- Waits for a file. -/
  | idle
  /-- Puts a request to the server's transfer worker. -/
  | requesting (fileName : FileName)
  /-- Waits for the answer. -/
  | awaiting (fileName : FileName)
  /-- Puts the failed file back into its queue. -/
  | requeueing (fileName : FileName)
  /-- In `removeFailure`, before its `Get`. -/
  | getting (fileName : FileName)
  /-- In `removeFailure`, before its `Set` or `Remove`. -/
  | writing (fileName : FileName) (val : List ServerName)
  /-- Puts the file of the error directory into the clear queue. -/
  | clearing (fileName : FileName)
  deriving DecidableEq, Repr

/-- The clear worker. -/
inductive ClearPhase where
  /-- Waits for a path. -/
  | idle
  /-- Before the removal of the file. -/
  | removing (filePath : FilePath)
  /-- Puts the path back into its queue. -/
  | requeueing (filePath : FilePath)
  deriving DecidableEq, Repr

/-- Whose request a transfer worker serves. -/
inductive Requester where
  | send
  | retry
  deriving DecidableEq, Repr

/-- What a transfer worker does. -/
inductive TransferPhase where
  /-- Waits for a request. -/
  | ready
  /-- Transfers a file that was there to be opened, or not. -/
  | handling (requester : Requester) (fileName : FileName) (opened : Bool)
  /-- Puts the answer to the requester; `connectionOkay` of the response. -/
  | answering (requester : Requester) (fileName : FileName) (resp : Answer)
    (connectionOkay : Bool)
  deriving DecidableEq, Repr

/-- The transfer worker of a server. -/
structure Transfer where
  connectionOkay : Bool
  numFailures : ℤ
  phase : TransferPhase
  deriving DecidableEq, Repr

/-- The state of a client. -/
structure Client where
  /-- Files of the source directory. -/
  sourceDir : FileName → Bool
  /-- Files of the error directory. -/
  errorDir : FileName → Bool
  /-- The servers under each file in the database, all of them with the value false. -/
  db : FileName → List ServerName
  /-- Files that have been noticed and not yet been handed to the send worker. -/
  newFiles : List FileName
  retryQ : ServerName → List FileName
  clearQ : List FilePath
  send : SendPhase
  retry : ServerName → RetryPhase
  clear : ClearPhase
  transfer : ServerName → Transfer
  /-- The answers given, the last one first. -/
  answers : List (FileName × ServerName × Answer)

/-- Before the first file. Some servers may be out of reach. -/
def started (connected : ServerName → Bool) : Client where
  sourceDir _ := false
  errorDir _ := false
  db _ := []
  newFiles := []
  retryQ _ := []
  clearQ := []
  send := .idle
  retry _ := .idle
  clear := .idle
  transfer serv := ⟨connected serv, 0, .ready⟩
  answers := []

/-! ## Steps -/

/-- What happens at a client. -/
inductive Event where
  /-- A file arrives in the source directory and is noticed. -/
  | arrive (fileName : FileName)
  /-- The send worker receives a file. The buffer manager may hand out any noticed file. -/
  | takeFile (fileName : FileName)
  /-- A transfer worker receives the request of the send worker. -/
  | acceptSend (serv : ServerName)
  /-- A transfer worker receives the request of the retry worker. -/
  | acceptRetry (serv : ServerName)
  /-- A transfer worker finishes a transfer. -/
  | handled (serv : ServerName) (resp : Answer)
  /-- A transfer worker gives its answer. -/
  | answer (serv : ServerName)
  /-- The connection of a transfer worker fails while it waits. -/
  | keepAliveFailed (serv : ServerName)
  /-- The connection of a transfer worker is back. -/
  | reestablished (serv : ServerName)
  /-- The send worker reads the record of its file. -/
  | sendGet
  /-- The send worker writes the record of its file. -/
  | sendSet
  /-- The send worker copies its file to the error directory. -/
  | sendCopy
  /-- The send worker queues its file for a retry. -/
  | sendRetry
  /-- The send worker queues its file for clearing. -/
  | sendClear
  /-- A retry worker receives a file. -/
  | takeRetry (serv : ServerName)
  /-- A retry worker puts its file back. -/
  | requeueRetry (serv : ServerName)
  /-- A retry worker reads the record of its file. -/
  | retryGet (serv : ServerName)
  /-- A retry worker writes or removes the record of its file. -/
  | retryWrite (serv : ServerName)
  /-- A retry worker queues its file for clearing. -/
  | retryClear (serv : ServerName)
  /-- The clear worker receives a path. -/
  | takeClear
  /-- The clear worker removes its file; the removal of a file that exists may fail. -/
  | remove (fails : Bool)
  /-- The clear worker puts its path back. -/
  | requeueClear
  deriving DecidableEq, Repr

/-- The loop of the send worker goes on to the next server, or ends. -/
def sendNext (fileName : FileName) (rest : List ServerName) (failed : Bool) : SendPhase :=
  match rest with
  | [] => .clearing fileName
  | serv :: rest => .requesting ⟨fileName, serv, rest, failed⟩

/-- After a failure was recorded: the file is copied once, then queued if retryable. -/
def sendFailed (cur : SendLoop) (retryable : Bool) : SendPhase :=
  if retryable then .queueing cur else sendNext cur.fileName cur.rest cur.failed

/-- The retry worker after an answer. -/
def retryAnswered (fileName : FileName) : Answer → RetryPhase
  | .success => .getting fileName
  | .failure true => .requeueing fileName
  | .failure false => .idle

/-- The send worker after an answer. -/
def sendAnswered (cur : SendLoop) : Answer → SendPhase
  | .success => sendNext cur.fileName cur.rest cur.failed
  | .failure retryable => .getting cur retryable

/-- The transfer worker after it has given an answer. -/
def Transfer.answered (cfg : ClientConfig) (t : Transfer) (resp : Answer) (counted : Bool) :
    Transfer :=
  if counted && !resp.ok then
    {t with
      numFailures := t.numFailures + 1
      connectionOkay := t.connectionOkay && decide (t.numFailures + 1 < cfg.retryLimit)
      phase := .ready}
  else {t with phase := .ready}

/-- `val[serverName] = false`. -/
def withServer (serv : ServerName) (val : List ServerName) : List ServerName :=
  if serv ∈ val then val else serv :: val

/-- The client with a worker's new state. -/
def Client.setTransfer (st : Client) (serv : ServerName) (t : Transfer) : Client :=
  {st with transfer := Function.update st.transfer serv t}

/-- The client with a retry worker's new state. -/
def Client.setRetry (st : Client) (serv : ServerName) (phase : RetryPhase) : Client :=
  {st with retry := Function.update st.retry serv phase}

/-- The client with a retry queue changed. -/
def Client.setRetryQ (st : Client) (serv : ServerName) (queue : List FileName) : Client :=
  {st with retryQ := Function.update st.retryQ serv queue}

/-- The request that a transfer worker takes on. With a bad connection it rejects the
requests of the send worker. -/
def accepted (t : Transfer) (requester : Requester) (fileName : FileName) (opened : Bool) :
    TransferPhase :=
  if t.connectionOkay then .handling requester fileName opened
  else .answering requester fileName (.failure true) false

/-- One step, where it can be taken. -/
def step (cfg : ClientConfig) (st : Client) : Event → Option Client
  | .arrive fileName => some {st with
      sourceDir := Function.update st.sourceDir fileName true
      newFiles := fileName :: st.newFiles}
  | .takeFile fileName =>
    if st.send = .idle ∧ fileName ∈ st.newFiles then
      some {st with
        newFiles := st.newFiles.erase fileName
        send := sendNext fileName cfg.connectedServers false}
    else none
  | .acceptSend serv =>
    match st.send with
    | .requesting cur =>
      if cur.serv = serv ∧ (st.transfer serv).phase = .ready then
        some {st.setTransfer serv {st.transfer serv with
            phase := accepted (st.transfer serv) .send cur.fileName (st.sourceDir cur.fileName)}
          with send := .awaiting cur}
      else none
    | _ => none
  | .acceptRetry serv =>
    match st.retry serv with
    | .requesting fileName =>
      if (st.transfer serv).connectionOkay ∧ (st.transfer serv).phase = .ready then
        some ((st.setTransfer serv {st.transfer serv with
          phase := .handling .retry fileName (st.errorDir fileName)}).setRetry serv
            (.awaiting fileName))
      else none
    | _ => none
  | .handled serv resp =>
    match (st.transfer serv).phase with
    | .handling requester fileName opened =>
      if resp = .success → opened = true then
        some (st.setTransfer serv {st.transfer serv with
          phase := .answering requester fileName resp true})
      else none
    | _ => none
  | .answer serv =>
    match (st.transfer serv).phase with
    | .answering .send fileName resp counted =>
      match st.send with
      | .awaiting cur =>
        some {st.setTransfer serv ((st.transfer serv).answered cfg resp counted) with
          send := sendAnswered cur resp
          answers := (fileName, serv, resp) :: st.answers}
      | _ => none
    | .answering .retry fileName resp counted =>
      match st.retry serv with
      | .awaiting held =>
        some {(st.setTransfer serv ((st.transfer serv).answered cfg resp counted)).setRetry serv
            (retryAnswered held resp) with
          answers := (fileName, serv, resp) :: st.answers}
      | _ => none
    | _ => none
  | .keepAliveFailed serv =>
    if (st.transfer serv).connectionOkay ∧ (st.transfer serv).phase = .ready then
      some (st.setTransfer serv {st.transfer serv with connectionOkay := false})
    else none
  | .reestablished serv =>
    if (st.transfer serv).connectionOkay = false ∧ (st.transfer serv).phase = .ready then
      some (st.setTransfer serv {st.transfer serv with
        connectionOkay := true
        numFailures := 0})
    else none
  | .sendGet =>
    match st.send with
    | .getting cur retryable =>
      some {st with
        send := .setting cur retryable (withServer cur.serv (st.db cur.fileName))}
    | _ => none
  | .sendSet =>
    match st.send with
    | .setting cur retryable val =>
      some {st with
        db := Function.update st.db cur.fileName val
        send := if cur.failed then sendFailed cur retryable else .copying cur retryable}
    | _ => none
  | .sendCopy =>
    match st.send with
    | .copying cur retryable =>
      some {st with
        errorDir := Function.update st.errorDir cur.fileName true
        send := sendFailed {cur with failed := true} retryable}
    | _ => none
  | .sendRetry =>
    match st.send with
    | .queueing cur =>
      if (st.retryQ cur.serv).length < cfg.bufSz then
        some {st.setRetryQ cur.serv (st.retryQ cur.serv ++ [cur.fileName]) with
          send := sendNext cur.fileName cur.rest cur.failed}
      else none
    | _ => none
  | .sendClear =>
    match st.send with
    | .clearing fileName =>
      if st.clearQ.length < cfg.bufSz then
        some {st with
          clearQ := st.clearQ ++ [.source fileName]
          send := .idle}
      else none
    | _ => none
  | .takeRetry serv =>
    match st.retry serv, st.retryQ serv with
    | .idle, fileName :: rest =>
      some ((st.setRetryQ serv rest).setRetry serv (.requesting fileName))
    | _, _ => none
  | .requeueRetry serv =>
    match st.retry serv with
    | .requeueing fileName =>
      if (st.retryQ serv).length < cfg.bufSz then
        some ((st.setRetryQ serv (st.retryQ serv ++ [fileName])).setRetry serv .idle)
      else none
    | _ => none
  | .retryGet serv =>
    match st.retry serv with
    | .getting fileName =>
      match st.db fileName with
      | [] => some (st.setRetry serv (.clearing fileName))
      | val => some (st.setRetry serv (.writing fileName (val.filter (· ≠ serv))))
    | _ => none
  | .retryWrite serv =>
    match st.retry serv with
    | .writing fileName val =>
      some {st.setRetry serv (if val = [] then .clearing fileName else .idle) with
        db := Function.update st.db fileName val}
    | _ => none
  | .retryClear serv =>
    match st.retry serv with
    | .clearing fileName =>
      if st.clearQ.length < cfg.bufSz then
        some {st.setRetry serv .idle with clearQ := st.clearQ ++ [.error fileName]}
      else none
    | _ => none
  | .takeClear =>
    match st.clear, st.clearQ with
    | .idle, filePath :: rest =>
      some {st with
        clearQ := rest
        clear := .removing filePath}
    | _, _ => none
  | .remove fails =>
    match st.clear with
    | .removing filePath =>
      some (if fails then {st with clear := .requeueing filePath}
        else match filePath with
          | .source fileName => {st with
              sourceDir := Function.update st.sourceDir fileName false
              clear := .idle}
          | .error fileName => {st with
              errorDir := Function.update st.errorDir fileName false
              clear := .idle})
    | _ => none
  | .requeueClear =>
    match st.clear with
    | .requeueing filePath =>
      if st.clearQ.length < cfg.bufSz then
        some {st with
          clearQ := st.clearQ ++ [filePath]
          clear := .idle}
      else none
    | _ => none

/-!
## The start of a client

A client starts to watch its source directory, reads it, and takes the events that are there
already, so as not to queue a file twice. In a tar mode it then does the same for the files
that wait in its subdirectory. Later events come to the monitor. Files of the error directory
are queued again for the servers in their records.
-/

/-- `metaArchiveExtension`. -/
def metaArchiveExtension : String := ".metatargz"

/-- `strings.HasSuffix`. -/
def hasSuffix (s suffix : String) : Bool := suffix.toList.isSuffixOf s.toList

/-- `strings.Contains`. -/
def contains (s substr : String) : Bool := s.toList.tails.any (substr.toList.isPrefixOf ·)

/-- `cfg.Tar.Mode`. -/
inductive TarMode where
  | default
  | tar
  | untar
  deriving DecidableEq, Repr

/-- What the configuration says about the files of a client. -/
structure SourceConfig where
  mode : TarMode
  /-- `cfg.Ext` as configured. -/
  configuredExt : String
  /-- `cfg.Tar.ExtractedExtension`. -/
  extractedExtension : String
  /-- In untar mode any other extension is a configuration error. -/
  untar_ext : mode = .untar → configuredExt = "" ∨ configuredExt = metaArchiveExtension

/-- `newClient.config.Ext`. -/
def SourceConfig.ext (cfg : SourceConfig) : String :=
  match cfg.mode with
  | .untar => metaArchiveExtension
  | _ => cfg.configuredExt

/-- An entry of a directory. -/
structure Entry where
  name : FileName
  isDir : Bool
  deriving DecidableEq, Repr

/-- `os.Stat`. -/
def stat (directory : List Entry) (fileName : FileName) : Option Entry :=
  directory.find? (·.name = fileName)

/-- What the client finds at its host. -/
structure Host where
  /-- The file name that is read back from the text of an event. -/
  eventName : FileName → FileName
  modTime : FileName → ℤ
  /-- The source directory before the start. -/
  directory : List Entry
  directory_nodup : (directory.map Entry.name).Nodup
  /-- The subdirectory of the mode. -/
  subdirectory : List Entry
  subdirectory_nodup : (subdirectory.map Entry.name).Nodup

/-- Whether the client leaves the file alone. -/
def doesNotCareAbout (fileInfo : Entry) (ext : String) : Bool :=
  fileInfo.isDir || !hasSuffix fileInfo.name ext

/-- The file of an event, unless it is skipped. -/
def getFileFromWatcherEvent (host : Host) (directory : List Entry) (ev : FileName)
    (ext : String) : Option FileName :=
  match stat directory (host.eventName ev) with
  | none => none
  | some fileInfo => if doesNotCareAbout fileInfo ext then none else some fileInfo.name

/-- The files of a directory that are queued at the start, by their time of modification:
those that were read, unless the watcher has seen them, and those that the watcher has seen. -/
def sortInitialFilesIntoQueue (host : Host) (directory infos dirContentsFromRead : List Entry)
    (filesSeenByWatcher : List FileName) (ext : String) : List FileName :=
  let read := dirContentsFromRead.filterMap fun dirEntry =>
    match stat infos dirEntry.name with
    | none => none
    | some info =>
      if info.name ∈ filesSeenByWatcher then none
      else if doesNotCareAbout info ext then none
      else some info.name
  let seen := filesSeenByWatcher.filterMap fun newFileName =>
    (stat directory newFileName).map Entry.name
  (read ++ seen).insertionSort fun a b => host.modTime a ≤ host.modTime b

/-! ## Steps -/

/-- Where `createClient` is. -/
inductive Stage where
  /-- Before the watch is added. -/
  | creating
  /-- Before the source directory is read. -/
  | watching
  /-- Takes the events that are there. -/
  | drainingSource
  /-- Before the subdirectory is read. -/
  | sourceRead
  /-- Takes the events that are there, again. -/
  | drainingSub
  /-- Events go to the monitor. -/
  | monitoring
  deriving DecidableEq, Repr

/-- A client that starts. -/
structure Startup where
  stage : Stage
  /-- The source directory. -/
  directory : List Entry
  /-- Events that have not been received, the first one first. -/
  events : List FileName
  /-- The source directory as it was read. -/
  dirContents : List Entry
  filesSeenByWatcher : List FileName
  /-- The files seen while the subdirectory was read. -/
  subSeenByWatcher : List FileName
  /-- The goroutine that queues the files of the source directory has run. -/
  sourceLoaded : Bool
  /-- The goroutine that queues the files of the subdirectory has run. -/
  subLoaded : Bool
  newFilesQ : List FileName
  tarQOut : List FileName
  deriving DecidableEq, Repr

/-- Before `createClient`. -/
def Startup.initial (directory : List Entry) : Startup :=
  ⟨.creating, directory, [], [], [], [], false, false, [], []⟩

/-- What happens while a client starts. -/
inductive StartEvent where
  /-- Somebody opens a new file for writing, or makes a directory. -/
  | create (entry : Entry)
  /-- Somebody closes a file after writing. -/
  | closeWrite (fileName : FileName)
  /-- Somebody moves a file or a directory here. -/
  | moveIn (entry : Entry)
  /-- A file that was queued has been dealt with, and is removed. -/
  | cleared (fileName : FileName)
  | addWatch
  | readSource
  /-- The drain receives an event. -/
  | receive
  /-- No event is ready to be received. -/
  | noMoreNewFiles
  | readSub
  /-- The goroutine queues the files of the source directory. -/
  | loadSource
  /-- The goroutine queues the files of the subdirectory. -/
  | loadSub
  /-- The monitor receives an event. -/
  | monitor
  deriving DecidableEq, Repr

/-- A file arrives: an event, where the directory is watched. -/
def Startup.notify (st : Startup) (fileName : FileName) : Startup :=
  if st.stage = .creating then st else {st with events := st.events ++ [fileName]}

/-- A new entry of the directory. -/
def Startup.withEntry (st : Startup) (entry : Entry) : Startup :=
  {st with directory := st.directory ++ [entry]}

/-- A name in a map of names. -/
def addSeen (seen : List FileName) (fileName : FileName) : List FileName :=
  if fileName ∈ seen then seen else seen ++ [fileName]

/-- `filesSeenByWatcher` after an event. -/
def seenAfter (seen : List FileName) : Option FileName → List FileName
  | none => seen
  | some fileName => addSeen seen fileName

/-- The extension of the files in the subdirectory, as `createClient` filters them. -/
def SourceConfig.subExt (cfg : SourceConfig) : String :=
  match cfg.mode with
  | .tar => metaArchiveExtension
  | _ => cfg.ext

/-- One step, where it can be taken. -/
def startStep (cfg : SourceConfig) (host : Host) (st : Startup) : StartEvent → Option Startup
  | .create entry => if (stat st.directory entry.name).isSome then none else some (st.withEntry entry)
  | .closeWrite fileName =>
    match stat st.directory fileName with
    | some ⟨_, false⟩ => some (st.notify fileName)
    | _ => none
  | .moveIn entry =>
    match stat st.directory entry.name with
    | none => some ((st.withEntry entry).notify entry.name)
    | some replaced =>
      if replaced.isDir = entry.isDir then some (st.notify entry.name) else none
  | .cleared fileName =>
    if fileName ∈ st.newFilesQ then
      some {st with directory := st.directory.filter (·.name ≠ fileName)}
    else none
  | .addWatch => if st.stage = .creating then some {st with stage := .watching} else none
  | .readSource =>
    if st.stage = .watching then
      some {st with
        stage := .drainingSource
        dirContents := st.directory}
    else none
  | .receive =>
    match st.stage, st.events with
    | .drainingSource, ev :: rest =>
      some {st with
        events := rest
        filesSeenByWatcher := seenAfter st.filesSeenByWatcher
          (getFileFromWatcherEvent host st.directory ev cfg.ext)}
    | .drainingSub, ev :: rest =>
      some {st with
        events := rest
        subSeenByWatcher := seenAfter st.subSeenByWatcher
          (getFileFromWatcherEvent host st.directory ev cfg.subExt)}
    | _, _ => none
  | .noMoreNewFiles =>
    match st.stage with
    | .drainingSource =>
      some {st with stage := if cfg.mode = .default then .monitoring else .sourceRead}
    | .drainingSub => some {st with stage := .monitoring}
    | _ => none
  | .readSub => if st.stage = .sourceRead then some {st with stage := .drainingSub} else none
  | .loadSource =>
    if st.stage ∈ [.sourceRead, .drainingSub, .monitoring] ∧ st.sourceLoaded = false then
      some {st with
        sourceLoaded := true
        newFilesQ := st.newFilesQ ++ sortInitialFilesIntoQueue host st.directory st.directory
          st.dirContents st.filesSeenByWatcher cfg.ext}
    else none
  | .loadSub =>
    if cfg.mode ≠ .default ∧ st.stage = .monitoring ∧ st.subLoaded = false then
      some {st with
        subLoaded := true
        tarQOut := st.tarQOut ++ sortInitialFilesIntoQueue host st.directory host.subdirectory
          host.subdirectory st.subSeenByWatcher cfg.subExt}
    else none
  | .monitor =>
    match st.stage, st.events with
    | .monitoring, ev :: rest =>
      some {st with
        events := rest
        newFilesQ := st.newFilesQ ++
          (getFileFromWatcherEvent host st.directory ev cfg.ext).toList}
    | _, _ => none

/-!
## The steps that a client can take

Every step that is taken is one of these, with what it needs and the state it leaves.
-/

/-- A step that is taken. -/
inductive Taken (cfg : ClientConfig) (st : Client) : Event → Client → Prop where
  | arrive (fileName : FileName) : Taken cfg st (.arrive fileName) {st with
      sourceDir := Function.update st.sourceDir fileName true
      newFiles := fileName :: st.newFiles}
  | takeFile {fileName : FileName} (send : st.send = .idle) (noticed : fileName ∈ st.newFiles) :
      Taken cfg st (.takeFile fileName) {st with
        newFiles := st.newFiles.erase fileName
        send := sendNext fileName cfg.connectedServers false}
  | acceptSend {cur : SendLoop} (send : st.send = .requesting cur)
      (ready : (st.transfer cur.serv).phase = .ready) :
      Taken cfg st (.acceptSend cur.serv) {st.setTransfer cur.serv {st.transfer cur.serv with
          phase := accepted (st.transfer cur.serv) .send cur.fileName (st.sourceDir cur.fileName)}
        with send := .awaiting cur}
  | acceptRetry {serv : ServerName} {fileName : FileName}
      (retry : st.retry serv = .requesting fileName)
      (connectionOkay : (st.transfer serv).connectionOkay = true)
      (ready : (st.transfer serv).phase = .ready) :
      Taken cfg st (.acceptRetry serv) ((st.setTransfer serv {st.transfer serv with
        phase := .handling .retry fileName (st.errorDir fileName)}).setRetry serv
          (.awaiting fileName))
  | handled {serv : ServerName} {requester : Requester} {fileName : FileName} {opened : Bool}
      {resp : Answer} (phase : (st.transfer serv).phase = .handling requester fileName opened)
      (possible : resp = .success → opened = true) :
      Taken cfg st (.handled serv resp) (st.setTransfer serv {st.transfer serv with
        phase := .answering requester fileName resp true})
  | answerSend {serv : ServerName} {fileName : FileName} {resp : Answer} {counted : Bool}
      {cur : SendLoop} (phase : (st.transfer serv).phase = .answering .send fileName resp counted)
      (send : st.send = .awaiting cur) :
      Taken cfg st (.answer serv)
        {st.setTransfer serv ((st.transfer serv).answered cfg resp counted) with
          send := sendAnswered cur resp
          answers := (fileName, serv, resp) :: st.answers}
  | answerRetry {serv : ServerName} {fileName held : FileName} {resp : Answer} {counted : Bool}
      (phase : (st.transfer serv).phase = .answering .retry fileName resp counted)
      (retry : st.retry serv = .awaiting held) :
      Taken cfg st (.answer serv)
        {(st.setTransfer serv ((st.transfer serv).answered cfg resp counted)).setRetry serv
            (retryAnswered held resp) with
          answers := (fileName, serv, resp) :: st.answers}
  | keepAliveFailed {serv : ServerName}
      (connectionOkay : (st.transfer serv).connectionOkay = true)
      (ready : (st.transfer serv).phase = .ready) :
      Taken cfg st (.keepAliveFailed serv)
        (st.setTransfer serv {st.transfer serv with connectionOkay := false})
  | reestablished {serv : ServerName}
      (connectionOkay : (st.transfer serv).connectionOkay = false)
      (ready : (st.transfer serv).phase = .ready) :
      Taken cfg st (.reestablished serv) (st.setTransfer serv {st.transfer serv with
        connectionOkay := true
        numFailures := 0})
  | sendGet {cur : SendLoop} {retryable : Bool} (send : st.send = .getting cur retryable) :
      Taken cfg st .sendGet {st with
        send := .setting cur retryable (withServer cur.serv (st.db cur.fileName))}
  | sendSet {cur : SendLoop} {retryable : Bool} {val : List ServerName}
      (send : st.send = .setting cur retryable val) :
      Taken cfg st .sendSet {st with
        db := Function.update st.db cur.fileName val
        send := if cur.failed then sendFailed cur retryable else .copying cur retryable}
  | sendCopy {cur : SendLoop} {retryable : Bool} (send : st.send = .copying cur retryable) :
      Taken cfg st .sendCopy {st with
        errorDir := Function.update st.errorDir cur.fileName true
        send := sendFailed {cur with failed := true} retryable}
  | sendRetry {cur : SendLoop} (send : st.send = .queueing cur)
      (room : (st.retryQ cur.serv).length < cfg.bufSz) :
      Taken cfg st .sendRetry
        {st.setRetryQ cur.serv (st.retryQ cur.serv ++ [cur.fileName]) with
          send := sendNext cur.fileName cur.rest cur.failed}
  | sendClear {fileName : FileName} (send : st.send = .clearing fileName)
      (room : st.clearQ.length < cfg.bufSz) :
      Taken cfg st .sendClear {st with
        clearQ := st.clearQ ++ [.source fileName]
        send := .idle}
  | takeRetry {serv : ServerName} {fileName : FileName} {rest : List FileName}
      (retry : st.retry serv = .idle) (queue : st.retryQ serv = fileName :: rest) :
      Taken cfg st (.takeRetry serv)
        ((st.setRetryQ serv rest).setRetry serv (.requesting fileName))
  | requeueRetry {serv : ServerName} {fileName : FileName}
      (retry : st.retry serv = .requeueing fileName)
      (room : (st.retryQ serv).length < cfg.bufSz) :
      Taken cfg st (.requeueRetry serv)
        ((st.setRetryQ serv (st.retryQ serv ++ [fileName])).setRetry serv .idle)
  | retryMissing {serv : ServerName} {fileName : FileName}
      (retry : st.retry serv = .getting fileName) (record : st.db fileName = []) :
      Taken cfg st (.retryGet serv) (st.setRetry serv (.clearing fileName))
  | retryGet {serv : ServerName} {fileName : FileName}
      (retry : st.retry serv = .getting fileName) (record : st.db fileName ≠ []) :
      Taken cfg st (.retryGet serv)
        (st.setRetry serv (.writing fileName ((st.db fileName).filter (· ≠ serv))))
  | retryWrite {serv : ServerName} {fileName : FileName} {val : List ServerName}
      (retry : st.retry serv = .writing fileName val) :
      Taken cfg st (.retryWrite serv)
        {st.setRetry serv (if val = [] then .clearing fileName else .idle) with
          db := Function.update st.db fileName val}
  | retryClear {serv : ServerName} {fileName : FileName}
      (retry : st.retry serv = .clearing fileName) (room : st.clearQ.length < cfg.bufSz) :
      Taken cfg st (.retryClear serv)
        {st.setRetry serv .idle with clearQ := st.clearQ ++ [.error fileName]}
  | takeClear {filePath : FilePath} {rest : List FilePath} (clear : st.clear = .idle)
      (queue : st.clearQ = filePath :: rest) :
      Taken cfg st .takeClear {st with
        clearQ := rest
        clear := .removing filePath}
  | removeFails {filePath : FilePath} (clear : st.clear = .removing filePath) :
      Taken cfg st (.remove true) {st with clear := .requeueing filePath}
  | removeSource {fileName : FileName} (clear : st.clear = .removing (.source fileName)) :
      Taken cfg st (.remove false) {st with
        sourceDir := Function.update st.sourceDir fileName false
        clear := .idle}
  | removeError {fileName : FileName} (clear : st.clear = .removing (.error fileName)) :
      Taken cfg st (.remove false) {st with
        errorDir := Function.update st.errorDir fileName false
        clear := .idle}
  | requeueClear {filePath : FilePath} (clear : st.clear = .requeueing filePath)
      (room : st.clearQ.length < cfg.bufSz) :
      Taken cfg st .requeueClear {st with
        clearQ := st.clearQ ++ [filePath]
        clear := .idle}

variable {cfg : ClientConfig} {st st' : Client} {event : Event} {connected : ServerName → Bool}

theorem taken_of_step (h : step cfg st event = some st') : Taken cfg st event st' := by
  cases event with
  | arrive fileName =>
    cases h
    exact .arrive fileName
  | takeFile fileName =>
    simp only [step] at h
    split_ifs at h with hcan
    cases h
    exact .takeFile hcan.1 hcan.2
  | acceptSend serv =>
    simp only [step] at h
    split at h
    next cur hsend =>
      split_ifs at h with hcan
      obtain ⟨rfl, hready⟩ := hcan
      cases h
      exact .acceptSend hsend hready
    · cases h
  | acceptRetry serv =>
    simp only [step] at h
    split at h
    next fileName hretry =>
      split_ifs at h with hcan
      cases h
      exact .acceptRetry hretry hcan.1 hcan.2
    · cases h
  | handled serv resp =>
    simp only [step] at h
    split at h
    next hphase =>
      split_ifs at h with hcan
      cases h
      exact .handled hphase hcan
    · cases h
  | answer serv =>
    simp only [step] at h
    split at h
    next hphase =>
      split at h
      next hsend =>
        cases h
        exact .answerSend hphase hsend
      · cases h
    next hphase =>
      split at h
      next hretry =>
        cases h
        exact .answerRetry hphase hretry
      · cases h
    · cases h
  | keepAliveFailed serv =>
    simp only [step] at h
    split_ifs at h with hcan
    cases h
    exact .keepAliveFailed hcan.1 hcan.2
  | reestablished serv =>
    simp only [step] at h
    split_ifs at h with hcan
    cases h
    exact .reestablished hcan.1 hcan.2
  | sendGet =>
    simp only [step] at h
    split at h
    next hsend =>
      cases h
      exact .sendGet hsend
    · cases h
  | sendSet =>
    simp only [step] at h
    split at h
    next hsend =>
      cases h
      exact .sendSet hsend
    · cases h
  | sendCopy =>
    simp only [step] at h
    split at h
    next hsend =>
      cases h
      exact .sendCopy hsend
    · cases h
  | sendRetry =>
    simp only [step] at h
    split at h
    next hsend =>
      split_ifs at h with hroom
      cases h
      exact .sendRetry hsend hroom
    · cases h
  | sendClear =>
    simp only [step] at h
    split at h
    next hsend =>
      split_ifs at h with hroom
      cases h
      exact .sendClear hsend hroom
    · cases h
  | takeRetry serv =>
    simp only [step] at h
    split at h
    next hretry hqueue =>
      cases h
      exact .takeRetry hretry hqueue
    · cases h
  | requeueRetry serv =>
    simp only [step] at h
    split at h
    next hretry =>
      split_ifs at h with hroom
      cases h
      exact .requeueRetry hretry hroom
    · cases h
  | retryGet serv =>
    simp only [step] at h
    split at h
    next hretry =>
      split at h
      next hrecord =>
        cases h
        exact .retryMissing hretry hrecord
      next hrecord =>
        cases h
        exact .retryGet hretry hrecord
    · cases h
  | retryWrite serv =>
    simp only [step] at h
    split at h
    next hretry =>
      cases h
      exact .retryWrite hretry
    · cases h
  | retryClear serv =>
    simp only [step] at h
    split at h
    next hretry =>
      split_ifs at h with hroom
      cases h
      exact .retryClear hretry hroom
    · cases h
  | takeClear =>
    simp only [step] at h
    split at h
    next hclear hqueue =>
      cases h
      exact .takeClear hclear hqueue
    · cases h
  | remove fails =>
    simp only [step] at h
    split at h
    next filePath hclear =>
      cases fails with
      | true =>
        cases h
        exact .removeFails hclear
      | false =>
        cases filePath with
        | source fileName =>
          cases h
          exact .removeSource hclear
        | error fileName =>
          cases h
          exact .removeError hclear
    · cases h
  | requeueClear =>
    simp only [step] at h
    split at h
    next hclear =>
      split_ifs at h with hroom
      cases h
      exact .requeueClear hclear hroom
    · cases h

/-! ## Runs -/

/-- A run of steps, where each can be taken. -/
def run (cfg : ClientConfig) (connected : ServerName → Bool) (events : List Event) :
    Option Client := events.foldlM (step cfg) (started connected)

theorem run_concat (cfg : ClientConfig) (connected : ServerName → Bool) (before : List Event)
    (event : Event) :
    run cfg connected (before ++ [event]) = (run cfg connected before).bind (step cfg · event) := by
  simp [run]

/-- A run with one step more took its first steps, and then this one. -/
theorem of_run_concat {before : List Event} (h : run cfg connected (before ++ [event]) = some st') :
    ∃ st, run cfg connected before = some st ∧ Taken cfg st event st' := by
  rw [run_concat, Option.bind_eq_some_iff] at h
  obtain ⟨st, hst, hstep⟩ := h
  exact ⟨st, hst, taken_of_step hstep⟩

/-- What holds at the start and is kept by every step holds after every run. -/
theorem run_invariant {cfg : ClientConfig} {connected : ServerName → Bool} {I : Client → Prop}
    (hstart : I (started connected))
    (hstep : ∀ st event st', I st → Taken cfg st event st' → I st') {events : List Event}
    {st : Client} (hrun : run cfg connected events = some st) : I st := by
  induction events using List.reverseRecOn generalizing st with
  | nil =>
    cases hrun
    exact hstart
  | append_singleton before event ih =>
    obtain ⟨mid, hmid, htaken⟩ := of_run_concat hrun
    exact hstep mid event st (ih hmid) htaken

/-! ## Requests and answers -/

/-- The request that a transfer worker serves. -/
def TransferPhase.serves : TransferPhase → Option (Requester × FileName)
  | .ready => none
  | .handling requester fileName _ => some (requester, fileName)
  | .answering requester fileName _ _ => some (requester, fileName)

@[simp] theorem serves_accepted (t : Transfer) (requester : Requester) (fileName : FileName)
    (opened : Bool) : (accepted t requester fileName opened).serves = some (requester, fileName) := by
  simp only [accepted]
  split_ifs <;> rfl

@[simp] theorem answered_phase (cfg : ClientConfig) (t : Transfer) (resp : Answer)
    (counted : Bool) : (t.answered cfg resp counted).phase = .ready := by
  simp only [Transfer.answered]
  split_ifs <;> rfl

/-- Whoever made the request waits for the answer. -/
def Awaited (st : Client) (serv : ServerName) (fileName : FileName) : Requester → Prop
  | .send => ∃ cur, st.send = .awaiting cur ∧ cur.serv = serv ∧ cur.fileName = fileName
  | .retry => st.retry serv = .awaiting fileName

/-- Every request that is served is awaited. -/
def AnswersAwaited (st : Client) : Prop :=
  ∀ serv requester fileName, (st.transfer serv).phase.serves = some (requester, fileName) →
    Awaited st serv fileName requester

theorem answersAwaited_started (connected : ServerName → Bool) :
    AnswersAwaited (started connected) := by
  intro serv requester fileName h
  simp [started, TransferPhase.serves] at h

/-- Workers that wait for an answer go on waiting, and no request is taken on. -/
theorem AnswersAwaited.of_waiting (h : AnswersAwaited st)
    (hserves : ∀ serv, (st'.transfer serv).phase.serves = (st.transfer serv).phase.serves)
    (hsend : ∀ cur, st.send = .awaiting cur → st'.send = .awaiting cur)
    (hretry : ∀ serv fileName, st.retry serv = .awaiting fileName →
      st'.retry serv = .awaiting fileName) : AnswersAwaited st' := by
  intro serv requester fileName hserv
  rw [hserves] at hserv
  have hawaited := h serv requester fileName hserv
  cases requester with
  | send =>
    obtain ⟨cur, hcur, hat⟩ := hawaited
    exact ⟨cur, hsend cur hcur, hat⟩
  | retry => exact hretry serv fileName hawaited

/-- A retry worker that was not waiting has moved on. -/
theorem retry_keeps_awaiting {serv : ServerName} {phase : RetryPhase}
    (hnot : ∀ fileName, st.retry serv ≠ .awaiting fileName) (other : ServerName)
    (fileName : FileName) (h : st.retry other = .awaiting fileName) :
    Function.update st.retry serv phase other = .awaiting fileName := by
  by_cases heq : other = serv
  · subst heq
    exact absurd h (hnot fileName)
  · rw [Function.update_of_ne heq, h]

theorem AnswersAwaited.step {cfg : ClientConfig} {st st' : Client} {event : Event}
    (h : AnswersAwaited st) (htaken : Taken cfg st event st') : AnswersAwaited st' := by
  cases htaken with
  | arrive | takeClear | removeFails | removeSource | removeError | requeueClear =>
    exact h.of_waiting (fun _ => rfl) (fun _ h => h) (fun _ _ h => h)
  | takeFile hsend | sendGet hsend | sendSet hsend | sendCopy hsend | sendRetry hsend
  | sendClear hsend =>
    refine h.of_waiting (fun _ => rfl) (fun cur hcur => ?_) (fun _ _ h => h)
    rw [hsend] at hcur
    cases hcur
  | takeRetry hretry | requeueRetry hretry | retryMissing hretry | retryGet hretry
  | retryWrite hretry | retryClear hretry =>
    refine h.of_waiting (fun _ => rfl) (fun _ h => h) ?_
    refine retry_keeps_awaiting fun fileName heq => ?_
    rw [hretry] at heq
    cases heq
  | @handled serv requester fileName opened resp hphase =>
    refine h.of_waiting (fun other => ?_) (fun _ h => h) (fun _ _ h => h)
    by_cases heq : other = serv
    · subst heq
      simp [Client.setTransfer, TransferPhase.serves, hphase]
    · simp [Client.setTransfer, Function.update_of_ne heq]
  | @keepAliveFailed serv _ hready | @reestablished serv _ hready =>
    refine h.of_waiting (fun other => ?_) (fun _ h => h) (fun _ _ h => h)
    by_cases heq : other = serv
    · subst heq
      simp [Client.setTransfer]
    · simp [Client.setTransfer, Function.update_of_ne heq]
  | @acceptSend cur hsend hready =>
    intro serv requester fileName hserves
    by_cases heq : serv = cur.serv
    · subst heq
      simp only [Client.setTransfer, Function.update_self, serves_accepted] at hserves
      obtain ⟨rfl, rfl⟩ := hserves
      exact ⟨cur, rfl, rfl, rfl⟩
    · simp only [Client.setTransfer, Function.update_of_ne heq] at hserves
      have hawaited := h serv requester fileName hserves
      cases requester with
      | send =>
        obtain ⟨held, hheld, _⟩ := hawaited
        rw [hsend] at hheld
        cases hheld
      | retry => exact hawaited
  | @acceptRetry serv fileName hretry _ hready =>
    intro other requester served hserves
    by_cases heq : other = serv
    · subst heq
      simp only [Client.setRetry, Client.setTransfer, Function.update_self] at hserves
      obtain ⟨rfl, rfl⟩ := hserves
      simp [Awaited, Client.setRetry]
    · simp only [Client.setRetry, Client.setTransfer, Function.update_of_ne heq] at hserves
      have hawaited := h other requester served hserves
      cases requester with
      | send => exact hawaited
      | retry =>
        simp only [Awaited, Client.setRetry, Function.update_of_ne heq]
        exact hawaited
  | @answerSend serv fileName resp counted cur hphase hsend =>
    intro other requester served hserves
    by_cases heq : other = serv
    · subst heq
      simp [Client.setTransfer, TransferPhase.serves] at hserves
    · simp only [Client.setTransfer, Function.update_of_ne heq] at hserves
      have hawaited := h other requester served hserves
      cases requester with
      | send =>
        have hthis := h serv .send fileName (by simp [hphase, TransferPhase.serves])
        obtain ⟨held, hheld, hat, _⟩ := hawaited
        obtain ⟨held', hheld', hat', _⟩ := hthis
        rw [hheld] at hheld'
        cases hheld'
        exact absurd (hat.symm.trans hat') heq
      | retry => exact hawaited
  | @answerRetry serv fileName held resp counted hphase hretry =>
    intro other requester served hserves
    by_cases heq : other = serv
    · subst heq
      simp [Client.setRetry, Client.setTransfer, TransferPhase.serves] at hserves
    · simp only [Client.setRetry, Client.setTransfer, Function.update_of_ne heq] at hserves
      have hawaited := h other requester served hserves
      cases requester with
      | send => exact hawaited
      | retry =>
        simp only [Awaited, Client.setRetry, Function.update_of_ne heq]
        exact hawaited

theorem answersAwaited_of_run {events : List Event} (hrun : run cfg connected events = some st) :
    AnswersAwaited st :=
  run_invariant (answersAwaited_started connected) (fun _ _ _ h htaken => h.step htaken) hrun

end HybridOs.CloudSync
