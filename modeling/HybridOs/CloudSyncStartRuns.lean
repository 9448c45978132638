import HybridOs.CloudSync
import Mathlib.Data.List.Infix

/-!
# Files that are queued once at the start

Along every start a file of the source directory is queued once: from the directory as it was
read, from the events taken while it was read, or from the monitor. A file is missed where its
event is taken while the subdirectory is read, and doubled where its event comes to the
monitor although it had been read.
-/

namespace HybridOs.CloudSync

variable {fileName : FileName} {info : Entry} {directory : List Entry}

theorem name_of_stat (h : stat directory fileName = some info) : info.name = fileName := by
  simpa using List.find?_some h

theorem mem_of_stat (h : stat directory fileName = some info) :
    info ∈ directory := List.mem_of_find?_eq_some h

variable {entry : Entry}

theorem stat_of_mem (hnodup : (directory.map Entry.name).Nodup) (h : entry ∈ directory) :
    stat directory entry.name = some entry := by
  induction directory with
  | nil => cases h
  | cons first rest ih =>
    rw [List.map_cons, List.nodup_cons] at hnodup
    rcases List.mem_cons.1 h with rfl | hrest
    · simp [stat]
    · have hne : first.name ≠ entry.name := by
        intro heq
        exact hnodup.1 (heq ▸ List.mem_map_of_mem hrest)
      rw [stat, List.find?_cons_of_neg (by simpa using hne)]
      exact ih hnodup.2 hrest

theorem stat_append_of_some (h : stat directory fileName = some info) :
    stat (directory ++ [entry]) fileName = some info := by
  rw [stat, List.find?_append]
  rw [stat] at h
  rw [h]
  rfl

theorem stat_filter {removed : FileName} (hne : fileName ≠ removed) :
    stat (directory.filter (·.name ≠ removed)) fileName = stat directory fileName := by
  induction directory with
  | nil => rfl
  | cons first rest ih =>
    by_cases hfirst : first.name = fileName
    · have hkeep : first.name ≠ removed := fun heq => hne (hfirst.symm.trans heq)
      simp [stat, hfirst, hne]
    · by_cases hkeep : first.name = removed
      · simpa [stat, hkeep, Ne.symm hne] using ih
      · simpa [stat, hfirst, hkeep] using ih

/-! ## What is queued from a directory -/

section Sorted
variable (host : Host) (directory infos dirContents : List Entry) (seen : List FileName)
  (ext : String)

/-- The client cares about the file of that name. -/
def cares (directory : List Entry) (ext : String) (fileName : FileName) : Bool :=
  (stat directory fileName).any fun info => !doesNotCareAbout info ext

theorem read_eq_filter :
    (dirContents.filterMap fun dirEntry =>
      match stat infos dirEntry.name with
      | none => none
      | some info =>
        if info.name ∈ seen then none
        else if doesNotCareAbout info ext then none
        else some info.name) =
      (dirContents.map Entry.name).filter
        fun fileName => decide (fileName ∉ seen) && cares infos ext fileName := by
  induction dirContents with
  | nil => rfl
  | cons first rest ih =>
    rw [List.filterMap_cons, ih, List.map_cons, List.filter_cons]
    cases hstat : stat infos first.name with
    | none => simp [cares, hstat]
    | some info =>
      have hname := name_of_stat hstat
      by_cases hseen : first.name ∈ seen
      · simp [hname, hseen]
      · by_cases hcare : doesNotCareAbout info ext
        · simp [cares, hstat, hcare]
        · simp [cares, hstat, hname, hseen, hcare]

theorem seen_eq_filter :
    (seen.filterMap fun newFileName => (stat directory newFileName).map Entry.name) =
      seen.filter fun fileName => (stat directory fileName).isSome := by
  induction seen with
  | nil => rfl
  | cons first rest ih =>
    rw [List.filterMap_cons, ih, List.filter_cons]
    cases hstat : stat directory first with
    | none => simp
    | some info => simp [name_of_stat hstat]

/-- What is queued, whatever the times of modification: the files that were read and not seen,
and the files that were seen. -/
theorem sortInitial_perm :
    (sortInitialFilesIntoQueue host directory infos dirContents seen ext).Perm
      ((dirContents.map Entry.name).filter
          (fun fileName => decide (fileName ∉ seen) && cares infos ext fileName) ++
        seen.filter fun fileName => (stat directory fileName).isSome) := by
  rw [← read_eq_filter, ← seen_eq_filter]
  exact List.perm_insertionSort _ _

theorem mem_sortInitial {fileName : FileName} :
    fileName ∈ sortInitialFilesIntoQueue host directory infos dirContents seen ext ↔
      (fileName ∈ dirContents.map Entry.name ∧ fileName ∉ seen ∧
        cares infos ext fileName = true) ∨
      (fileName ∈ seen ∧ (stat directory fileName).isSome) := by
  rw [(sortInitial_perm host directory infos dirContents seen ext).mem_iff]
  simp only [List.mem_append, List.mem_filter, Bool.and_eq_true, decide_eq_true_eq]

/-- Nothing is queued twice from one reading. -/
theorem sortInitial_nodup (hread : (dirContents.map Entry.name).Nodup) (hseen : seen.Nodup) :
    (sortInitialFilesIntoQueue host directory infos dirContents seen ext).Nodup := by
  rw [(sortInitial_perm host directory infos dirContents seen ext).nodup_iff]
  refine List.nodup_append.2 ⟨hread.filter _, hseen.filter _, ?_⟩
  intro read hmem other hother heq
  subst heq
  rw [List.mem_filter, Bool.and_eq_true, decide_eq_true_eq] at hmem
  exact hmem.2.1 (List.mem_filter.1 hother).1

end Sorted

/-! ## What can go wrong -/

/-- The file that arrives. -/
def StartEvent.arrival : StartEvent → Option FileName
  | .closeWrite fileName => some fileName
  | .moveIn entry => some entry.name
  | _ => none

/-- The files that are to be queued, after a step. -/
def dueAfter (cfg : SourceConfig) (due : List FileName) : StartEvent → List FileName
  | .closeWrite fileName => if hasSuffix fileName cfg.ext then fileName :: due else due
  | .moveIn entry => if doesNotCareAbout entry cfg.ext then due else entry.name :: due
  | _ => due

/-- The files of the source directory that are to be queued. -/
def dueInitially (cfg : SourceConfig) (host : Host) : List FileName :=
  (host.directory.filter fun entry => !doesNotCareAbout entry cfg.ext).map Entry.name

/-- An (un)packed file that waits in the subdirectory. -/
def Waiting (cfg : SourceConfig) (host : Host) (entry : Entry) : Prop :=
  entry ∈ host.subdirectory ∧ entry.isDir = false ∧
    match cfg.mode with
    | .default => False
    | .tar => hasSuffix entry.name metaArchiveExtension = true
    | .untar => hasSuffix entry.name cfg.extractedExtension = true

/-- A step with which a file can be missed or doubled. -/
def Slips (cfg : SourceConfig) (host : Host) (st : Startup) : StartEvent → Prop
  -- the name of a file is not read back from its event
  | .closeWrite fileName => st.stage ≠ .creating ∧ host.eventName fileName ≠ fileName
  | .moveIn entry => st.stage ≠ .creating ∧ host.eventName entry.name ≠ entry.name
  -- unpacked files do not have the extension of the archives
  | .readSub => ∃ entry, Waiting cfg host entry ∧ hasSuffix entry.name metaArchiveExtension = false
  -- the event of a file that was not read comes while the subdirectory is read, or the file
  -- has the name of one that waits there
  | .receive => st.stage = .drainingSub ∧ ∃ ev rest, st.events = ev :: rest ∧
      ((cares st.directory cfg.ext ev = true ∧ ev ∉ st.dirContents.map Entry.name) ∨
        ∃ entry, Waiting cfg host entry ∧ entry.name = ev)
  -- the event of a file that was read comes to the monitor
  | .monitor => ∃ ev rest, st.events = ev :: rest ∧ cares st.directory cfg.ext ev = true ∧
      ev ∈ st.dirContents.map Entry.name
  | _ => False

/-! ## What every start keeps -/

/-- The file is in the source directory as it was read. -/
def Listed (st : Startup) (fileName : FileName) : Prop :=
  fileName ∈ st.dirContents.map Entry.name

/-- The source directory and its events: each file has one event at most, and those that are to
be queued are there until they are. -/
structure Steady (cfg : SourceConfig) (host : Host) (due arrived : List FileName)
    (st : Startup) : Prop where
  directory : (st.directory.map Entry.name).Nodup
  contents : (st.dirContents.map Entry.name).Nodup
  events_nodup : st.events.Nodup
  events : ∀ fileName ∈ st.events, fileName ∈ arrived ∧ host.eventName fileName = fileName
  seen_nodup : st.filesSeenByWatcher.Nodup
  seen : ∀ fileName ∈ st.filesSeenByWatcher, fileName ∈ arrived ∧ fileName ∉ st.events
  creating : st.stage = .creating → st.events = []
  unread : st.stage = .creating ∨ st.stage = .watching →
    st.dirContents = [] ∧ st.filesSeenByWatcher = []
  early : st.stage = .creating ∨ st.stage = .watching ∨ st.stage = .drainingSource →
    st.newFilesQ = [] ∧ st.sourceLoaded = false
  queue_nodup : st.newFilesQ.Nodup
  queued : ∀ fileName ∈ st.newFilesQ, Listed st fileName ∨ fileName ∈ st.filesSeenByWatcher ∨
    (fileName ∈ arrived ∧ fileName ∉ st.events)
  kept : ∀ fileName, Listed st fileName ∨ fileName ∈ st.filesSeenByWatcher →
    fileName ∈ st.newFilesQ ∨ (stat st.directory fileName).isSome
  loaded : st.sourceLoaded = true → ∀ fileName,
    Listed st fileName ∨ fileName ∈ st.filesSeenByWatcher →
      cares st.directory cfg.ext fileName = true → fileName ∈ st.newFilesQ
  unloaded : st.sourceLoaded = false → ∀ fileName ∈ st.newFilesQ,
    ¬ Listed st fileName ∧ fileName ∉ st.filesSeenByWatcher
  due_ext : ∀ fileName ∈ due, hasSuffix fileName cfg.ext = true
  present : ∀ fileName ∈ due,
    fileName ∈ st.newFilesQ ∨ stat st.directory fileName = some ⟨fileName, false⟩
  found : ¬ (st.stage = .creating ∨ st.stage = .watching) → ∀ fileName ∈ due,
    Listed st fileName ∨ fileName ∈ st.filesSeenByWatcher ∨ fileName ∈ st.events ∨
      fileName ∈ st.newFilesQ

section Steady
variable {cfg : SourceConfig} {host : Host} {due arrived : List FileName} {st st' : Startup}

theorem steady_initial (cfg : SourceConfig) (host : Host) :
    Steady cfg host (dueInitially cfg host) [] (Startup.initial host.directory) where
  directory := host.directory_nodup
  contents := List.nodup_nil
  events_nodup := List.nodup_nil
  events := by simp [Startup.initial]
  seen_nodup := List.nodup_nil
  seen := by simp [Startup.initial]
  creating _ := rfl
  unread _ := ⟨rfl, rfl⟩
  early _ := ⟨rfl, rfl⟩
  queue_nodup := List.nodup_nil
  queued := by simp [Startup.initial]
  kept := by simp [Startup.initial, Listed]
  loaded := by simp [Startup.initial]
  unloaded := by simp [Startup.initial]
  due_ext := by
    intro fileName hdue
    obtain ⟨entry, hentry, rfl⟩ := List.mem_map.1 hdue
    have hcare := (List.mem_filter.1 hentry).2
    simp only [doesNotCareAbout, Bool.not_or, Bool.and_eq_true, Bool.not_not] at hcare
    exact hcare.2
  present := by
    intro fileName hdue
    obtain ⟨entry, hentry, rfl⟩ := List.mem_map.1 hdue
    obtain ⟨hmem, hcare⟩ := List.mem_filter.1 hentry
    simp only [doesNotCareAbout, Bool.not_or, Bool.and_eq_true, Bool.not_eq_true'] at hcare
    right
    rw [Startup.initial, stat_of_mem host.directory_nodup hmem, ← hcare.1]
  found h := absurd (.inl rfl) h

variable {fileName ev : FileName} {entry : Entry} {rest : List FileName}

/-- A file that is to be queued and has not been is one that the client cares about. -/
theorem Steady.cares_of_due (h : Steady cfg host due arrived st) (hdue : fileName ∈ due)
    (hnot : fileName ∉ st.newFilesQ) : cares st.directory cfg.ext fileName = true := by
  have hstat := (h.present fileName hdue).resolve_left hnot
  simp [cares, hstat, doesNotCareAbout, h.due_ext fileName hdue]

/-- An event whose name is read back gives its file where the client cares about it. -/
theorem getFile_of_read {ext : String} (hread : host.eventName ev = ev) :
    getFileFromWatcherEvent host directory ev ext =
      if cares directory ext ev then some ev else none := by
  rw [getFileFromWatcherEvent, hread]
  cases hstat : stat directory ev with
  | none => simp [cares, hstat]
  | some info =>
    by_cases hcare : doesNotCareAbout info ext
    · simp [cares, hstat, hcare]
    · simp [cares, hstat, hcare, name_of_stat hstat]

/-- A file that arrives, where the directory stays. -/
theorem Steady.notify (h : Steady cfg host due arrived st) (hfresh : fileName ∉ arrived)
    (hread : st.stage ≠ .creating → host.eventName fileName = fileName) :
    Steady cfg host due (fileName :: arrived) (st.notify fileName) := by
  have hseen : ∀ other ∈ st.filesSeenByWatcher, other ≠ fileName := by
    rintro other hother rfl
    exact hfresh (h.seen other hother).1
  by_cases hstage : st.stage = .creating
  · rw [Startup.notify, if_pos hstage]
    exact { h with
      events := fun other hother => ⟨List.mem_cons_of_mem _ (h.events other hother).1,
        (h.events other hother).2⟩
      seen := fun other hother => ⟨List.mem_cons_of_mem _ (h.seen other hother).1,
        (h.seen other hother).2⟩
      queued := by
        intro other hother
        rcases h.queued other hother with hlisted | hother | ⟨harrived, hnot⟩
        · exact .inl hlisted
        · exact .inr (.inl hother)
        · exact .inr (.inr ⟨List.mem_cons_of_mem _ harrived, hnot⟩) }
  · rw [Startup.notify, if_neg hstage]
    exact { h with
      events_nodup := by
        rw [List.nodup_append_comm]
        exact List.nodup_cons.2 ⟨fun hmem => hfresh (h.events fileName hmem).1, h.events_nodup⟩
      events := by
        intro other hother
        rcases List.mem_append.1 hother with hother | hother
        · exact ⟨List.mem_cons_of_mem _ (h.events other hother).1, (h.events other hother).2⟩
        · obtain rfl := List.mem_singleton.1 hother
          exact ⟨List.mem_cons_self, hread hstage⟩
      seen := by
        intro other hother
        refine ⟨List.mem_cons_of_mem _ (h.seen other hother).1, ?_⟩
        simp [(h.seen other hother).2, hseen other hother]
      creating := fun hcreating => absurd hcreating hstage
      queued := by
        intro other hother
        rcases h.queued other hother with hlisted | hother | ⟨harrived, hnot⟩
        · exact .inl hlisted
        · exact .inr (.inl hother)
        · refine .inr (.inr ⟨List.mem_cons_of_mem _ harrived, ?_⟩)
          have hne : other ≠ fileName := by
            rintro rfl
            exact hfresh harrived
          simp [hnot, hne]
      found := by
        intro hlate other hdue
        rcases h.found hlate other hdue with hlisted | hother | hevent | hqueued
        · exact .inl hlisted
        · exact .inr (.inl hother)
        · exact .inr (.inr (.inl (List.mem_append_left _ hevent)))
        · exact .inr (.inr (.inr hqueued)) }

@[simp] theorem notify_directory (st : Startup) (fileName : FileName) :
    (st.notify fileName).directory = st.directory := by
  rw [Startup.notify]
  split_ifs <;> rfl

@[simp] theorem notify_stage (st : Startup) (fileName : FileName) :
    (st.notify fileName).stage = st.stage := by
  rw [Startup.notify]
  split_ifs <;> rfl

theorem mem_notify {st : Startup} (fileName : FileName) (h : st.stage ≠ .creating) :
    fileName ∈ (st.notify fileName).events := by
  rw [Startup.notify, if_neg h]
  simp

/-- A file that has arrived is to be queued. -/
theorem Steady.addDue (h : Steady cfg host due arrived st)
    (hext : hasSuffix fileName cfg.ext = true)
    (hstat : stat st.directory fileName = some ⟨fileName, false⟩)
    (hevent : st.stage ≠ .creating → fileName ∈ st.events) :
    Steady cfg host (fileName :: due) arrived st :=
  { h with
    due_ext := by
      intro other hdue
      rcases List.mem_cons.1 hdue with rfl | hdue
      · exact hext
      · exact h.due_ext other hdue
    present := by
      intro other hdue
      rcases List.mem_cons.1 hdue with rfl | hdue
      · exact .inr hstat
      · exact h.present other hdue
    found := by
      intro hlate other hdue
      rcases List.mem_cons.1 hdue with rfl | hdue
      · exact .inr (.inr (.inl (hevent fun hcreating => hlate (.inl hcreating))))
      · exact h.found hlate other hdue }

/-- A file or a directory that was moved here has arrived. -/
theorem Steady.moved (h : Steady cfg host due arrived st) {found : Entry}
    (hstat : stat st.directory entry.name = some found) (hkind : found.isDir = entry.isDir)
    (hfresh : entry.name ∉ arrived)
    (hread : st.stage ≠ .creating → host.eventName entry.name = entry.name) :
    Steady cfg host (dueAfter cfg due (.moveIn entry)) (entry.name :: arrived)
      (st.notify entry.name) := by
  have harrived := h.notify hfresh hread
  rw [dueAfter]
  split_ifs with hcare
  · exact harrived
  · simp only [doesNotCareAbout, Bool.or_eq_true, not_or, Bool.not_eq_true, Bool.not_eq_true',
      Bool.not_eq_false] at hcare
    refine harrived.addDue hcare.2 ?_ fun hwatched => ?_
    · have hname := name_of_stat hstat
      rw [notify_directory, hstat, ← hname, ← hcare.1, ← hkind]
    · rw [notify_stage] at hwatched
      exact mem_notify entry.name hwatched

theorem stat_append (hne : fileName ≠ entry.name) :
    stat (directory ++ [entry]) fileName = stat directory fileName := by
  rw [stat, List.find?_append]
  simp [stat, Ne.symm hne]

theorem isSome_of_cares {ext : String} (h : cares directory ext fileName = true) :
    (stat directory fileName).isSome := by
  rw [cares] at h
  cases hstat : stat directory fileName with
  | none => simp [hstat] at h
  | some info => rfl

section

variable (h : Steady cfg host due arrived st)
include h

/-- A new entry of the directory. -/
theorem Steady.withEntry (hnew : stat st.directory entry.name = none) :
    Steady cfg host due arrived (st.withEntry entry) :=
  { h with
    directory := by
      rw [Startup.withEntry, List.map_append, List.nodup_append_comm]
      refine List.nodup_cons.2 ⟨fun hmem => ?_, h.directory⟩
      obtain ⟨old, hold, hname⟩ := List.mem_map.1 hmem
      have hstat := stat_of_mem h.directory hold
      rw [hname, hnew] at hstat
      cases hstat
    kept := by
      intro fileName hlisted
      refine (h.kept fileName hlisted).imp_right fun hstat => ?_
      obtain ⟨info, hinfo⟩ := Option.isSome_iff_exists.1 hstat
      rw [Startup.withEntry, stat_append_of_some hinfo]
      rfl
    loaded := by
      intro hdone fileName hlisted hcares
      by_cases heq : fileName = entry.name
      · subst heq
        refine (h.kept _ hlisted).resolve_right ?_
        simp [hnew]
      · refine h.loaded hdone fileName hlisted ?_
        rw [Startup.withEntry, cares, stat_append heq] at hcares
        exact hcares
    present := fun fileName hdue =>
      (h.present fileName hdue).imp_right fun hstat => stat_append_of_some hstat }

/-- A queued file that is removed. -/
theorem Steady.cleared {removed : FileName} (hqueued : removed ∈ st.newFilesQ) :
    Steady cfg host due arrived
      {st with directory := st.directory.filter (·.name ≠ removed)} :=
  { h with
    directory := h.directory.sublist (List.filter_sublist.map Entry.name)
    kept := by
      intro fileName hlisted
      by_cases heq : fileName = removed
      · subst heq
        exact .inl hqueued
      · rw [stat_filter heq]
        exact h.kept fileName hlisted
    loaded := by
      intro hdone fileName hlisted hcares
      by_cases heq : fileName = removed
      · subst heq
        exact hqueued
      · rw [cares, stat_filter heq] at hcares
        exact h.loaded hdone fileName hlisted hcares
    present := by
      intro fileName hdue
      by_cases heq : fileName = removed
      · subst heq
        exact .inl hqueued
      · rw [stat_filter heq]
        exact h.present fileName hdue }

/-- The events but the first one. -/
theorem Steady.tail (hevents : st.events = ev :: rest) :
    rest.Nodup ∧ ev ∉ rest ∧ ev ∈ arrived ∧ host.eventName ev = ev ∧
      ∀ fileName ∈ rest, fileName ∈ st.events := by
  have hnodup := h.events_nodup
  rw [hevents, List.nodup_cons] at hnodup
  have hev := h.events ev (by simp [hevents])
  refine ⟨hnodup.2, hnodup.1, hev.1, hev.2, fun fileName hmem => ?_⟩
  rw [hevents]
  exact List.mem_cons_of_mem _ hmem

/-- An event is taken of a file that is accounted for otherwise, or that the client leaves
alone. -/
theorem Steady.drop (hstage : st.stage ≠ .creating) (hevents : st.events = ev :: rest)
    (hcovered : ev ∈ due → Listed st ev ∨ ev ∈ st.filesSeenByWatcher ∨ ev ∈ st.newFilesQ) :
    Steady cfg host due arrived {st with events := rest} := by
  obtain ⟨hnodup, _, _, _, hrest⟩ := h.tail hevents
  exact { h with
    events_nodup := hnodup
    events := fun fileName hmem => h.events fileName (hrest fileName hmem)
    seen := fun fileName hmem =>
      ⟨(h.seen fileName hmem).1, fun hin => (h.seen fileName hmem).2 (hrest _ hin)⟩
    creating := fun hcreating => absurd hcreating hstage
    queued := by
      intro fileName hmem
      rcases h.queued fileName hmem with hlisted | hseen | ⟨harrived, hnot⟩
      · exact .inl hlisted
      · exact .inr (.inl hseen)
      · exact .inr (.inr ⟨harrived, fun hin => hnot (hrest _ hin)⟩)
    found := by
      intro hlate fileName hdue
      rcases h.found hlate fileName hdue with hlisted | hmem | hevent | hqueued
      · exact .inl hlisted
      · exact .inr (.inl hmem)
      · rw [hevents, List.mem_cons] at hevent
        rcases hevent with rfl | hevent
        · rcases hcovered hdue with hlisted | hseen | hqueued
          · exact .inl hlisted
          · exact .inr (.inl hseen)
          · exact .inr (.inr (.inr hqueued))
        · exact .inr (.inr (.inl hevent))
      · exact .inr (.inr (.inr hqueued)) }

/-- The drain of the source directory takes an event. -/
theorem Steady.receiveSource (hstage : st.stage = .drainingSource)
    (hevents : st.events = ev :: rest) :
    Steady cfg host due arrived {st with
      events := rest
      filesSeenByWatcher := seenAfter st.filesSeenByWatcher
        (getFileFromWatcherEvent host st.directory ev cfg.ext)} := by
  obtain ⟨hnodup, hev, harrived, hread, hrest⟩ := h.tail hevents
  obtain ⟨hempty, hunloaded⟩ := h.early (.inr (.inr hstage))
  have hnotSeen : ev ∉ st.filesSeenByWatcher := by
    intro hmem
    exact (h.seen ev hmem).2 (by simp [hevents])
  rw [getFile_of_read hread]
  by_cases hcares : cares st.directory cfg.ext ev = true
  · rw [if_pos hcares]
    have hseen : seenAfter st.filesSeenByWatcher (some ev) = st.filesSeenByWatcher ++ [ev] := by
      simp [seenAfter, addSeen, hnotSeen]
    rw [hseen]
    exact { h with
      events_nodup := hnodup
      events := fun fileName hmem => h.events fileName (hrest fileName hmem)
      seen_nodup := by
        rw [List.nodup_append_comm]
        exact List.nodup_cons.2 ⟨hnotSeen, h.seen_nodup⟩
      seen := by
        intro fileName hmem
        rcases List.mem_append.1 hmem with hmem | hmem
        · exact ⟨(h.seen fileName hmem).1, fun hin => (h.seen fileName hmem).2 (hrest _ hin)⟩
        · obtain rfl := List.mem_singleton.1 hmem
          exact ⟨harrived, hev⟩
      creating := fun hcreating => by simp [hstage] at hcreating
      unread := fun hunread => by simp [hstage] at hunread
      queued := by simp [hempty]
      kept := by
        rintro fileName (hlisted | hmem)
        · exact h.kept fileName (.inl hlisted)
        · rcases List.mem_append.1 hmem with hmem | hmem
          · exact h.kept fileName (.inr hmem)
          · obtain rfl := List.mem_singleton.1 hmem
            exact .inr (isSome_of_cares hcares)
      loaded := fun hdone => by simp [hunloaded] at hdone
      unloaded := by simp [hempty]
      found := by
        intro hlate fileName hdue
        rcases h.found hlate fileName hdue with hlisted | hmem | hevent | hqueued
        · exact .inl hlisted
        · exact .inr (.inl (List.mem_append_left _ hmem))
        · rw [hevents, List.mem_cons] at hevent
          rcases hevent with rfl | hevent
          · exact .inr (.inl (List.mem_append_right _ List.mem_cons_self))
          · exact .inr (.inr (.inl hevent))
        · exact .inr (.inr (.inr hqueued)) }
  · rw [if_neg hcares]
    refine h.drop (by simp [hstage]) hevents fun hdue => ?_
    exact absurd (h.cares_of_due hdue (by simp [hempty])) hcares

/-- The drain of the subdirectory takes an event. -/
theorem Steady.receiveSub (hstage : st.stage = .drainingSub) (hevents : st.events = ev :: rest)
    (hnot : ¬ Slips cfg host st .receive) (seen : List FileName) :
    Steady cfg host due arrived {st with
      events := rest
      subSeenByWatcher := seen} := by
  have hdropped := h.drop (by simp [hstage]) hevents fun hdue => ?_
  · exact { hdropped with }
  · by_cases hqueued : ev ∈ st.newFilesQ
    · exact .inr (.inr hqueued)
    · left
      by_contra hlisted
      exact hnot ⟨hstage, ev, rest, hevents, .inl ⟨h.cares_of_due hdue hqueued, hlisted⟩⟩

/-- The monitor takes an event. -/
theorem Steady.monitor (hstage : st.stage = .monitoring) (hevents : st.events = ev :: rest)
    (hnot : ¬ Slips cfg host st .monitor) :
    Steady cfg host due arrived {st with
      events := rest
      newFilesQ := st.newFilesQ ++
        (getFileFromWatcherEvent host st.directory ev cfg.ext).toList} := by
  obtain ⟨hnodup, hev, harrived, hread, hrest⟩ := h.tail hevents
  rw [getFile_of_read hread]
  by_cases hcares : cares st.directory cfg.ext ev = true
  · rw [if_pos hcares, Option.toList_some]
    have hlisted : ¬ Listed st ev := fun hlisted => hnot ⟨ev, rest, hevents, hcares, hlisted⟩
    have hseen : ev ∉ st.filesSeenByWatcher := by
      intro hmem
      exact (h.seen ev hmem).2 (by simp [hevents])
    have hqueued : ev ∉ st.newFilesQ := by
      intro hmem
      rcases h.queued ev hmem with hin | hin | ⟨_, hin⟩
      · exact hlisted hin
      · exact hseen hin
      · exact hin (by simp [hevents])
    exact { h with
      events_nodup := hnodup
      events := fun fileName hmem => h.events fileName (hrest fileName hmem)
      seen := fun fileName hmem =>
        ⟨(h.seen fileName hmem).1, fun hin => (h.seen fileName hmem).2 (hrest _ hin)⟩
      creating := fun hcreating => by simp [hstage] at hcreating
      early := fun hearly => by simp [hstage] at hearly
      queue_nodup := by
        rw [List.nodup_append_comm]
        exact List.nodup_cons.2 ⟨hqueued, h.queue_nodup⟩
      queued := by
        intro fileName hmem
        rcases List.mem_append.1 hmem with hmem | hmem
        · rcases h.queued fileName hmem with hin | hin | ⟨hin, hout⟩
          · exact .inl hin
          · exact .inr (.inl hin)
          · exact .inr (.inr ⟨hin, fun hleft => hout (hrest _ hleft)⟩)
        · obtain rfl := List.mem_singleton.1 hmem
          exact .inr (.inr ⟨harrived, hev⟩)
      kept := fun fileName hin => (h.kept fileName hin).imp_left (List.mem_append_left _)
      loaded := fun hdone fileName hin hcare =>
        List.mem_append_left _ (h.loaded hdone fileName hin hcare)
      unloaded := by
        intro hwaits fileName hmem
        rcases List.mem_append.1 hmem with hmem | hmem
        · exact h.unloaded hwaits fileName hmem
        · obtain rfl := List.mem_singleton.1 hmem
          exact ⟨hlisted, hseen⟩
      present := fun fileName hdue =>
        (h.present fileName hdue).imp_left (List.mem_append_left _)
      found := by
        intro hlate fileName hdue
        rcases h.found hlate fileName hdue with hin | hin | hin | hin
        · exact .inl hin
        · exact .inr (.inl hin)
        · rw [hevents, List.mem_cons] at hin
          rcases hin with rfl | hin
          · exact .inr (.inr (.inr (List.mem_append_right _ List.mem_cons_self)))
          · exact .inr (.inr (.inl hin))
        · exact .inr (.inr (.inr (List.mem_append_left _ hin))) }
  · rw [if_neg hcares, Option.toList_none, List.append_nil]
    refine h.drop (by simp [hstage]) hevents fun hdue => ?_
    by_contra hnone
    rw [not_or, not_or] at hnone
    exact hcares (h.cares_of_due hdue hnone.2.2)

/-- The goroutine queues the files of the source directory. -/
theorem Steady.loadSource
    (hstage : ¬ (st.stage = .creating ∨ st.stage = .watching ∨ st.stage = .drainingSource))
    (hwaits : st.sourceLoaded = false) :
    Steady cfg host due arrived {st with
      sourceLoaded := true
      newFilesQ := st.newFilesQ ++ sortInitialFilesIntoQueue host st.directory st.directory
        st.dirContents st.filesSeenByWatcher cfg.ext} := by
  have hmem := @mem_sortInitial host st.directory st.directory st.dirContents
    st.filesSeenByWatcher cfg.ext
  have hfrom : ∀ fileName ∈ sortInitialFilesIntoQueue host st.directory st.directory
      st.dirContents st.filesSeenByWatcher cfg.ext,
      Listed st fileName ∨ fileName ∈ st.filesSeenByWatcher := by
    intro fileName hin
    rcases hmem.1 hin with ⟨hlisted, _⟩ | ⟨hseen, _⟩
    · exact .inl hlisted
    · exact .inr hseen
  exact { h with
    early := fun hearly => absurd hearly hstage
    queue_nodup := by
      refine List.nodup_append.2 ⟨h.queue_nodup,
        sortInitial_nodup _ _ _ _ _ _ h.contents h.seen_nodup, ?_⟩
      rintro fileName hqueued other hother rfl
      obtain ⟨hlisted, hseen⟩ := h.unloaded hwaits fileName hqueued
      rcases hfrom fileName hother with hin | hin
      · exact hlisted hin
      · exact hseen hin
    queued := by
      intro fileName hin
      rcases List.mem_append.1 hin with hin | hin
      · exact h.queued fileName hin
      · rcases hfrom fileName hin with hlisted | hseen
        · exact .inl hlisted
        · exact .inr (.inl hseen)
    kept := fun fileName hin => (h.kept fileName hin).imp_left (List.mem_append_left _)
    loaded := by
      intro _ fileName hin hcares
      refine List.mem_append_right _ (hmem.2 ?_)
      by_cases hseen : fileName ∈ st.filesSeenByWatcher
      · exact .inr ⟨hseen, isSome_of_cares hcares⟩
      · exact .inl ⟨hin.resolve_right hseen, hseen, hcares⟩
    unloaded := fun hdone => by simp at hdone
    present := fun fileName hdue =>
      (h.present fileName hdue).imp_left (List.mem_append_left _)
    found := by
      intro hlate fileName hdue
      rcases h.found hlate fileName hdue with hin | hin | hin | hin
      · exact .inl hin
      · exact .inr (.inl hin)
      · exact .inr (.inr (.inl hin))
      · exact .inr (.inr (.inr (List.mem_append_left _ hin))) }

/-- The source directory is read. -/
theorem Steady.readSource (hstage : st.stage = .watching) :
    Steady cfg host due arrived {st with
      stage := .drainingSource
      dirContents := st.directory} := by
  obtain ⟨hempty, hunloaded⟩ := h.early (.inr (.inl hstage))
  obtain ⟨_, hseen⟩ := h.unread (.inr hstage)
  exact { h with
    contents := h.directory
    creating := fun hcreating => by simp at hcreating
    unread := fun hunread => by simp at hunread
    early := fun _ => ⟨hempty, hunloaded⟩
    queued := by simp [hempty]
    kept := by
      rintro fileName (hlisted | hmem)
      · right
        obtain ⟨entry, hentry, rfl⟩ := List.mem_map.1 hlisted
        rw [stat_of_mem h.directory hentry]
        rfl
      · simp [hseen] at hmem
    loaded := fun hdone => by simp [hunloaded] at hdone
    unloaded := by simp [hempty]
    found := by
      intro _ fileName hdue
      left
      have hstat := (h.present fileName hdue).resolve_left (by simp [hempty])
      exact List.mem_map.2 ⟨_, mem_of_stat hstat, rfl⟩ }

/-- Later stages of the start. -/
theorem Steady.toStage {stage : Stage} (hstage : st.stage ≠ .creating ∧ st.stage ≠ .watching)
    (hlate : stage = .sourceRead ∨ stage = .drainingSub ∨ stage = .monitoring) :
    Steady cfg host due arrived {st with stage := stage} :=
  { h with
    creating := by
      rintro rfl
      simp at hlate
    unread := by
      rintro (rfl | rfl) <;> simp at hlate
    early := by
      rintro (rfl | rfl | rfl) <;> simp at hlate
    found := fun _ => h.found (not_or.2 hstage) }

end

theorem Steady.step {event : StartEvent} (h : Steady cfg host due arrived st)
    (hstep : startStep cfg host st event = some st')
    (hfresh : ∀ fileName, event.arrival = some fileName → fileName ∉ arrived)
    (hnot : ¬ Slips cfg host st event) :
    Steady cfg host (dueAfter cfg due event) (event.arrival.toList ++ arrived) st' := by
  cases event with
  | create entry =>
    simp only [startStep] at hstep
    split_ifs at hstep with hnew
    cases hstep
    rw [Bool.not_eq_true, Option.isSome_eq_false_iff, Option.isNone_iff_eq_none] at hnew
    exact h.withEntry hnew
  | closeWrite fileName =>
    simp only [startStep] at hstep
    split at hstep
    next name hstat =>
      cases hstep
      have hname := name_of_stat hstat
      have harrived := h.notify (hfresh fileName rfl) fun hwatched => by
        by_contra hread
        exact hnot ⟨hwatched, hread⟩
      change Steady cfg host (if hasSuffix fileName cfg.ext then fileName :: due else due)
        (fileName :: arrived) _
      split_ifs with hext
      · refine harrived.addDue hext ?_ fun hwatched => ?_
        · rw [notify_directory, hstat, ← hname]
        · rw [notify_stage] at hwatched
          exact mem_notify fileName hwatched
      · exact harrived
    · cases hstep
  | moveIn entry =>
    have hread : st.stage ≠ .creating → host.eventName entry.name = entry.name := by
      intro hwatched
      by_contra hread
      exact hnot ⟨hwatched, hread⟩
    simp only [startStep] at hstep
    split at hstep
    next hnew =>
      cases hstep
      have hstat : stat (st.withEntry entry).directory entry.name = some entry := by
        refine stat_of_mem (h.withEntry hnew).directory ?_
        simp [Startup.withEntry]
      exact (h.withEntry hnew).moved hstat rfl (hfresh entry.name rfl) hread
    next replaced hold =>
      split_ifs at hstep with hkind
      cases hstep
      exact h.moved hold hkind (hfresh entry.name rfl) hread
  | cleared fileName =>
    simp only [startStep] at hstep
    split_ifs at hstep with hqueued
    cases hstep
    exact h.cleared hqueued
  | addWatch =>
    simp only [startStep] at hstep
    split_ifs at hstep with hstage
    cases hstep
    have hempty := h.unread (.inl hstage)
    have hearly := h.early (.inl hstage)
    exact { h with
      creating := by simp
      unread := fun _ => hempty
      early := fun _ => hearly
      found := by simp }
  | readSource =>
    simp only [startStep] at hstep
    split_ifs at hstep with hstage
    cases hstep
    exact h.readSource hstage
  | receive =>
    simp only [startStep] at hstep
    split at hstep
    next ev rest hstage hevents =>
      cases hstep
      exact h.receiveSource hstage hevents
    next ev rest hstage hevents =>
      cases hstep
      exact h.receiveSub hstage hevents hnot _
    · cases hstep
  | noMoreNewFiles =>
    simp only [startStep] at hstep
    split at hstep
    next hstage =>
      cases hstep
      refine h.toStage (by simp [hstage]) ?_
      split_ifs <;> simp
    next hstage =>
      cases hstep
      exact h.toStage (by simp [hstage]) (by simp)
    · cases hstep
  | readSub =>
    simp only [startStep] at hstep
    split_ifs at hstep with hstage
    cases hstep
    exact h.toStage (by simp [hstage]) (by simp)
  | loadSource =>
    simp only [startStep] at hstep
    split_ifs at hstep with hcan
    cases hstep
    refine h.loadSource ?_ hcan.2
    have hstage := hcan.1
    simp only [List.mem_cons, List.not_mem_nil, or_false] at hstage
    rcases hstage with hstage | hstage | hstage <;> simp [hstage]
  | loadSub =>
    simp only [startStep] at hstep
    split_ifs at hstep with hcan
    cases hstep
    exact { h with }
  | monitor =>
    simp only [startStep] at hstep
    split at hstep
    next ev rest hstage hevents =>
      cases hstep
      exact h.monitor hstage hevents hnot
    · cases hstep

end Steady

/-! ## The subdirectory -/

/-- The files that wait in the subdirectory. -/
structure SubSteady (cfg : SourceConfig) (host : Host) (st : Startup) : Prop where
  seen_nodup : st.subSeenByWatcher.Nodup
  seen : ∀ fileName ∈ st.subSeenByWatcher, ∀ entry, Waiting cfg host entry → entry.name ≠ fileName
  ext : st.stage = .drainingSub ∨ st.stage = .monitoring → ∀ entry, Waiting cfg host entry →
    hasSuffix entry.name metaArchiveExtension = true
  unloaded : st.subLoaded = false → st.tarQOut = []
  loaded : st.subLoaded = true → st.tarQOut.Nodup ∧
    ∀ entry, Waiting cfg host entry → entry.name ∈ st.tarQOut

section SubSteady
variable {cfg : SourceConfig} {host : Host} {due arrived : List FileName} {st st' : Startup}

theorem subSteady_initial (cfg : SourceConfig) (host : Host) :
    SubSteady cfg host (Startup.initial host.directory) where
  seen_nodup := List.nodup_nil
  seen := by simp [Startup.initial]
  ext := by simp [Startup.initial]
  unloaded _ := rfl
  loaded := by simp [Startup.initial]

/-- Nothing about the subdirectory has changed. -/
theorem SubSteady.of_same (h : SubSteady cfg host st)
    (hseen : st'.subSeenByWatcher = st.subSeenByWatcher)
    (hstage : st'.stage = .drainingSub ∨ st'.stage = .monitoring →
      st.stage = .drainingSub ∨ st.stage = .monitoring)
    (hloaded : st'.subLoaded = st.subLoaded) (hqueue : st'.tarQOut = st.tarQOut) :
    SubSteady cfg host st' := by
  refine ⟨?_, ?_, fun hlate => h.ext (hstage hlate), ?_, ?_⟩
  · rw [hseen]
    exact h.seen_nodup
  · rw [hseen]
    exact h.seen
  · rw [hloaded, hqueue]
    exact h.unloaded
  · rw [hloaded, hqueue]
    exact h.loaded

theorem notify_sub (st : Startup) (fileName : FileName) :
    (st.notify fileName).subSeenByWatcher = st.subSeenByWatcher ∧
      (st.notify fileName).subLoaded = st.subLoaded ∧
      (st.notify fileName).tarQOut = st.tarQOut := by
  rw [Startup.notify]
  split_ifs <;> exact ⟨rfl, rfl, rfl⟩

theorem SubSteady.notify (h : SubSteady cfg host st) (fileName : FileName) :
    SubSteady cfg host (st.notify fileName) := by
  obtain ⟨hseen, hloaded, hqueue⟩ := notify_sub st fileName
  refine h.of_same hseen ?_ hloaded hqueue
  rw [notify_stage]
  exact id

theorem waiting_default (hmode : cfg.mode = .default) : ¬ Waiting cfg host entry := by
  intro hwaiting
  have hfalse := hwaiting.2.2
  rw [hmode] at hfalse
  exact hfalse

/-- With the extension that `createClient` filters by a file that waits is cared about. -/
theorem cares_of_waiting (hwaiting : Waiting cfg host entry)
    (hext : hasSuffix entry.name metaArchiveExtension = true) :
    cares host.subdirectory cfg.subExt entry.name = true := by
  have hsub : cfg.subExt = metaArchiveExtension := by
    cases hmode : cfg.mode with
    | default => exact absurd hwaiting (waiting_default hmode)
    | tar => simp [SourceConfig.subExt, hmode]
    | untar => simp [SourceConfig.subExt, SourceConfig.ext, hmode]
  rw [cares, stat_of_mem host.subdirectory_nodup hwaiting.1, hsub]
  simp [doesNotCareAbout, hwaiting.2.1, hext]

/-- The drain of the subdirectory takes an event. -/
theorem SubSteady.receive (h : SubSteady cfg host st) (hsteady : Steady cfg host due arrived st)
    (hstage : st.stage = .drainingSub) {ev : FileName} {rest : List FileName}
    (hevents : st.events = ev :: rest) (hnot : ¬ Slips cfg host st .receive) :
    SubSteady cfg host {st with
      events := rest
      subSeenByWatcher := seenAfter st.subSeenByWatcher
        (getFileFromWatcherEvent host st.directory ev cfg.subExt)} := by
  have hread := (hsteady.events ev (by simp [hevents])).2
  have hother : ∀ entry, Waiting cfg host entry → entry.name ≠ ev := fun entry hwaiting hname =>
    hnot ⟨hstage, ev, rest, hevents, .inr ⟨entry, hwaiting, hname⟩⟩
  rw [getFile_of_read hread]
  split_ifs
  · rw [seenAfter, addSeen]
    split_ifs with hseen
    · exact { h with }
    · exact { h with
        seen_nodup := by
          rw [List.nodup_append_comm]
          exact List.nodup_cons.2 ⟨hseen, h.seen_nodup⟩
        seen := by
          intro fileName hmem
          rcases List.mem_append.1 hmem with hmem | hmem
          · exact h.seen fileName hmem
          · obtain rfl := List.mem_singleton.1 hmem
            exact hother }
  · exact { h with }

/-- The goroutine queues the files of the subdirectory. -/
theorem SubSteady.loadSub (h : SubSteady cfg host st) (hstage : st.stage = .monitoring)
    (hwaits : st.subLoaded = false) :
    SubSteady cfg host {st with
      subLoaded := true
      tarQOut := st.tarQOut ++ sortInitialFilesIntoQueue host st.directory host.subdirectory
        host.subdirectory st.subSeenByWatcher cfg.subExt} :=
  { h with
    unloaded := fun hdone => by simp at hdone
    loaded := by
      intro _
      rw [h.unloaded hwaits, List.nil_append]
      refine ⟨sortInitial_nodup _ _ _ _ _ _ host.subdirectory_nodup h.seen_nodup, ?_⟩
      intro entry hwaiting
      refine (mem_sortInitial _ _ _ _ _ _).2 (.inl ⟨List.mem_map_of_mem hwaiting.1, ?_, ?_⟩)
      · exact fun hmem => h.seen entry.name hmem entry hwaiting rfl
      · exact cares_of_waiting hwaiting (h.ext (.inr hstage) entry hwaiting) }

theorem SubSteady.step {event : StartEvent} (h : SubSteady cfg host st)
    (hsteady : Steady cfg host due arrived st)
    (hstep : startStep cfg host st event = some st') (hnot : ¬ Slips cfg host st event) :
    SubSteady cfg host st' := by
  cases event with
  | create entry | cleared fileName | loadSource =>
    simp only [startStep] at hstep
    split_ifs at hstep
    cases hstep
    exact { h with }
  | closeWrite fileName =>
    simp only [startStep] at hstep
    split at hstep
    · cases hstep
      exact h.notify fileName
    · cases hstep
  | moveIn entry =>
    simp only [startStep] at hstep
    split at hstep
    · cases hstep
      have hentry : SubSteady cfg host (st.withEntry entry) := { h with }
      exact hentry.notify entry.name
    · split_ifs at hstep
      cases hstep
      exact h.notify entry.name
  | addWatch | readSource =>
    simp only [startStep] at hstep
    split_ifs at hstep
    cases hstep
    exact h.of_same rfl (by simp) rfl rfl
  | receive =>
    simp only [startStep] at hstep
    split at hstep
    · cases hstep
      exact { h with }
    next ev rest hstage hevents =>
      cases hstep
      exact h.receive hsteady hstage hevents hnot
    · cases hstep
  | noMoreNewFiles =>
    simp only [startStep] at hstep
    split at hstep
    · cases hstep
      exact { h with
        ext := by
          split_ifs with hmode
          · intro _ entry hwaiting
            exact absurd hwaiting (waiting_default hmode)
          · simp }
    next hstage =>
      cases hstep
      exact h.of_same rfl (fun _ => .inl hstage) rfl rfl
    · cases hstep
  | readSub =>
    simp only [startStep] at hstep
    split_ifs at hstep
    cases hstep
    exact { h with
      ext := by
        intro _ entry hwaiting
        by_contra hext
        exact hnot ⟨entry, hwaiting, by simpa using hext⟩ }
  | loadSub =>
    simp only [startStep] at hstep
    split_ifs at hstep with hcan
    cases hstep
    exact h.loadSub hcan.2.1 hcan.2.2
  | monitor =>
    simp only [startStep] at hstep
    split at hstep
    · cases hstep
      exact { h with }
    · cases hstep

end SubSteady

/-! ## Starts -/

/-- A start of the client, where each step can be taken. -/
def startRun (cfg : SourceConfig) (host : Host) (events : List StartEvent) : Option Startup :=
  events.foldlM (startStep cfg host) (Startup.initial host.directory)

/-- The files of the source directory that are to be queued after the events. -/
def dueFiles (cfg : SourceConfig) (host : Host) (events : List StartEvent) : List FileName :=
  events.foldl (dueAfter cfg) (dueInitially cfg host)

/-- The files that arrive, the last one first. -/
def arrivedFiles (events : List StartEvent) : List FileName :=
  events.foldl (fun arrived event => event.arrival.toList ++ arrived) []

/-- The start is over, and no event is left. -/
def Settled (cfg : SourceConfig) (st : Startup) : Prop :=
  st.stage = .monitoring ∧ st.events = [] ∧ st.sourceLoaded = true ∧
    (cfg.mode ≠ .default → st.subLoaded = true)

/-- Nothing is queued twice, and in the end everything has been queued. -/
def QueuedOnce (cfg : SourceConfig) (host : Host) (due : List FileName) (st : Startup) : Prop :=
  ((∀ fileName, st.newFilesQ.count fileName ≤ 1) ∧ ∀ fileName, st.tarQOut.count fileName ≤ 1) ∧
    (Settled cfg st → (∀ fileName ∈ due, st.newFilesQ.count fileName = 1) ∧
      ∀ entry, Waiting cfg host entry → st.tarQOut.count entry.name = 1)

theorem queuedOnce_of_steady {cfg : SourceConfig} {host : Host} {due arrived : List FileName}
    {st : Startup} (h : Steady cfg host due arrived st) (hsub : SubSteady cfg host st) :
    QueuedOnce cfg host due st := by
  have htar : st.tarQOut.Nodup := by
    cases hloaded : st.subLoaded with
    | true => exact (hsub.loaded hloaded).1
    | false =>
      rw [hsub.unloaded hloaded]
      exact List.nodup_nil
  refine ⟨⟨List.nodup_iff_count_le_one.1 h.queue_nodup, List.nodup_iff_count_le_one.1 htar⟩, ?_⟩
  rintro ⟨hstage, hevents, hsource, hloaded⟩
  refine ⟨fun fileName hdue => ?_, fun entry hwaiting => ?_⟩
  · refine List.count_eq_one_of_mem h.queue_nodup ?_
    by_contra hnot
    rcases h.found (by simp [hstage]) fileName hdue with hin | hin | hin | hin
    · exact hnot (h.loaded hsource fileName (.inl hin) (h.cares_of_due hdue hnot))
    · exact hnot (h.loaded hsource fileName (.inr hin) (h.cares_of_due hdue hnot))
    · simp [hevents] at hin
    · exact hnot hin
  · have hmode : cfg.mode ≠ .default := fun hmode => waiting_default hmode hwaiting
    exact List.count_eq_one_of_mem htar ((hsub.loaded (hloaded hmode)).2 entry hwaiting)

/-- No step of the start slips. -/
def NeverSlips (cfg : SourceConfig) (host : Host) (events : List StartEvent) : Prop :=
  ∀ before event, before ++ [event] <+: events → ∀ st, startRun cfg host before = some st →
    ¬ Slips cfg host st event

theorem startRun_concat (cfg : SourceConfig) (host : Host) (before : List StartEvent)
    (event : StartEvent) :
    startRun cfg host (before ++ [event]) =
      (startRun cfg host before).bind (startStep cfg host · event) := by
  simp [startRun]

theorem arrivedFiles_concat (before : List StartEvent) (event : StartEvent) :
    arrivedFiles (before ++ [event]) = event.arrival.toList ++ arrivedFiles before := by
  simp [arrivedFiles]

theorem dueFiles_concat (cfg : SourceConfig) (host : Host) (before : List StartEvent)
    (event : StartEvent) :
    dueFiles cfg host (before ++ [event]) = dueAfter cfg (dueFiles cfg host before) event := by
  simp [dueFiles]

theorem steady_of_startRun {cfg : SourceConfig} {host : Host} {events : List StartEvent}
    (hnever : NeverSlips cfg host events) (hdistinct : (arrivedFiles events).Nodup)
    {st : Startup} (hrun : startRun cfg host events = some st) :
    Steady cfg host (dueFiles cfg host events) (arrivedFiles events) st ∧
      SubSteady cfg host st := by
  induction events using List.reverseRecOn generalizing st with
  | nil =>
    cases hrun
    exact ⟨steady_initial cfg host, subSteady_initial cfg host⟩
  | append_singleton before event ih =>
    rw [startRun_concat, Option.bind_eq_some_iff] at hrun
    obtain ⟨mid, hmid, hstep⟩ := hrun
    rw [arrivedFiles_concat] at hdistinct ⊢
    rw [dueFiles_concat]
    obtain ⟨hsteady, hsub⟩ := ih (fun before' event' hfirst =>
      hnever before' event' (hfirst.trans (List.prefix_append before [event])))
      hdistinct.of_append_right hmid
    have hnot := hnever before event List.prefix_rfl mid hmid
    refine ⟨hsteady.step hstep (fun fileName harrival => ?_) hnot, hsub.step hsteady hstep hnot⟩
    rw [harrival, Option.toList_some, List.singleton_append, List.nodup_cons] at hdistinct
    exact hdistinct.1

end HybridOs.CloudSync
