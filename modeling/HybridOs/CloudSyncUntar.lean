import HybridOs.CloudSync
import Mathlib

/-!
# The untar worker of a client

A metaarchive is unpacked into one directory, the metaarchives inside it after it. Files of one
name overwrite each other there. The first metaarchive that fails ends the unpacking of the one
that it is in. The worker then queues or clears what it was given, in the order in which it was
extracted, so a metaarchive is cleared before the members that were extracted from it.
-/

namespace HybridOs.CloudSync

/-- What becomes of a member that is to be extracted. -/
inductive Extraction where
  | extracted
  /-- It is no regular file, or its destination cannot be created. -/
  | notCreated
  /-- It cannot be copied: its destination is removed again. -/
  | notCopied
  deriving DecidableEq

/-- A file as the tar reader reads it: its members, up to the end of the file or to an error. A
file that cannot be opened as an archive fails at once. -/
inductive TarStream where
  | ended
  | failed
  /-- A member, by the base name in its header. -/
  | member (name : FileName) (extraction : Extraction) (content rest : TarStream)
  deriving DecidableEq

/-- The files of the destination directory. -/
abbrev Disk := FileName → Option TarStream

/-- What `decompress` returns, and the directory after it. -/
structure Decompressed where
  fileNames : List FileName
  /-- An error is returned. -/
  err : Bool
  disk : Disk

/-- `decompressSingleFile`: whether the member is extracted, and the directory after it. -/
def decompressSingleFile (name : FileName) (extraction : Extraction) (content : TarStream)
    (disk : Disk) : Bool × Disk :=
  match extraction with
  | .extracted => (true, Function.update disk name (some content))
  | .notCreated => (false, disk)
  | .notCopied => (false, Function.update disk name none)

/-- The loop of `decompress` over the members. Once an archive has overwritten itself, it depends
on the reader's buffers whether reading goes on. -/
def extractMembers (goesOn : FileName → Bool) (itself : Option FileName) :
    TarStream → Disk → Decompressed
  | .ended, disk => ⟨[], false, disk⟩
  | .failed, disk => ⟨[], true, disk⟩
  | .member name extraction content rest, disk =>
    let single := decompressSingleFile name extraction content disk
    let fileNames := if single.1 then [name] else []
    if extraction ≠ .notCreated ∧ itself = some name ∧ goesOn name = false then
      ⟨fileNames, true, single.2⟩
    else
      let others := extractMembers goesOn itself rest single.2
      ⟨fileNames ++ others.fileNames, others.err, others.disk⟩

/-- The loop of `decompress` over the metaarchives that were extracted. -/
def extractNested (expand : FileName → Disk → Option Decompressed) :
    List FileName → Disk → Option Decompressed
  | [], disk => some ⟨[], false, disk⟩
  | fileName :: fileNames, disk =>
    if hasSuffix fileName metaArchiveExtension then
      (expand fileName disk).bind fun nested =>
        if nested.err then some nested
        else
          (extractNested expand fileNames nested.disk).map fun others =>
            ⟨nested.fileNames ++ others.fileNames, others.err, others.disk⟩
    else extractNested expand fileNames disk

/-- `decompress`, with the depth of calls that is left. -/
def decompress (goesOn : FileName → Bool) :
    ℕ → Option FileName → Option TarStream → Disk → Option Decompressed
  | 0, _, _, _ => none
  -- The file cannot be opened.
  | _ + 1, _, none, disk => some ⟨[], true, disk⟩
  | calls + 1, itself, some stream, disk =>
    let found := extractMembers goesOn itself stream disk
    if found.err then some found
    else
      (extractNested (fun fileName disk => decompress goesOn calls (some fileName) (disk fileName) disk)
        found.fileNames found.disk).map fun nested =>
          ⟨found.fileNames ++ nested.fileNames, nested.err, nested.disk⟩

/-- A path on the clear queue of the untar worker. -/
inductive UntarPath where
  /-- A file of the source directory. -/
  | source (fileName : FileName)
  /-- A file of the directory of unpacked files. -/
  | unpacked (fileName : FileName)
  deriving DecidableEq

/-- What the untar worker does with a file. -/
inductive UntarEvent where
  /-- A member is extracted into the directory of unpacked files. -/
  | extract (fileName : FileName)
  /-- `cl.tarQOut <- fileName`. -/
  | send (fileName : FileName)
  /-- `cl.clearQ <- path`. -/
  | clear (path : UntarPath)
  deriving DecidableEq

/-- What the untar worker has done. -/
structure Untarred where
  /-- All that it did, in order. -/
  events : List UntarEvent
  /-- The directory of unpacked files before the first one is queued or cleared. -/
  disk : Disk

/-- An extracted file is sent or removed. -/
def untarFile (extractedExtension : String) (fileName : FileName) : UntarEvent :=
  if hasSuffix fileName extractedExtension then .send fileName else .clear (.unpacked fileName)

/-- One file name of `untar`. -/
def untar (goesOn : FileName → Bool) (extractedExtension : String) (calls : ℕ)
    (tarFileName : FileName) (top : Option TarStream) (disk : Disk) : Option Untarred :=
  -- An error is logged, and what was extracted is handled all the same.
  (decompress goesOn calls none top disk).map fun result =>
    ⟨result.fileNames.map .extract ++ result.fileNames.map (untarFile extractedExtension) ++
        [.clear (.source tarFileName)],
      result.disk⟩

/-! ## Trees of archives -/

namespace TarStream

/-- A member that is unpacked in its turn. -/
def isNested (name : FileName) (extraction : Extraction) : Bool :=
  decide (extraction = .extracted) && hasSuffix name metaArchiveExtension

/-- The archive is read to its end. -/
def complete : TarStream → Bool
  | .ended => true
  | .failed => false
  | .member _ _ _ rest => rest.complete

/-- The members of an archive itself that can be read. -/
def own : TarStream → List (FileName × TarStream)
  | .ended => []
  | .failed => []
  | .member name extraction content rest =>
    if extraction = .extracted then (name, content) :: rest.own else rest.own

/-- The members at any depth that can be read. -/
def readable : TarStream → List (FileName × TarStream)
  | .ended => []
  | .failed => []
  | .member name extraction content rest =>
    (if extraction = .extracted then
      (name, content) :: (if isNested name extraction then content.readable else []) else []) ++
        rest.readable

/-- What is written at any depth: a name and the file that it has then, none where it is removed
again. -/
def writes : TarStream → List (FileName × Option TarStream)
  | .ended => []
  | .failed => []
  | .member name extraction content rest =>
    (if extraction = .notCreated then [] else
      (name, if extraction = .extracted then some content else none) ::
        if isNested name extraction then content.writes else []) ++ rest.writes

/-- How deep archives are inside each other. -/
def depth : TarStream → ℕ
  | .ended => 0
  | .failed => 0
  | .member _ _ content rest => max (content.depth + 1) rest.depth

/-- The unpacking of a metaarchive inside the archive fails. -/
def nestedFails : TarStream → Bool
  | .ended => false
  | .failed => false
  | .member name extraction content rest =>
    isNested name extraction && (!content.complete || content.nestedFails) || rest.nestedFails

/-- The unpacking of the archive fails: it cannot be read, or one inside it fails. -/
def fails (stream : TarStream) : Bool := !stream.complete || stream.nestedFails

/-- The metaarchives inside have no members that can be read. -/
def Bare : TarStream → Prop
  | .ended => True
  | .failed => True
  | .member name extraction content rest =>
    (isNested name extraction = true → content.own = []) ∧ rest.Bare

/-- Nothing is left behind a failure in the metaarchives inside. -/
def NestedUnpacks : TarStream → Prop
  | .ended => True
  | .failed => True
  | .member name extraction content rest =>
    if isNested name extraction then
      (if content.complete then content.NestedUnpacks else content.Bare) ∧
        (if content.fails then rest.Bare else rest.NestedUnpacks)
    else rest.NestedUnpacks

/-- Nothing is left behind a failure: an archive that cannot be read to its end has no
metaarchives with members, and none comes after one that fails. -/
def Unpacks (stream : TarStream) : Prop :=
  if stream.complete then stream.NestedUnpacks else stream.Bare

end TarStream

/-- Two writes of one name write the same file, and it is no metaarchive. -/
def SameFile (first second : FileName × Option TarStream) : Prop :=
  first.1 = second.1 → first.2 = second.2 ∧ hasSuffix first.1 metaArchiveExtension = false

instance (first second : FileName × Option TarStream) : Decidable (SameFile first second) :=
  inferInstanceAs (Decidable (_ → _))

/-- No file is written over a different one, nor over a metaarchive. -/
def TarStream.Apart (stream : TarStream) : Prop := stream.writes.Pairwise SameFile

/-- What it means that a metaarchive has been handled. -/
structure Untarred.Handles (untarred : Untarred) (extractedExtension : String) (top : TarStream) :
    Prop where
  /-- Every readable member is queued for sending if it has the extension. -/
  sent : ∀ entry ∈ top.readable, hasSuffix entry.1 extractedExtension = true →
    .send entry.1 ∈ untarred.events
  /-- Every other one is cleared. -/
  cleared : ∀ entry ∈ top.readable, hasSuffix entry.1 extractedExtension = false →
    .clear (.unpacked entry.1) ∈ untarred.events
  /-- The file of its name is the member. -/
  intact : ∀ entry ∈ top.readable, untarred.disk entry.1 = some entry.2
  /-- A metaarchive is cleared only after each of its own members is extracted, or it fails by
  itself. -/
  nested : ∀ entry ∈ top.readable, hasSuffix entry.1 metaArchiveExtension = true →
    ∀ before after, untarred.events = before ++ .clear (.unpacked entry.1) :: after →
      entry.2.complete = false ∨ ∀ member ∈ entry.2.own, .extract member.1 ∈ before

/-- A metaarchive is cleared only after each of its own members is queued or cleared, or it fails
by itself. -/
def Untarred.ClearsAfterMembers (untarred : Untarred) (top : TarStream) : Prop :=
  ∀ entry ∈ top.readable, hasSuffix entry.1 metaArchiveExtension = true →
    ∀ before after, untarred.events = before ++ .clear (.unpacked entry.1) :: after →
      entry.2.complete = false ∨ ∀ member ∈ entry.2.own,
        .send member.1 ∈ before ∨ .clear (.unpacked member.1) ∈ before

namespace TarStream

/-- The members that are extracted of the metaarchives inside. -/
def unpackedNested : TarStream → List (FileName × TarStream)
  | .ended => []
  | .failed => []
  | .member name extraction content rest =>
    if isNested name extraction then
      (content.own ++ if content.complete then content.unpackedNested else []) ++
        if content.fails then [] else rest.unpackedNested
    else rest.unpackedNested

/-- The members that are extracted of an archive. -/
def unpacked (stream : TarStream) : List (FileName × TarStream) :=
  stream.own ++ if stream.complete then stream.unpackedNested else []

variable {name : FileName} {stream : TarStream} {entry : FileName × TarStream}
  {extraction : Extraction}

theorem isNested_extracted (hnested : isNested name extraction = true) :
    extraction = .extracted := by
  simp only [isNested, Bool.and_eq_true, decide_eq_true_eq] at hnested
  exact hnested.1

section Members

variable {first : FileName} {extraction : Extraction} {content rest : TarStream}

@[simp] theorem mem_own_member : entry ∈ (member first extraction content rest).own ↔
    extraction = .extracted ∧ entry = (first, content) ∨ entry ∈ rest.own := by
  by_cases hextracted : extraction = .extracted <;> simp [own, hextracted]

@[simp] theorem mem_readable_member : entry ∈ (member first extraction content rest).readable ↔
    (extraction = .extracted ∧ entry = (first, content) ∨
      isNested first extraction = true ∧ entry ∈ content.readable) ∨ entry ∈ rest.readable := by
  rw [readable, List.mem_append]
  by_cases hextracted : extraction = .extracted
  · by_cases hnested : isNested first .extracted = true <;> simp [hextracted, hnested]
  · simp [isNested, hextracted]

@[simp] theorem mem_unpacked : entry ∈ stream.unpacked ↔
    entry ∈ stream.own ∨ stream.complete = true ∧ entry ∈ stream.unpackedNested := by
  cases hcomplete : stream.complete <;> simp [unpacked, hcomplete]

@[simp] theorem mem_unpackedNested_member :
    entry ∈ (member first extraction content rest).unpackedNested ↔
      if isNested first extraction then
        entry ∈ content.unpacked ∨ content.fails = false ∧ entry ∈ rest.unpackedNested
      else entry ∈ rest.unpackedNested := by
  rw [unpackedNested, ← unpacked]
  split
  · cases hfails : content.fails <;> simp
  · rfl

end Members

/-- The members that are named at the top can be read. -/
theorem own_readable (hown : entry ∈ stream.own) : entry ∈ stream.readable := by
  induction stream with
  | ended | failed => simp [own] at hown
  | member name extraction content rest _ ih =>
    rcases mem_own_member.1 hown with hfirst | hlater
    · exact mem_readable_member.2 (.inl (.inl hfirst))
    · exact mem_readable_member.2 (.inr (ih hlater))

/-- The members of a metaarchive inside are members at some depth. -/
theorem readable_trans {member : FileName × TarStream} (hreadable : entry ∈ stream.readable)
    (hmeta : hasSuffix entry.1 metaArchiveExtension = true) (hown : member ∈ entry.2.own) :
    member ∈ stream.readable := by
  induction stream with
  | ended | failed => simp [readable] at hreadable
  | member name extraction content rest ihContent ihRest =>
    rw [mem_readable_member]
    rcases mem_readable_member.1 hreadable with (⟨hextracted, rfl⟩ | ⟨hnested, hinner⟩) | hlater
    · exact .inl (.inr ⟨by simp [isNested, hextracted, hmeta], own_readable hown⟩)
    · exact .inl (.inr ⟨hnested, ihContent hinner⟩)
    · exact .inr (ihRest hlater)

/-- A member that can be read is written. -/
theorem readable_writes (hreadable : entry ∈ stream.readable) :
    (entry.1, some entry.2) ∈ stream.writes := by
  induction stream with
  | ended | failed => simp [readable] at hreadable
  | member name extraction content rest ihContent ihRest =>
    rw [writes, List.mem_append]
    rcases mem_readable_member.1 hreadable with (⟨rfl, rfl⟩ | ⟨hnested, hinner⟩) | hlater
    · left
      simp
    · obtain rfl := isNested_extracted hnested
      left
      simp [hnested, ihContent hinner]
    · exact .inr (ihRest hlater)

/-- An archive without members of its own has none at any depth. -/
theorem readable_of_own_nil (hown : stream.own = []) : stream.readable = [] := by
  induction stream with
  | ended | failed => rfl
  | member name extraction content rest _ ih =>
    rw [own] at hown
    split at hown
    · simp at hown
    · rename_i hextracted
      simp [readable, hextracted, ih hown]

/-- The members of an archive itself are all there are if those inside are bare. -/
theorem own_of_bare (hbare : stream.Bare) (hreadable : entry ∈ stream.readable) :
    entry ∈ stream.own := by
  induction stream with
  | ended | failed => simp [readable] at hreadable
  | member name extraction content rest _ ih =>
    rcases mem_readable_member.1 hreadable with (hfirst | ⟨hnested, hinner⟩) | hlater
    · exact mem_own_member.2 (.inl hfirst)
    · rw [readable_of_own_nil (hbare.1 hnested)] at hinner
      exact absurd hinner List.not_mem_nil
    · exact mem_own_member.2 (.inr (ih hbare.2 hlater))

/-- The members that are extracted of the metaarchives inside are all there are if nothing is
left behind a failure. -/
theorem unpacked_of_nestedUnpacks (hunpacks : stream.NestedUnpacks)
    (hreadable : entry ∈ stream.readable) : entry ∈ stream.own ∨ entry ∈ stream.unpackedNested := by
  induction stream with
  | ended | failed => simp [readable] at hreadable
  | member name extraction content rest ihContent ihRest =>
    rw [NestedUnpacks] at hunpacks
    rw [mem_own_member, mem_unpackedNested_member]
    rcases mem_readable_member.1 hreadable with (hfirst | ⟨hnested, hinner⟩) | hlater
    · exact .inl (.inl hfirst)
    · rw [if_pos hnested] at hunpacks
      rw [if_pos hnested, mem_unpacked]
      cases hcomplete : content.complete with
      | true =>
        rw [hcomplete, if_pos rfl] at hunpacks
        rcases ihContent hunpacks.1 hinner with hown | hinside
        · exact .inr (.inl (.inl hown))
        · exact .inr (.inl (.inr ⟨rfl, hinside⟩))
      | false =>
        rw [hcomplete, if_neg (by decide)] at hunpacks
        exact .inr (.inl (.inl (own_of_bare hunpacks.1 hinner)))
    · split_ifs at hunpacks with hnested hcomplete hfails hfails
      all_goals try rw [if_pos hnested]
      · exact .inl (.inr (own_of_bare hunpacks.2 hlater))
      · rcases ihRest hunpacks.2 hlater with hown | hinside
        · exact .inl (.inr hown)
        · exact .inr (.inr ⟨by simpa using hfails, hinside⟩)
      · exact .inl (.inr (own_of_bare hunpacks.2 hlater))
      · rcases ihRest hunpacks.2 hlater with hown | hinside
        · exact .inl (.inr hown)
        · exact .inr (.inr ⟨by simpa using hfails, hinside⟩)
      · rw [if_neg hnested]
        rcases ihRest hunpacks hlater with hown | hinside
        · exact .inl (.inr hown)
        · exact .inr hinside

/-- All members at any depth are extracted if nothing is left behind a failure. -/
theorem unpacked_of_unpacks (hunpacks : stream.Unpacks) (hreadable : entry ∈ stream.readable) :
    entry ∈ stream.unpacked := by
  rw [mem_unpacked]
  rw [Unpacks] at hunpacks
  split_ifs at hunpacks with hcomplete
  · rcases unpacked_of_nestedUnpacks hunpacks hreadable with hown | hinside
    · exact .inl hown
    · exact .inr ⟨hcomplete, hinside⟩
  · exact .inl (own_of_bare hunpacks hreadable)

/-- The writes of an archive that stays apart, by its first member. -/
theorem Apart.rest {content rest : TarStream}
    (hapart : (member name extraction content rest).Apart) : rest.Apart :=
  List.Pairwise.sublist (List.sublist_append_right _ _) hapart

theorem Apart.content {content rest : TarStream} (hnested : isNested name extraction = true)
    (hapart : (member name extraction content rest).Apart) :
    content.Apart ∧ ∀ write ∈ content.writes, write.1 ≠ name := by
  obtain rfl := isNested_extracted hnested
  have hmeta : hasSuffix name metaArchiveExtension = true := by simpa [isNested] using hnested
  rw [Apart, writes, if_neg (by simp), if_pos hnested, List.pairwise_append,
    List.pairwise_cons] at hapart
  refine ⟨hapart.1.2, fun write hwrite hname => ?_⟩
  have hplain := (hapart.1.1 write hwrite hname.symm).2
  rw [hmeta] at hplain
  cases hplain

/-- What is written under each name. -/
def Writes (stream : TarStream) (file : FileName → Option TarStream) : Prop :=
  ∀ write ∈ stream.writes, file write.1 = write.2

/-- In an archive that stays apart each name has one file. -/
theorem Apart.exists_writes (hapart : stream.Apart) : ∃ file, stream.Writes file := by
  rw [Apart] at hapart
  unfold Writes
  generalize stream.writes = writes at hapart ⊢
  induction writes with
  | nil => exact ⟨fun _ => none, by simp⟩
  | cons write writes ih =>
    obtain ⟨hfirst, hrest⟩ := List.pairwise_cons.1 hapart
    obtain ⟨file, hfile⟩ := ih hrest
    refine ⟨Function.update file write.1 write.2, ?_⟩
    rw [List.forall_mem_cons]
    refine ⟨Function.update_self _ _ _, fun other hother => ?_⟩
    by_cases hname : other.1 = write.1
    · rw [hname, Function.update_self]
      exact (hfirst other hother hname.symm).1
    · rw [Function.update_of_ne hname]
      exact hfile other hother

theorem Writes.rest {file : FileName → Option TarStream} {content rest : TarStream}
    (hwrites : (member name extraction content rest).Writes file) : rest.Writes file :=
  fun write hwrite => hwrites write (List.mem_append_right _ hwrite)

theorem Writes.content {file : FileName → Option TarStream} {content rest : TarStream}
    (hnested : isNested name extraction = true)
    (hwrites : (member name extraction content rest).Writes file) : content.Writes file := by
  obtain rfl := isNested_extracted hnested
  intro write hwrite
  apply hwrites
  rw [writes, if_pos hnested]
  exact List.mem_append_left _ (List.mem_cons_of_mem _ hwrite)

/-- The file of a member that can be read is its content. -/
theorem Writes.readable {file : FileName → Option TarStream} (hwrites : stream.Writes file)
    (hreadable : entry ∈ stream.readable) : file entry.1 = some entry.2 :=
  hwrites _ (readable_writes hreadable)

end TarStream

/-! ## What is unpacked -/

/-- What unpacking gives where each name has one file: the entries by their names, the file of
each of them in the directory, and every file that was there already. -/
structure Decompressed.Gives (result : Decompressed) (entries : List (FileName × TarStream))
    (err : Bool) (file : FileName → Option TarStream) (disk : Disk) : Prop where
  fileNames : result.fileNames = entries.map Prod.fst
  err : result.err = err
  intact : ∀ entry ∈ entries, result.disk entry.1 = file entry.1
  kept : ∀ name, disk name = file name → result.disk name = file name

variable {file : FileName → Option TarStream}

/-- A member that is written has its file. -/
theorem decompressSingleFile_writes {name : FileName} {extraction : Extraction}
    {content rest : TarStream} (hwrites : (TarStream.member name extraction content rest).Writes file)
    (disk : Disk) :
    (extraction = .extracted →
      (decompressSingleFile name extraction content disk).2 name = file name) ∧
    ∀ other, disk other = file other →
      (decompressSingleFile name extraction content disk).2 other = file other := by
  have hwritten : ∀ written, (name, written) ∈
      (TarStream.member name extraction content rest).writes → ∀ other, disk other = file other →
        Function.update disk name written other = file other := by
    intro written hmem other hother
    by_cases hname : other = name
    · rw [hname, Function.update_self]
      exact (hwrites _ hmem).symm
    · rw [Function.update_of_ne hname, hother]
  cases extraction with
  | extracted =>
    have hmem : (name, some content) ∈ (TarStream.member name .extracted content rest).writes := by
      simp [TarStream.writes]
    refine ⟨fun _ => ?_, hwritten _ hmem⟩
    simp only [decompressSingleFile, Function.update_self]
    exact (hwrites _ hmem).symm
  | notCreated => exact ⟨by simp, fun _ hother => hother⟩
  | notCopied =>
    have hmem : (name, none) ∈ (TarStream.member name .notCopied content rest).writes := by
      simp [TarStream.writes]
    exact ⟨by simp, hwritten _ hmem⟩

open TarStream in
/-- The members of an archive itself are extracted. -/
theorem extractMembers_gives (goesOn : FileName → Bool) {itself : Option FileName}
    {stream : TarStream} (hwrites : stream.Writes file)
    (hitself : ∀ write ∈ stream.writes, itself ≠ some write.1) (disk : Disk) :
    (extractMembers goesOn itself stream disk).Gives stream.own (!stream.complete) file disk := by
  induction stream generalizing disk with
  | ended | failed =>
    constructor
    · simp [extractMembers, own]
    · simp [extractMembers, complete]
    · simp [own]
    · simp [extractMembers]
  | member name extraction content rest _ ih =>
    obtain ⟨hsingle, hothers⟩ := decompressSingleFile_writes hwrites disk
    have hrest := ih hwrites.rest
      (fun write hwrite => hitself write (List.mem_append_right _ hwrite))
      (decompressSingleFile name extraction content disk).2
    have hother : ¬ (extraction ≠ .notCreated ∧ itself = some name ∧ goesOn name = false) := by
      rintro ⟨hcreated, hsame, -⟩
      cases extraction with
      | notCreated => exact hcreated rfl
      | extracted => exact hitself (name, some content) (by simp [writes]) hsame
      | notCopied => exact hitself (name, none) (by simp [writes]) hsame
    rw [extractMembers]
    simp only
    rw [if_neg hother]
    constructor
    · rw [hrest.fileNames, own]
      cases extraction with
      | extracted | notCreated | notCopied => simp [decompressSingleFile]
    · rw [hrest.err, complete]
    · intro entry hentry
      rcases mem_own_member.1 hentry with ⟨hextracted, rfl⟩ | hentry
      · exact hrest.kept name (hsingle hextracted)
      · exact hrest.intact entry hentry
    · intro inner hinner
      exact hrest.kept inner (hothers inner hinner)

open TarStream in
/-- The metaarchives that were extracted are unpacked up to the first that fails. -/
theorem extractNested_gives {expand : FileName → Disk → Option Decompressed} {stream : TarStream}
    (hapart : stream.Apart) (hwrites : stream.Writes file) {disk : Disk}
    (hdisk : ∀ entry ∈ stream.own, disk entry.1 = file entry.1)
    (hexpand : ∀ entry ∈ stream.own, entry.2.Apart → entry.2.Writes file →
      (∀ write ∈ entry.2.writes, write.1 ≠ entry.1) →
      ∀ disk : Disk, disk entry.1 = some entry.2 → ∃ result, expand entry.1 disk = some result ∧
        result.Gives entry.2.unpacked entry.2.fails file disk) :
    ∃ result, extractNested expand (stream.own.map Prod.fst) disk = some result ∧
      result.Gives stream.unpackedNested stream.nestedFails file disk := by
  induction stream generalizing disk with
  | ended | failed =>
    refine ⟨⟨[], false, disk⟩, by simp [own, extractNested], ?_⟩
    constructor
    · simp [unpackedNested]
    · simp [nestedFails]
    · simp [unpackedNested]
    · simp
  | member name extraction content rest _ ih =>
    by_cases hextracted : extraction = .extracted
    · have hfile : file name = some content :=
        hwrites.readable (mem_readable_member.2 (.inl (.inl ⟨hextracted, rfl⟩)))
      rw [own, if_pos hextracted] at hdisk hexpand ⊢
      rw [List.forall_mem_cons] at hdisk hexpand
      rw [List.map_cons, extractNested]
      by_cases hmeta : hasSuffix name metaArchiveExtension = true
      · have hnested : isNested name extraction = true := by simp [isNested, hextracted, hmeta]
        obtain ⟨hcontent, hnames⟩ := hapart.content hnested
        obtain ⟨inside, hinside, hgives⟩ := hexpand.1 hcontent (hwrites.content hnested) hnames disk
          (hdisk.1.trans hfile)
        rw [if_pos hmeta, hinside, Option.bind_some, hgives.err]
        by_cases hfails : content.fails = true
        · rw [if_pos hfails]
          refine ⟨inside, rfl, ?_⟩
          constructor
          · rw [hgives.fileNames, unpackedNested, if_pos hnested, if_pos hfails, List.append_nil,
              unpacked]
          · rw [hgives.err, nestedFails, hnested, Bool.true_and, ← TarStream.fails, hfails]
            simp
          · rw [unpackedNested, if_pos hnested, if_pos hfails, List.append_nil, ← unpacked]
            exact hgives.intact
          · exact hgives.kept
        · obtain ⟨others, hothers, hrest⟩ := ih hapart.rest hwrites.rest
            (fun entry hentry => hgives.kept entry.1 (hdisk.2 entry hentry)) hexpand.2
          rw [if_neg hfails, hothers, Option.map_some]
          refine ⟨_, rfl, ?_⟩
          constructor
          · rw [hgives.fileNames, hrest.fileNames, unpackedNested, if_pos hnested, if_neg hfails,
              ← unpacked, List.map_append]
          · rw [hrest.err, nestedFails, hnested, Bool.true_and, ← TarStream.fails]
            simp [hfails]
          · rw [unpackedNested, if_pos hnested, if_neg hfails, ← unpacked]
            intro entry hentry
            rw [List.mem_append] at hentry
            rcases hentry with hfirst | hlater
            · exact hrest.kept entry.1 (hgives.intact entry hfirst)
            · exact hrest.intact entry hlater
          · exact fun other hother => hrest.kept other (hgives.kept other hother)
      · have hnested : ¬ isNested name extraction = true := by simp [isNested, hmeta]
        obtain ⟨others, hothers, hrest⟩ := ih hapart.rest hwrites.rest hdisk.2 hexpand.2
        rw [if_neg hmeta, hothers]
        refine ⟨others, rfl, ?_⟩
        simpa [unpackedNested, nestedFails, hnested] using hrest
    · have hnested : ¬ isNested name extraction = true :=
        fun hnested => hextracted (isNested_extracted hnested)
      rw [own, if_neg hextracted] at hdisk hexpand ⊢
      obtain ⟨others, hothers, hrest⟩ := ih hapart.rest hwrites.rest hdisk hexpand
      refine ⟨others, hothers, ?_⟩
      simpa [unpackedNested, nestedFails, hnested] using hrest

theorem TarStream.own_depth {stream : TarStream} {entry : FileName × TarStream}
    (hown : entry ∈ stream.own) : entry.2.depth < stream.depth := by
  induction stream with
  | ended | failed => simp [own] at hown
  | member name extraction content rest _ ih =>
    rw [depth]
    rcases mem_own_member.1 hown with ⟨-, rfl⟩ | hlater
    · simp only
      omega
    · have hlt := ih hlater
      omega

open TarStream in
/-- A metaarchive that stays apart is unpacked up to its failures. -/
theorem decompress_gives (goesOn : FileName → Bool) {calls : ℕ} {itself : Option FileName}
    {stream : TarStream} (hdepth : stream.depth < calls) (hapart : stream.Apart)
    (hwrites : stream.Writes file) (hitself : ∀ write ∈ stream.writes, itself ≠ some write.1)
    (disk : Disk) :
    ∃ result, decompress goesOn calls itself (some stream) disk = some result ∧
      result.Gives stream.unpacked stream.fails file disk := by
  induction calls generalizing itself stream disk with
  | zero => omega
  | succ calls ih =>
    have hfound := extractMembers_gives goesOn hwrites hitself disk
    rw [decompress]
    by_cases hcomplete : stream.complete = true
    · have hread : (extractMembers goesOn itself stream disk).err = false := by
        rw [hfound.err, hcomplete, Bool.not_true]
      have hexpand : ∀ entry ∈ stream.own, entry.2.Apart → entry.2.Writes file →
          (∀ write ∈ entry.2.writes, write.1 ≠ entry.1) →
          ∀ disk : Disk, disk entry.1 = some entry.2 → ∃ result,
            decompress goesOn calls (some entry.1) (disk entry.1) disk = some result ∧
              result.Gives entry.2.unpacked entry.2.fails file disk := by
        intro entry hentry hinside hfile hnames disk hthere
        have hlt := own_depth hentry
        rw [hthere]
        apply ih (by omega) hinside hfile
        intro write hwrite heq
        exact hnames write hwrite (Option.some.inj heq).symm
      obtain ⟨nested, hnested, hgives⟩ := @extractNested_gives file
        (fun fileName disk => decompress goesOn calls (some fileName) (disk fileName) disk) stream
        hapart hwrites _ hfound.intact hexpand
      rw [if_neg (by simp [hread]), hfound.fileNames, hnested, Option.map_some]
      refine ⟨_, rfl, ?_⟩
      constructor
      · rw [hgives.fileNames, unpacked, if_pos hcomplete, List.map_append]
      · rw [hgives.err, TarStream.fails, hcomplete]
        simp
      · intro entry hentry
        rw [unpacked, if_pos hcomplete, List.mem_append] at hentry
        rcases hentry with hown | hinner
        · exact hgives.kept entry.1 (hfound.intact entry hown)
        · exact hgives.intact entry hinner
      · exact fun other hother => hgives.kept other (hfound.kept other hother)
    · have hread : (extractMembers goesOn itself stream disk).err = true := by
        rw [hfound.err]
        simp [hcomplete]
      rw [if_pos hread]
      refine ⟨_, rfl, ?_⟩
      constructor
      · rw [hfound.fileNames, unpacked, if_neg hcomplete, List.append_nil]
      · rw [hread, TarStream.fails]
        simp [hcomplete]
      · rw [unpacked, if_neg hcomplete, List.append_nil]
        exact hfound.intact
      · exact hfound.kept

/-- What is in front of an element that comes later begins with all that comes before. -/
theorem mem_before {α : Type*} {first second before after : List α} {x : α}
    (hsplit : first ++ second = before ++ x :: after) (hx : x ∉ first) :
    ∀ y ∈ first, y ∈ before := by
  intro y hy
  rcases List.append_eq_append_iff.1 hsplit with ⟨more, rfl, -⟩ | ⟨more, hfirst, hmore⟩
  · exact List.mem_append_left _ hy
  · cases more with
    | nil =>
      rw [List.append_nil] at hfirst
      exact hfirst ▸ hy
    | cons z more =>
      obtain ⟨rfl, -⟩ := List.cons.inj hmore
      exact absurd (hfirst ▸ by simp) hx

/-- A metaarchive with an archive in the metaarchive inside it. -/
def nestedArchive : TarStream :=
  .member "a.metatargz" .extracted (.member "x.tar.gz" .extracted .failed .ended)
    (.member "y.txt" .extracted .failed .ended)

end HybridOs.CloudSync
