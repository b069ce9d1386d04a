import JobRadar.Backups
import JobRadar.JsonDumps
import JobRadar.SchedulerFaults
import JobRadar.Sequence

namespace Python

/-- `json.dumps(fields, indent=2)` of an object without lists and objects in it. -/
def dumpsIndented (fields : List (Text × Json)) : Text :=
  let lines := fields.map fun (key, value) => text "\n  " ++ quoted key ++ text ": " ++ value.dumps
  text "\x7b" ++ (lines.intersperse (text ",")).flatten ++ text "\n\x7d"

end Python

namespace JobRadar

open Database Python Sequence

/-- What is found under a name, and when it was last written. -/
abbrev Content := Option Bytes × Time

instance (dir : Directory) (entry : DirEntry) : Decidable (entry ∈ dir) :=
  inferInstanceAs (Decidable (entry ∈ dir.rows))

namespace Directory

variable (dir : Directory)

def unlink (name : Text) : Directory := dir.deleteWhere fun entry => entry.name = name

/-- The directory once a command has left this, or nothing, under the name. -/
def leave (name : Text) : Option Content → Directory
  | none => unlink dir name
  | some (bytes, modified) => dir.put ⟨name, bytes, modified⟩

/-- `source.replace(target)`, with `none` for an `OSError`: a directory takes no other place, and
its own place is not taken. -/
def replace (source target : Text) : Option Directory :=
  match dir.find source with
  | none => none
  | some moved =>
    if (dir.find target).any fun old => old.bytes.isNone || moved.bytes.isNone then none
    else some ((unlink dir source).put { moved with name := target })

/-- `path.write_text`, with `none` for the `OSError` of a directory. -/
def writeBytes (name : Text) (bytes : Bytes) (now : Time) : Option Directory :=
  match dir.find name with
  | some ⟨_, none, _⟩ => none
  | _ => some (dir.put ⟨name, some bytes, now⟩)

end Directory

inductive BackupFailure (ρ : Type)
  | runner (error : ρ)
  | osError
  | overflowError

/-- `glob("*.dump")`. -/
def IsDump (name : Text) : Prop := text ".dump" <:+ name

instance (name : Text) : Decidable (IsDump name) := inferInstanceAs (Decidable (_ <:+ _))

/-- The three files of a backup, by the name of the dump. -/
def backupFiles (name : Text) : List Text :=
  [name, name.withSuffix (text ".sha256"), name.withSuffix (text ".json")]

/-- `path.unlink(missing_ok=True)` for one path after another, which a directory ends. -/
def unlinkAll (dir : Directory) : List Text → Directory × Except (BackupFailure ρ) Unit
  | [] => (dir, .ok ())
  | name :: names =>
    match dir.find name with
    | some ⟨_, none, _⟩ => (dir, .error .osError)
    | _ => unlinkAll (Directory.unlink dir name) names

/-- The loop of `cleanup_backups`. No turn touches the dump of another. -/
def removeExpired (cutoff : Int) (dir : Directory) :
    List DirEntry → Directory × Except (BackupFailure ρ) Nat
  | [] => (dir, .ok 0)
  | dump :: dumps =>
    if dump.modified < cutoff then
      match unlinkAll dir (backupFiles dump.name) with
      | (dir, .error e) => (dir, .error e)
      | (dir, .ok ()) =>
        match removeExpired cutoff dir dumps with
        | (dir, .error e) => (dir, .error e)
        | (dir, .ok removed) => (dir, .ok (removed + 1))
    else removeExpired cutoff dir dumps

/-- `now - timedelta(days=retention_days)`, before it is checked. -/
def cutoff (retentionDays : Int) (now : Time) : Int := now - retentionDays * 86400000000

def cleanupBackups (dir : Directory) (retentionDays : Int) (now : Time) :
    Directory × Except (BackupFailure ρ) Nat :=
  if 0 ≤ cutoff retentionDays now ∧ cutoff retentionDays now ≤ datetimeMax then
    removeExpired (cutoff retentionDays now) dir (dir.rows.filter fun entry => IsDump entry.name)
  else (dir, .error .overflowError)

/-- What `pg_dump` leaves under the name it was given, and the error it ends in, if any. -/
structure DumpOutcome (ρ : Type) where
  left : Option Content
  error : Option ρ

/-- A call of `backup_once`: its time, what the commands do, and when it writes the two files
beside the dump, which is after the dump. -/
structure BackupCall (ρ : Type) where
  now : Time
  pgDump : Command → DumpOutcome ρ
  pgRestore : Command → Option ρ
  checksumAt : Time
  metadataAt : Time
  dump_first : ∀ command, ∀ content ∈ (pgDump command).left, content.2 ≤ checksumAt
  checksum_next : checksumAt ≤ metadataAt

/-- The names in the backup directory. -/
structure BackupResult where
  dumpFile : Text
  checksumFile : Text
  metadataFile : Text

/-- The settings of the service, and what it uses of the standard library: paths in the backup
directory, SHA-256 in hexadecimal, text files, the environment, `strftime` and `isoformat`. -/
structure BackupService where
  databaseUrl : DatabaseUrl
  retentionDays : Int
  path : Text → Text
  sha256 : Bytes → Text
  decode : Bytes → Option Text
  encode : Text → Bytes
  environ : Text → Option Text
  strftime : Time → Text
  isoformat : Time → Text

namespace BackupService

variable {ρ : Type} (service : BackupService)

def host (dir : Directory) (pgRestore : Command → Option ρ) : BackupHost ρ :=
  ⟨dir, service.path, service.sha256, service.decode, service.environ, pgRestore⟩

def stem (now : Time) : Text := text "jobradar-" ++ service.strftime now

def dumpFile (now : Time) : Text := service.stem now ++ text ".dump"

def temporaryFile (now : Time) : Text := service.stem now ++ text ".dump.tmp"

def checksumFile (now : Time) : Text := service.stem now ++ text ".sha256"

def metadataFile (now : Time) : Text := service.stem now ++ text ".json"

def checksumText (now : Time) (digest : Text) : Text :=
  digest ++ text "  " ++ service.dumpFile now ++ text "\n"

def metadataText (now : Time) (digest : Text) (size : Nat) : Text :=
  dumpsIndented
    [(text "created_at", .str (service.isoformat now)),
      (text "database", service.databaseUrl.database.elim .null .str),
      (text "format", .str (text "custom")),
      (text "sha256", .str digest),
      (text "size_bytes", .int size)] ++ text "\n"

variable (dir : Directory) (call : BackupCall ρ)

def dumpCommand : Command :=
  let (options, environment) :=
    (service.host dir call.pgRestore).databaseOptions service.databaseUrl
  { args := [text "pg_dump", text "--format=custom", text "--file",
      service.path (service.temporaryFile call.now)] ++ options ++
      [service.databaseUrl.database.getD []]
    environment := environment }

def dumped : Directory :=
  Directory.leave dir (service.temporaryFile call.now)
    (call.pgDump (service.dumpCommand dir call)).left

/-- The error of `pg_dump` or else of `pg_restore --list`. -/
def commandError : Option ρ :=
  match (call.pgDump (service.dumpCommand dir call)).error with
  | some error => some error
  | none => call.pgRestore ((service.host dir call.pgRestore).listCommand
      (service.temporaryFile call.now) service.databaseUrl)

/-- The dump under its name, and the files beside it. An `OSError` leaves what is there so far. -/
def publish : Directory × Except (BackupFailure ρ) Unit :=
  match Directory.replace dir (service.temporaryFile call.now) (service.dumpFile call.now) with
  | none => (dir, .error .osError)
  | some dir =>
    match readBytes dir (service.dumpFile call.now) with
    | none => (dir, .error .osError)
    | some bytes =>
      let digest := service.sha256 bytes
      match Directory.writeBytes dir (service.checksumFile call.now)
          (service.encode (service.checksumText call.now digest)) call.checksumAt with
      | none => (dir, .error .osError)
      | some dir =>
        match Directory.writeBytes dir (service.metadataFile call.now)
            (service.encode (service.metadataText call.now digest bytes.length))
            call.metadataAt with
        | none => (dir, .error .osError)
        | some dir => (dir, .ok ())

def backupOnce : Directory × Except (BackupFailure ρ) BackupResult :=
  let dumped := service.dumped dir call
  match service.commandError dir call with
  | some error => (dumped, .error (.runner error))
  | none =>
    match service.publish dumped call with
    | (dir, .error e) => (dir, .error e)
    | (dir, .ok ()) =>
      match cleanupBackups dir service.retentionDays call.now with
      | (dir, .error e) => (dir, .error e)
      | (dir, .ok _) =>
        (dir, .ok ⟨service.dumpFile call.now, service.checksumFile call.now,
          service.metadataFile call.now⟩)

def backupStep (dir : Directory) (call : BackupCall ρ) : Directory :=
  (service.backupOnce dir call).1

def CommandFails (c : Call (BackupCall ρ) Directory) : Prop :=
  (service.commandError c.before c.call).isSome

def Returns (c : Call (BackupCall ρ) Directory) : Prop :=
  ∃ result, (service.backupOnce c.before c.call).2 = .ok result

instance (c : Call (BackupCall ρ) Directory) : Decidable (service.Returns c) :=
  match h : (service.backupOnce c.before c.call).2 with
  | .ok result => isTrue ⟨result, h⟩
  | .error _ => isFalse fun ⟨_, hok⟩ => by cases h.symm.trans hok

instance (c : Call (BackupCall ρ) Directory) : Decidable (service.CommandFails c) :=
  inferInstanceAs (Decidable (_ = true))

def SameFiles (before after : Directory) : Prop :=
  ∀ name, (after.find name).map DirEntry.bytes = (before.find name).map DirEntry.bytes

/-- `pg_dump` leaves under the name of its file what was there before. -/
def LeavesNothing (c : Call (BackupCall ρ) Directory) : Prop :=
  (c.call.pgDump (service.dumpCommand c.before c.call)).left.map Prod.fst =
    (c.before.find (service.temporaryFile c.call.now)).map DirEntry.bytes

instance (c : Call (BackupCall ρ) Directory) : Decidable (service.LeavesNothing c) :=
  inferInstanceAs (Decidable (_ = _))

/-- It does not even write it anew. -/
def LeavesAlone (c : Call (BackupCall ρ) Directory) : Prop :=
  (c.call.pgDump (service.dumpCommand c.before c.call)).left =
    (c.before.find (service.temporaryFile c.call.now)).map
      fun entry => (entry.bytes, entry.modified)

instance (c : Call (BackupCall ρ) Directory) : Decidable (service.LeavesAlone c) :=
  inferInstanceAs (Decidable (_ = _))

/-- The call puts the file into the directory, or writes it anew. -/
def Writes (c : Call (BackupCall ρ) Directory) (entry : DirEntry) : Prop :=
  entry ∈ service.backupStep c.before c.call ∧ entry ∉ c.before

/-- Once a call has returned, no file of an earlier one is left that is older than the retention
period. -/
def ExpiredGone (calls : List (Call (BackupCall ρ) Directory)) : Prop :=
  ∀ later c earlier, calls = later ++ c :: earlier → service.Returns c →
    ∀ c' ∈ earlier, ∀ entry, service.Writes c' entry →
      entry.modified < cutoff service.retentionDays c.call.now →
      entry ∉ service.backupStep c.before c.call

end BackupService

section Files

variable {ρ : Type} {dir dir' : Directory} {name new : Text} {entry : DirEntry}

theorem mem_unlink : entry ∈ Directory.unlink dir name ↔ entry ∈ dir ∧ entry.name ≠ name :=
  Table.mem_deleteWhere

theorem find_leave (left : Option Content) : (Directory.leave dir name left).find new =
    if new = name then left.map fun content => ⟨name, content.1, content.2⟩ else dir.find new := by
  cases left with
  | none => exact Table.find_deleteWhere_key ..
  | some content => exact Table.find_put ..

theorem mem_leave {left : Option Content} (h : entry.name ≠ name) :
    entry ∈ Directory.leave dir name left ↔ entry ∈ dir := by
  have hfind : ∀ t : Directory, entry ∈ t ↔ t.find entry.name = some entry := fun t =>
    ⟨Table.find_of_mem, fun hfound => (Table.find_eq_some_iff.mp hfound).1⟩
  rw [hfind, hfind, find_leave, if_neg h]

theorem sameFiles_leave_iff {left : Option Content} :
    BackupService.SameFiles dir (Directory.leave dir name left) ↔
      left.map Prod.fst = (dir.find name).map DirEntry.bytes := by
  constructor
  · intro hsame
    have hname := hsame name
    rw [find_leave, if_pos rfl, Option.map_map] at hname
    exact hname
  · intro hleft other
    rw [find_leave]
    split
    next hother =>
      rw [hother, Option.map_map]
      exact hleft
    next => rfl

theorem mem_leave_found : entry ∈ Directory.leave dir name
    ((dir.find name).map fun found => (found.bytes, found.modified)) ↔ entry ∈ dir := by
  by_cases hname : entry.name = name
  · cases hfound : dir.find name with
    | none =>
      have hnot : entry ∉ dir := fun hin => Table.find_eq_none_iff.mp hfound entry hin hname
      simp [Directory.leave, mem_unlink, hnot]
    | some found =>
      obtain ⟨hin, rfl⟩ := Table.find_eq_some_iff.mp hfound
      simp only [Option.map_some, Directory.leave, Table.mem_put, hname, ne_eq, not_true_eq_false,
        and_false, false_or]
      exact ⟨fun h => h ▸ hin, fun h => Table.eq_of_key_eq h hin hname⟩
  · exact mem_leave hname

theorem mem_replace {source target : Text} (h : Directory.replace dir source target = some dir') :
    ∃ moved, dir.find source = some moved ∧ ∀ entry, entry ∈ dir' ↔
      (entry ∈ dir ∧ entry.name ≠ source ∧ entry.name ≠ target) ∨
        entry = { moved with name := target } := by
  unfold Directory.replace at h
  split at h
  next => cases h
  next moved hsource =>
    split at h
    next => cases h
    next =>
      cases h
      refine ⟨moved, hsource, ?_⟩
      intro entry
      rw [Table.mem_put, mem_unlink, and_assoc]

theorem mem_writeBytes {bytes : Bytes} {now : Time}
    (h : Directory.writeBytes dir name bytes now = some dir') :
    entry ∈ dir' ↔ (entry ∈ dir ∧ entry.name ≠ name) ∨ entry = ⟨name, some bytes, now⟩ := by
  unfold Directory.writeBytes at h
  split at h
  next => cases h
  next =>
    cases h
    exact Table.mem_put

theorem mem_unlinkAll {names : List Text}
    (h : unlinkAll dir names = (dir', (.ok () : Except (BackupFailure ρ) Unit))) :
    entry ∈ dir' ↔ entry ∈ dir ∧ entry.name ∉ names := by
  induction names generalizing dir with
  | nil =>
    cases h
    simp
  | cons name names ih =>
    rw [unlinkAll] at h
    split at h
    next => cases h
    next => rw [ih h, mem_unlink, and_assoc, List.mem_cons, not_or]

theorem mem_removeExpired {cutoff : Int} {dumps : List DirEntry} {removed : Nat}
    (h : removeExpired cutoff dir dumps =
      (dir', (.ok removed : Except (BackupFailure ρ) Nat))) :
    entry ∈ dir' ↔ entry ∈ dir ∧
      ∀ dump ∈ dumps, dump.modified < cutoff → entry.name ∉ backupFiles dump.name := by
  induction dumps generalizing dir removed with
  | nil =>
    cases h
    simp
  | cons dump dumps ih =>
    rw [removeExpired] at h
    split at h
    next hexpired =>
      split at h
      next => cases h
      next rest hfirst =>
        split at h
        next => cases h
        next after removed' hrest =>
          cases h
          rw [ih hrest, mem_unlinkAll hfirst, List.forall_mem_cons, and_assoc]
          simp [hexpired]
    next hkept => rw [ih h, List.forall_mem_cons]; simp [hkept]

theorem mem_cleanupBackups {retentionDays : Int} {now : Time} {removed : Nat}
    (h : cleanupBackups dir retentionDays now =
      (dir', (.ok removed : Except (BackupFailure ρ) Nat))) :
    entry ∈ dir' ↔ entry ∈ dir ∧ ∀ dump ∈ dir, IsDump dump.name →
      dump.modified < cutoff retentionDays now → entry.name ∉ backupFiles dump.name := by
  unfold cleanupBackups at h
  split at h
  next =>
    rw [mem_removeExpired h]
    simp only [List.mem_filter, decide_eq_true_eq, and_imp, Table.mem_rows]
  next => cases h

end Files

section Names

variable {name name' front ending : Text}

theorem withSuffix_dump (hfront : front ≠ []) (new : Text) :
    (front ++ text ".dump").withSuffix new = front ++ new := by
  have hlast : (front ++ text ".dump").rtakeWhile (· ≠ 46) = text "dump" := by
    simp [text, List.rtakeWhile]
  have hlong : (text "dump").length + 1 < (front ++ text ".dump").length := by
    have hpos := List.length_pos_iff.mpr hfront
    rw [List.length_append]
    change 5 < front.length + 5
    omega
  have hsuffix : (front ++ text ".dump").suffix = text ".dump" := by
    unfold Text.suffix
    dsimp only
    rw [hlast, if_pos ⟨hlong, by decide⟩]
    rfl
  rw [Text.withSuffix, hsuffix, List.length_append, Nat.add_sub_cancel, List.take_left]

theorem not_isDump_append (hlong : (text ".dump").length ≤ ending.length)
    (hending : ¬IsDump ending) : ¬IsDump (front ++ ending) := by
  intro hdump
  exact hending (List.suffix_of_suffix_length_le hdump (List.suffix_append ..) hlong)

theorem eq_of_mem_backupFiles (hdump : IsDump name) (h : name ∈ backupFiles name') :
    name = name' := by
  simp only [backupFiles, List.mem_cons, List.not_mem_nil, or_false] at h
  rcases h with h | rfl | rfl
  · exact h
  · exact absurd hdump (not_isDump_append (by decide) (by decide))
  · exact absurd hdump (not_isDump_append (by decide) (by decide))

end Names

namespace BackupService

variable {ρ : Type} {service : BackupService} {dir dir' : Directory} {call : BackupCall ρ}
  {entry : DirEntry} {now : Time}

theorem stem_ne_nil : service.stem now ≠ [] := List.append_ne_nil_of_left_ne_nil (by decide) _

theorem isDump_dumpFile : IsDump (service.dumpFile now) := List.suffix_append ..

theorem not_isDump_temporaryFile : ¬IsDump (service.temporaryFile now) :=
  not_isDump_append (by decide) (by decide)

theorem not_isDump_checksumFile : ¬IsDump (service.checksumFile now) :=
  not_isDump_append (by decide) (by decide)

theorem not_isDump_metadataFile : ¬IsDump (service.metadataFile now) :=
  not_isDump_append (by decide) (by decide)

theorem backupFiles_dumpFile : backupFiles (service.dumpFile now) =
    [service.dumpFile now, service.checksumFile now, service.metadataFile now] := by
  unfold backupFiles dumpFile checksumFile metadataFile
  rw [withSuffix_dump stem_ne_nil, withSuffix_dump stem_ne_nil]

theorem checksumFile_ne : service.dumpFile now ≠ service.checksumFile now := fun h =>
  not_isDump_checksumFile (h ▸ isDump_dumpFile)

theorem metadataFile_ne : service.dumpFile now ≠ service.metadataFile now := fun h =>
  not_isDump_metadataFile (h ▸ isDump_dumpFile)

theorem checksumFile_ne_metadataFile : service.checksumFile now ≠ service.metadataFile now := by
  intro h
  have hendings : text ".sha256" = text ".json" := List.append_cancel_left h
  revert hendings
  decide

def callFiles (service : BackupService) (now : Time) : List Text :=
  service.temporaryFile now :: backupFiles (service.dumpFile now)

theorem mem_callFiles_iff {name : Text} : name ∈ service.callFiles now ↔
    name = service.temporaryFile now ∨ name = service.dumpFile now ∨
      name = service.checksumFile now ∨ name = service.metadataFile now := by
  simp [callFiles, backupFiles_dumpFile]

/-- A file goes when its dump does, and that is before the file itself would. -/
def Covered (dir : Directory) (entry : DirEntry) : Prop :=
  ∃ dump ∈ dir, IsDump dump.name ∧ entry.name ∈ backupFiles dump.name ∧
    dump.modified ≤ entry.modified

/-- The files of the call replace what was under their names, each covered by the dump. -/
structure Published (service : BackupService) (call : BackupCall ρ) (dir dir' : Directory) :
    Prop where
  kept : ∀ entry ∈ dir, entry.name ∉ service.callFiles call.now → entry ∈ dir'
  origin : ∀ entry ∈ dir', entry ∈ dir ∧ entry.name ∉ service.callFiles call.now ∨
    Covered dir' entry

theorem publish_ok (h : service.publish dir call = (dir', .ok ())) :
    ∃ moved summed checksum metadata,
      Directory.replace dir (service.temporaryFile call.now) (service.dumpFile call.now) =
        some moved ∧
      Directory.writeBytes moved (service.checksumFile call.now) checksum call.checksumAt =
        some summed ∧
      Directory.writeBytes summed (service.metadataFile call.now) metadata call.metadataAt =
        some dir' := by
  unfold publish at h
  split at h
  next => cases h
  next moved hmoved =>
    split at h
    next => cases h
    next =>
      dsimp only at h
      split at h
      next => cases h
      next summed hsummed =>
        split at h
        next => cases h
        next hdescribed =>
          cases h
          exact ⟨moved, summed, _, _, hmoved, hsummed, hdescribed⟩

theorem published (hfirst : ∀ moved, dir.find (service.temporaryFile call.now) = some moved →
      moved.modified ≤ call.checksumAt)
    (h : service.publish dir call = (dir', .ok ())) : service.Published call dir dir' := by
  obtain ⟨moved, summed, checksum, metadata, hmoved, hsummed, hdescribed⟩ := publish_ok h
  obtain ⟨temporary, htemporary, hmem⟩ := mem_replace hmoved
  have hchecksum := hfirst temporary htemporary
  have hdump : { temporary with name := service.dumpFile call.now } ∈ dir' := by
    have hinMoved := (hmem _).mpr (Or.inr rfl)
    have hinSummed := (mem_writeBytes hsummed).mpr (Or.inl ⟨hinMoved, checksumFile_ne⟩)
    exact (mem_writeBytes hdescribed).mpr (Or.inl ⟨hinSummed, metadataFile_ne⟩)
  have hcovered : ∀ entry : DirEntry, entry.name ∈ backupFiles (service.dumpFile call.now) →
      temporary.modified ≤ entry.modified → Covered dir' entry :=
    fun entry hname hle => ⟨_, hdump, isDump_dumpFile, hname, hle⟩
  constructor
  · intro entry hentry hname
    rw [mem_callFiles_iff, not_or, not_or, not_or] at hname
    obtain ⟨hnotTemporary, hnotDump, hnotChecksum, hnotMetadata⟩ := hname
    have hinMoved := (hmem entry).mpr (Or.inl ⟨hentry, hnotTemporary, hnotDump⟩)
    have hinSummed := (mem_writeBytes hsummed).mpr (Or.inl ⟨hinMoved, hnotChecksum⟩)
    exact (mem_writeBytes hdescribed).mpr (Or.inl ⟨hinSummed, hnotMetadata⟩)
  · intro entry hentry
    rcases (mem_writeBytes hdescribed).mp hentry with ⟨hinSummed, hnotMetadata⟩ | rfl
    · rcases (mem_writeBytes hsummed).mp hinSummed with ⟨hinMoved, hnotChecksum⟩ | rfl
      · rcases (hmem entry).mp hinMoved with ⟨hin, hnotTemporary, hnotDump⟩ | rfl
        · left
          rw [mem_callFiles_iff]
          exact ⟨hin, by simp [hnotTemporary, hnotDump, hnotChecksum, hnotMetadata]⟩
        · exact Or.inr (hcovered _ (List.mem_cons_self ..) (Nat.le_refl _))
      · exact Or.inr (hcovered _ (by simp [backupFiles_dumpFile]) hchecksum)
    · exact Or.inr (hcovered _ (by simp [backupFiles_dumpFile])
        (Nat.le_trans hchecksum call.checksum_next))

theorem Published.covered (h : service.Published call dir dir') (hentry : entry ∈ dir')
    (hcovered : entry ∈ dir → entry.name ∉ service.callFiles call.now → Covered dir entry) :
    Covered dir' entry := by
  rcases h.origin entry hentry with ⟨hin, hname⟩ | hnew
  · obtain ⟨dump, hdump, hisDump, hfile, hle⟩ := hcovered hin hname
    refine ⟨dump, h.kept dump hdump ?_, hisDump, hfile, hle⟩
    rw [mem_callFiles_iff]
    rintro (hd | hd | hd | hd)
    · exact not_isDump_temporaryFile (hd ▸ hisDump)
    · rw [hd] at hfile
      exact hname (List.mem_cons_of_mem _ hfile)
    · exact not_isDump_checksumFile (hd ▸ hisDump)
    · exact not_isDump_metadataFile (hd ▸ hisDump)
  · exact hnew

theorem cleaned_covered {retentionDays : Int} {removed : Nat}
    (h : cleanupBackups dir retentionDays now =
      (dir', (.ok removed : Except (BackupFailure ρ) Nat)))
    (hentry : entry ∈ dir') (hcovered : Covered dir entry) :
    Covered dir' entry ∧ ¬entry.modified < cutoff retentionDays now := by
  obtain ⟨dump, hdump, hisDump, hfile, hle⟩ := hcovered
  have hyoung : ¬(dump.modified : Int) < cutoff retentionDays now := fun hexpired =>
    ((mem_cleanupBackups h).mp hentry).2 dump hdump hisDump hexpired hfile
  refine ⟨⟨dump, (mem_cleanupBackups h).mpr ⟨hdump, ?_⟩, hisDump, hfile, hle⟩, ?_⟩
  · intro other hother _ hexpired hname
    have hsame := Table.eq_of_key_eq hdump hother (eq_of_mem_backupFiles hisDump hname)
    exact hyoung (hsame ▸ hexpired)
  · intro hexpired
    exact hyoung (Int.lt_of_le_of_lt (Int.ofNat_le.mpr hle) hexpired)

variable {c : Call (BackupCall ρ) Directory} {calls : List (Call (BackupCall ρ) Directory)}
  {dir₀ : Directory}

theorem backupOnce_of_commandError {error : ρ} (h : service.commandError dir call = some error) :
    service.backupOnce dir call = (service.dumped dir call, .error (.runner error)) := by
  simp only [backupOnce, h]

theorem Returns.spec (h : service.Returns c) : ∃ mid removed,
    service.Published c.call (service.dumped c.before c.call) mid ∧
      cleanupBackups mid service.retentionDays c.call.now =
        (service.backupStep c.before c.call, (.ok removed : Except (BackupFailure ρ) Nat)) := by
  obtain ⟨result, h⟩ := h
  unfold backupStep
  unfold backupOnce at h ⊢
  dsimp only at h ⊢
  split at h
  next => cases h
  next hcommand =>
    split at h
    next => cases h
    next mid hpublish =>
      split at h
      next => cases h
      next after removed hcleanup =>
        refine ⟨mid, removed, published ?_ hpublish, by simp only [hcleanup]⟩
        intro moved hmoved
        rw [dumped, find_leave, if_pos rfl] at hmoved
        obtain ⟨content, hcontent, rfl⟩ := Option.map_eq_some_iff.mp hmoved
        exact c.call.dump_first _ content hcontent

theorem Returns.covered (h : service.Returns c)
    (hentry : entry ∈ service.backupStep c.before c.call)
    (hcovered : entry ∈ c.before → Covered c.before entry) :
    Covered (service.backupStep c.before c.call) entry ∧
      ¬entry.modified < cutoff service.retentionDays c.call.now := by
  obtain ⟨mid, removed, hpublished, hcleanup⟩ := h.spec
  have hmid : entry ∈ mid := ((mem_cleanupBackups hcleanup).mp hentry).1
  refine cleaned_covered hcleanup hentry (hpublished.covered hmid ?_)
  intro hdumped hname
  have hbefore := (mem_leave fun heq => hname (mem_callFiles_iff.mpr (Or.inl heq))).mp hdumped
  obtain ⟨dump, hdump, hisDump, hfile, hle⟩ := hcovered hbefore
  refine ⟨dump, (mem_leave ?_).mpr hdump, hisDump, hfile, hle⟩
  intro heq
  exact not_isDump_temporaryFile (heq ▸ hisDump)

theorem mem_backupStep_of_alone (hfails : service.CommandFails c) (halone : service.LeavesAlone c) :
    entry ∈ service.backupStep c.before c.call ↔ entry ∈ c.before := by
  obtain ⟨error, herror⟩ := Option.isSome_iff_exists.mp hfails
  rw [backupStep, backupOnce_of_commandError herror, dumped, halone]
  exact mem_leave_found

theorem written_covered (run : Run service.backupStep dir₀ calls dir)
    (hcalls : ∀ c ∈ calls, service.Returns c ∨ service.CommandFails c ∧ service.LeavesAlone c) :
    ∀ c ∈ calls, ∀ entry, service.Writes c entry → entry ∈ dir → Covered dir entry := by
  induction run with
  | start => simp
  | @next calls before call run ih =>
    have hearlier := ih fun c hc => hcalls c (List.mem_cons_of_mem _ hc)
    intro c hc entry hwrites hentry
    -- Either this call wrote the file, or an earlier one did and it was covered before the call.
    have hcovered : entry ∈ before → Covered before entry := by
      intro hbefore
      rcases List.mem_cons.mp hc with rfl | hc
      · exact absurd hbefore hwrites.2
      · exact hearlier c hc entry hwrites hbefore
    rcases hcalls _ (List.mem_cons_self ..) with hreturns | ⟨hfails, halone⟩
    · exact (hreturns.covered hentry hcovered).1
    · have hsame : ∀ other, other ∈ service.backupStep before call ↔ other ∈ before :=
        fun other => mem_backupStep_of_alone hfails halone
      obtain ⟨dump, hdump, hrest⟩ := hcovered ((hsame entry).mp hentry)
      exact ⟨dump, (hsame dump).mpr hdump, hrest⟩

/-- A call whose commands fail raises, and leaves the directory as it was exactly when `pg_dump`
leaves nothing behind. In a run whose failing calls leave nothing, what is older than the retention
period is gone after each call that returns. -/
theorem failed_backup_iff (ρ : Type) (service : BackupService) :
    (∀ c : Call (BackupCall ρ) Directory, service.CommandFails c →
      (∃ error, (service.backupOnce c.before c.call).2 = .error (.runner error)) ∧
        (SameFiles c.before (service.backupStep c.before c.call) ↔ service.LeavesNothing c)) ∧
      ∀ (dir₀ dir : Directory) (calls : List (Call (BackupCall ρ) Directory)),
        Run service.backupStep dir₀ calls dir →
        (∀ c ∈ calls, service.Returns c ∨ service.CommandFails c ∧ service.LeavesAlone c) →
        service.ExpiredGone calls := by
  constructor
  · intro c hfails
    obtain ⟨error, herror⟩ := Option.isSome_iff_exists.mp hfails
    have hcall := backupOnce_of_commandError herror
    refine ⟨⟨error, congrArg Prod.snd hcall⟩, ?_⟩
    rw [backupStep, hcall]
    exact sameFiles_leave_iff
  · rintro dir₀ dir calls run hcalls later c earlier rfl hreturns c' hc' entry hwrites hexpired
      hentry
    have hearlier := written_covered run.split.1 fun d hd =>
      hcalls d (List.mem_append_right _ (List.mem_cons_of_mem _ hd))
    exact (hreturns.covered hentry (hearlier c' hc' entry hwrites)).2 hexpired

end BackupService

/-- Backups of a database, kept for a week, whose files the process writes in ASCII. -/
def weeklyBackups : BackupService where
  databaseUrl := jobradarUrl
  retentionDays := 7
  path name := text "/backups/" ++ name
  sha256 _ := text "185b0198441f4e8cdb882a49cb5a5d34108aada752d520d41b39bacdfa613e2c"
  decode bytes := if bytes.all (· < 128) then some (bytes.map UInt8.toNat) else none
  encode content := content.map UInt8.ofNat
  environ _ := none
  strftime now :=
    if now = 63902822400000000 then text "20260101T000000Z" else text "20260301T000000Z"
  isoformat now :=
    if now = 63902822400000000 then text "2026-01-01T00:00:00+00:00"
    else text "2026-03-01T00:00:00+00:00"

/-- `pg_dump` leaves a file with these bytes, or none, and the dump can be listed. The two files
beside it take a second each. -/
def backupAt (now : Time) (left : Option Bytes) (error : Option Unit) : BackupCall Unit where
  now := now
  pgDump _ := ⟨left.map (·, now), error⟩
  pgRestore _ := none
  checksumAt := now + 1000000
  metadataAt := now + 2000000
  dump_first := by
    intro _ content hcontent
    obtain ⟨_, _, rfl⟩ := Option.map_eq_some_iff.mp hcontent
    exact Nat.le_add_right ..
  checksum_next := Nat.add_le_add_left (by decide) _

/-- The first of January and the first of March of 2026. -/
def newYear : Time := 63902822400000000

def march : Time := 63907920000000000

namespace BackupService

/-- A `pg_dump` that fails with part of the dump written leaves it behind, and the backup of March
does not take it away. -/
theorem partial_dump_stays :
    let first : Call (BackupCall Unit) Directory :=
      ⟨.empty, backupAt newYear (some (asciiBytes "PGD")) (some ())⟩
    let second : Call (BackupCall Unit) Directory :=
      ⟨weeklyBackups.backupStep .empty first.call,
        backupAt march (some (asciiBytes "backup-data")) none⟩
    weeklyBackups.CommandFails first ∧
      ¬SameFiles first.before (weeklyBackups.backupStep first.before first.call) ∧
      weeklyBackups.Returns second ∧ ¬weeklyBackups.ExpiredGone [second, first] := by
  intro first second
  have hreturns : weeklyBackups.Returns second := by decide
  refine ⟨by decide, ?_, hreturns, ?_⟩
  · intro hsame
    have hname := hsame (weeklyBackups.temporaryFile newYear)
    revert hname
    decide
  · intro hgone
    refine hgone [] second [first] rfl hreturns first (List.mem_singleton_self _)
      ⟨weeklyBackups.temporaryFile newYear, some (asciiBytes "PGD"), newYear⟩ ?_ ?_ ?_
    · exact ⟨by decide, Table.not_mem_empty _⟩
    · decide
    · decide

/-- Where the failing `pg_dump` leaves nothing, the backup of March finds the files of January
expired. -/
theorem january_gone :
    let calls := (runAll weeklyBackups.backupStep [] .empty
      [backupAt newYear (some (asciiBytes "backup-data")) none, backupAt march none (some ()),
        backupAt march (some (asciiBytes "backup-data")) none]).1
    (∀ c ∈ calls, weeklyBackups.CommandFails c →
        SameFiles c.before (weeklyBackups.backupStep c.before c.call)) ∧
      weeklyBackups.ExpiredGone calls := by
  intro calls
  obtain ⟨hcall, hruns⟩ := failed_backup_iff Unit weeklyBackups
  constructor
  · have hnothing : ∀ c ∈ calls, weeklyBackups.CommandFails c → weeklyBackups.LeavesNothing c := by
      decide
    intro c hc hfails
    exact (hcall c hfails).2.mpr (hnothing c hc hfails)
  · have hcalls : ∀ c ∈ calls, weeklyBackups.Returns c ∨
        weeklyBackups.CommandFails c ∧ weeklyBackups.LeavesAlone c := by decide
    exact hruns _ _ _ (run_runAll .start _) hcalls

end BackupService

end JobRadar
