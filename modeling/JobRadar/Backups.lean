import JobRadar.AuthModel
import JobRadar.PythonText
import Mathlib.Logic.Function.Basic

namespace Python

/-- `PurePath.suffix` of a path's last part. -/
def Text.suffix (name : Text) : Text :=
  let last := name.rtakeWhile (· ≠ 46)
  if last.length + 1 < name.length ∧ last ≠ [] then 46 :: last else []

/-- `PurePath.with_suffix` on a path's last part. -/
def Text.withSuffix (name newSuffix : Text) : Text :=
  name.take (name.length - name.suffix.length) ++ newSuffix

example : (text "jobradar.old.dump").withSuffix (text ".sha256") = text "jobradar.old.sha256" ∧
    (text ".dump").withSuffix (text ".sha256") = text ".dump.sha256" := by decide

end Python

namespace JobRadar

open Python Database

abbrev Bytes := List UInt8

/-- What a directory holds under a name: a file with its bytes, or another directory. -/
structure DirEntry where
  name : Text
  bytes : Option Bytes
  modified : Time
  deriving DecidableEq

abbrev Directory := Table DirEntry.name

/-- What `path.read_bytes()` finds, with `none` where there is no such file. -/
def readBytes (dir : Directory) (name : Text) : Option Bytes :=
  (dir.find name).bind DirEntry.bytes

/-- The parts of a database URL that SQLAlchemy's `make_url` finds. -/
structure DatabaseUrl where
  host : Option Text := none
  username : Option Text := none
  password : Option Text := none
  port : Option Nat := none
  database : Option Text := none

structure Command where
  args : List Text
  environment : Text → Option Text

def Command.IntoDatabase (command : Command) : Prop := text "--dbname" ∈ command.args

inductive BackupError (ρ : Type)
  | valueError (message : Text)
  /-- What `read_text` raises on bytes that are no text, which is a `ValueError`. -/
  | unicodeDecodeError
  /-- What `[0]` raises on an empty list. -/
  | indexError
  /-- What `read_text` raises on a directory. -/
  | isADirectoryError
  | runner (error : ρ)

def BackupError.IsValueError {ρ : Type} : BackupError ρ → Prop
  | .valueError _ => True
  | .unicodeDecodeError => True
  | _ => False

/-- The backup directory and how its paths are written, with what the service has around it:
SHA-256 in hexadecimal, the decoding of text files, the environment of the process, and the error
that `pg_restore` ends in, if any. -/
structure BackupHost (ρ : Type) where
  dir : Directory
  path : Text → Text
  sha256 : Bytes → Text
  decode : Bytes → Option Text
  environ : Text → Option Text
  pgRestore : Command → Option ρ

namespace BackupHost

variable {ρ : Type} (host : BackupHost ρ)

def databaseOptions (url : DatabaseUrl) : List Text × (Text → Option Text) :=
  -- An empty host counts as none.
  let options := [text "--host", (url.host.filter (· ≠ [])).getD (text "localhost"),
    text "--username", url.username.getD []]
  let port := match url.port with
    | none => []
    | some port => [text "--port", text (toString port)]
  let environment := match url.password with
    | none => host.environ
    | some password => Function.update host.environ (text "PGPASSWORD") (some password)
  (options ++ port, environment)

def missing : Text := text "backup dump is missing or empty"

/-- The bytes of a dump that is a file and not empty, which `pg_restore` leaves as they are. -/
def dump (name : Text) : Option Bytes := (readBytes host.dir name).filter (· ≠ [])

def listCommand (name : Text) (url : DatabaseUrl) : Command where
  args := [text "pg_restore", text "--list", host.path name]
  environment := (host.databaseOptions url).2

def restoreCommand (name : Text) (url : DatabaseUrl) : Command where
  args := [text "pg_restore", text "--exit-on-error", text "--no-owner"] ++
    (host.databaseOptions url).1 ++ [text "--dbname", url.database.getD [], host.path name]
  environment := (host.databaseOptions url).2

def mismatch : Text := text "backup checksum mismatch"

/-- The comparison with the checksum file next to the dump. -/
def compareChecksum (name digest : Text) : Except (BackupError ρ) Text :=
  match host.dir.find (name.withSuffix (text ".sha256")) with
  | none => .ok digest
  | some ⟨_, none, _⟩ => .error .isADirectoryError
  | some ⟨_, some bytes, _⟩ =>
    match host.decode bytes with
    | none => .error .unicodeDecodeError
    | some content =>
      match content.words with
      | [] => .error .indexError
      | expected :: _ => if expected ≠ digest then .error (.valueError mismatch) else .ok digest

/-- `verify_backup`, with the commands it runs. -/
def verifyBackup (name : Text) (url : DatabaseUrl) : List Command × Except (BackupError ρ) Text :=
  match host.dump name with
  | none => ([], .error (.valueError missing))
  | some bytes =>
    let command := host.listCommand name url
    match host.pgRestore command with
    | some error => ([command], .error (.runner error))
    | none => ([command], host.compareChecksum name (host.sha256 bytes))

def restoreBackup (name : Text) (url : DatabaseUrl) : List Command × Except (BackupError ρ) Unit :=
  match host.dump name with
  | none => ([], .error (.valueError missing))
  | some _ =>
    let command := host.restoreCommand name url
    match host.pgRestore command with
    | some error => ([command], .error (.runner error))
    | none => ([command], .ok ())

/-- Verification ends as it promises, and only what it accepts is restored. -/
structure RestoreAgrees (name : Text) (url : DatabaseUrl) : Prop where
  returns : ∀ digest, (host.verifyBackup name url).2 = .ok digest →
    ∃ bytes, readBytes host.dir name = some bytes ∧ digest = host.sha256 bytes
  raises : ∀ error, (host.verifyBackup name url).2 = .error error →
    error.IsValueError ∨ ∃ r, error = .runner r
  restores : ∀ command ∈ (host.restoreBackup name url).1, command.IntoDatabase →
    ∃ digest, (host.verifyBackup name url).2 = .ok digest

/-- There is no checksum file, or it is one whose first word is the digest. -/
def ChecksumMatches (name digest : Text) : Prop :=
  ∀ entry, host.dir.find (name.withSuffix (text ".sha256")) = some entry →
    ∃ content, entry.bytes.bind host.decode = some content ∧ content.words.head? = some digest

/-- The dump is missing or empty, or `pg_restore` can list it and its checksum is right. -/
def MissingOrRight (name : Text) (url : DatabaseUrl) : Prop :=
  ∀ bytes, readBytes host.dir name = some bytes → bytes ≠ [] →
    host.pgRestore (host.listCommand name url) = none ∧
      host.ChecksumMatches name (host.sha256 bytes)

section Agreement

variable {host : BackupHost ρ} {name digest : Text} {url : DatabaseUrl} {bytes : Bytes}

theorem dump_eq_some_iff :
    host.dump name = some bytes ↔ readBytes host.dir name = some bytes ∧ bytes ≠ [] := by
  simp [dump, Option.filter_eq_some_iff]

theorem restoreCommand_intoDatabase : (host.restoreCommand name url).IntoDatabase := by
  simp [Command.IntoDatabase, restoreCommand]

theorem compareChecksum_eq_ok_iff {found : Text} :
    host.compareChecksum name digest = .ok found ↔
      found = digest ∧ host.ChecksumMatches name digest := by
  unfold compareChecksum ChecksumMatches
  cases host.dir.find (name.withSuffix (text ".sha256")) with
  | none => simp [eq_comm]
  | some entry =>
    obtain ⟨_, bytes, _⟩ := entry
    cases bytes with
    | none => simp
    | some bytes =>
      cases hdecode : host.decode bytes with
      | none => simp [hdecode]
      | some content =>
        cases hwords : content.words with
        | nil => simp [hdecode, hwords]
        | cons expected rest =>
          by_cases hexpected : expected = digest
          · simp [hdecode, hwords, hexpected, eq_comm]
          · simp [hdecode, hwords, hexpected]

theorem dump_eq_none (h : host.dump name = none) {bytes : Bytes}
    (hread : readBytes host.dir name = some bytes) : bytes = [] := by
  by_contra hbytes
  have hdump := dump_eq_some_iff.mpr ⟨hread, hbytes⟩
  simp [h] at hdump

theorem refused_of_missing (h : host.dump name = none) :
    host.verifyBackup name url = ([], .error (.valueError missing)) ∧
      host.restoreBackup name url = ([], .error (.valueError missing)) := by
  simp [verifyBackup, restoreBackup, h]

theorem restore_runs (h : host.dump name = some bytes) :
    (host.restoreBackup name url).1 = [host.restoreCommand name url] := by
  unfold restoreBackup
  rw [h]
  cases hrun : host.pgRestore (host.restoreCommand name url) <;> simp [hrun]

theorem verifyBackup_eq_ok_iff (h : host.dump name = some bytes) :
    (host.verifyBackup name url).2 = .ok digest ↔
      host.pgRestore (host.listCommand name url) = none ∧ digest = host.sha256 bytes ∧
        host.ChecksumMatches name (host.sha256 bytes) := by
  unfold verifyBackup
  rw [h]
  cases hrun : host.pgRestore (host.listCommand name url) with
  | some error => simp [hrun]
  | none => simp [hrun, compareChecksum_eq_ok_iff]

theorem missingOrRight_iff (h : host.dump name = some bytes) :
    host.MissingOrRight name url ↔ (host.verifyBackup name url).2 = .ok (host.sha256 bytes) := by
  obtain ⟨hread, hbytes⟩ := dump_eq_some_iff.mp h
  rw [verifyBackup_eq_ok_iff h]
  constructor
  · intro hright
    obtain ⟨hlist, hsum⟩ := hright bytes hread hbytes
    exact ⟨hlist, rfl, hsum⟩
  · rintro ⟨hlist, -, hsum⟩ found hfound -
    cases hread.symm.trans hfound
    exact ⟨hlist, hsum⟩

/-- Restoring agrees with verification just for the dumps that verification accepts and for those
that neither looks at. -/
theorem restore_agrees_iff (host : BackupHost ρ) (name : Text) (url : DatabaseUrl) :
    host.RestoreAgrees name url ↔ host.MissingOrRight name url := by
  cases h : host.dump name with
  | none =>
    obtain ⟨hverify, hrestore⟩ := @refused_of_missing _ host name url h
    refine iff_of_true ⟨?_, ?_, ?_⟩ fun bytes hread hbytes => absurd (dump_eq_none h hread) hbytes
    · simp [hverify]
    · intro error herror
      rw [hverify] at herror
      cases herror
      exact Or.inl trivial
    · simp [hrestore]
  | some bytes =>
    rw [missingOrRight_iff h]
    constructor
    · intro hagrees
      have hruns : host.restoreCommand name url ∈ (host.restoreBackup name url).1 := by
        rw [restore_runs h]
        exact List.mem_singleton_self _
      obtain ⟨digest, hok⟩ := hagrees.restores _ hruns restoreCommand_intoDatabase
      obtain ⟨-, rfl, -⟩ := (verifyBackup_eq_ok_iff h).mp hok
      exact hok
    · intro hok
      refine ⟨?_, ?_, fun _ _ _ => ⟨_, hok⟩⟩
      · intro digest hdigest
        cases hok.symm.trans hdigest
        exact ⟨bytes, (dump_eq_some_iff.mp h).1, rfl⟩
      · intro error herror
        cases hok.symm.trans herror

end Agreement

end BackupHost

def asciiBytes (s : String) : Bytes := s.toList.map Char.toUInt8

def dumpName : Text := text "jobradar-old.dump"

def jobradarUrl : DatabaseUrl where
  host := some (text "localhost")
  username := some (text "jobradar")
  database := some (text "jobradar")

/-- A directory with a dump and a checksum file, where each dump can be listed and restored. -/
def backupHost (checksum : Bytes) : BackupHost Unit where
  dir := ⟨[⟨dumpName, some (asciiBytes "backup-data"), 0⟩,
    ⟨text "jobradar-old.sha256", some checksum, 0⟩],
    show [dumpName, text "jobradar-old.sha256"].Nodup by decide⟩
  path name := text "/backups/" ++ name
  sha256 _ := text "185b0198441f4e8cdb882a49cb5a5d34108aada752d520d41b39bacdfa613e2c"
  decode bytes := if bytes.all (· < 128) then some (bytes.map UInt8.toNat) else none
  environ _ := none
  pgRestore _ := none

/-- A dump whose checksum is wrong is restored all the same, and a checksum file that was left
empty ends verification in an `IndexError`. -/
theorem wrongChecksum_restored :
    ((backupHost (asciiBytes "bad  old.dump\n")).verifyBackup dumpName jobradarUrl).2 =
        .error (.valueError BackupHost.mismatch) ∧
      ((backupHost (asciiBytes "bad  old.dump\n")).restoreBackup dumpName jobradarUrl).2 = .ok () ∧
      ¬(backupHost (asciiBytes "bad  old.dump\n")).RestoreAgrees dumpName jobradarUrl ∧
      ((backupHost []).verifyBackup dumpName jobradarUrl).2 = .error .indexError ∧
      ¬(backupHost []).RestoreAgrees dumpName jobradarUrl := by
  have hwrong : ((backupHost (asciiBytes "bad  old.dump\n")).verifyBackup dumpName jobradarUrl).2 =
      .error (.valueError BackupHost.mismatch) := by rfl
  have hblank : ((backupHost []).verifyBackup dumpName jobradarUrl).2 = .error .indexError := by rfl
  refine ⟨hwrong, rfl, ?_, hblank, ?_⟩
  · intro hagrees
    obtain ⟨digest, hok⟩ := hagrees.restores _ (List.mem_singleton_self _)
      BackupHost.restoreCommand_intoDatabase
    cases hwrong.symm.trans hok
  · intro hagrees
    rcases hagrees.raises _ hblank with hvalue | ⟨r, hr⟩
    · exact hvalue
    · cases hr

end JobRadar
