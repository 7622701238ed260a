import Mathlib.Data.Rat.Defs
import Mathlib.Data.String.Basic
import Utos.Core.Dict
import Utos.Core.Sequence
import Utos.Coroutine.Trace

namespace Utos.Core.Backup

open Coroutine

structure BackupMetadata where
  backupId : String
  timestamp : String
  database : String
  sizeBytes : Nat := 0
  sizeCompressedBytes : Nat := 0
  checksumSha256 : String := ""
  pgDumpVersion : String := ""
  schemaVersion : String := ""
  compression : String
  status : String
  filePath : String := ""
  deriving DecidableEq, Repr

structure BackupManager where
  retentionDays : Int := 7
  retentionCount : Int := 10
  compression : String := "gzip"

abbrev Bytes := List UInt8

/-- The texts and the bytes that the libraries make of times and of files. -/
structure Host where
  backupId : ℚ → String
  isoformat : ℚ → String
  fromisoformat : String → Option ℚ
  gzip : Bytes → Bytes
  gunzip : Bytes → Except String Bytes
  sha256 : Bytes → String

/-- The backup directory: files by their names, and apart from them the metadata files, by the ids in
their names. -/
structure Dir where
  files : Dict String Bytes := ∅
  metas : Dict String BackupMetadata := ∅

def dumpFile (backupId : String) : String := s!"utos_{backupId}.sql"

def compressedFile (backupId : String) : String := s!"utos_{backupId}.sql.gz"

def metaFile (backupId : String) : String := s!"utos_{backupId}.meta.json"

namespace Dir

variable (d : Dir)

def write (name : String) (bytes : Bytes) : Dir := { d with files := d.files.set name bytes }

def unlink (name : String) : Dir := { d with files := d.files.pop name }

def writeMetadata (m : BackupMetadata) : Dir := { d with metas := d.metas.set m.backupId m }

/-- os.path.exists guards the removal of the file. -/
def deleteBackup (m : BackupMetadata) : Dir :=
  { files := if m.filePath = "" then d.files else d.files.pop m.filePath, metas := d.metas.pop m.backupId }

/-- The metadata files in the order of their names. -/
def listed : List BackupMetadata :=
  (d.metas.entries.mergeSort (fun a b => metaFile a.1 ≤ metaFile b.1)).map Prod.snd

def completed : List BackupMetadata := d.listed.filter (fun m => m.status = "completed")

end Dir

namespace BackupManager

variable (host : Host) (mgr : BackupManager)

def isExpired (now : ℚ) (m : BackupMetadata) : Bool :=
  match host.fromisoformat m.timestamp with
  | some t => decide (t < now - mgr.retentionDays * 86400)
  | none => false

/-- The backups that apply_retention deletes: first those that are too old, then all but the newest. -/
def excess (now : ℚ) (d : Dir) : List BackupMetadata :=
  let expired := d.completed.filter (mgr.isExpired host now)
  let remaining := (d.completed.filter (fun m => m.backupId ∉ expired.map BackupMetadata.backupId)).mergeSort
    (fun a b => b.timestamp ≤ a.timestamp)
  expired ++ if mgr.retentionCount < remaining.length then Sequence.since remaining mgr.retentionCount else []

/-- How many are deleted, and what is left. -/
def applyRetention (now : ℚ) (d : Dir) : Nat × Dir :=
  ((mgr.excess host now d).length, (mgr.excess host now d).foldl Dir.deleteBackup d)

def failed (database : String) (started : ℚ) : BackupMetadata where
  backupId := host.backupId started
  timestamp := host.isoformat started
  database := database
  compression := mgr.compression
  status := "failed"

/-- The dump is written and compressed, and the name of the result is that of the uncompressed one. None
stands for the FileNotFoundError of stat(). -/
def takeDump (backupId : String) (stdout : Bytes) (d : Dir) : Option (String × Bytes) × Dir :=
  let d := d.write (dumpFile backupId) stdout
  let result := if mgr.compression = "gzip" then
      (dumpFile backupId, (d.write (compressedFile backupId) (host.gzip stdout)).unlink (dumpFile backupId))
    else (compressedFile backupId, d)
  ((result.2.files.get result.1).map (fun bytes => (result.1, bytes)), result.2)

/-- What pg_dump ends with: an exception, or its return code and its output. -/
abbrev Dump := Except String (Int × Bytes)

/-- create_backup, with the versions that pg_dump and the migrations report. -/
def createBackup (database pgDumpVersion schemaVersion : String) (started finished : ℚ) (dump : Dump) (d : Dir) :
    BackupMetadata × Dir :=
  let failed := mgr.failed host database started
  match dump with
  | .error _ => (failed, d.writeMetadata failed)
  | .ok (returncode, stdout) =>
      if returncode ≠ 0 then (failed, d.writeMetadata failed)
      else match mgr.takeDump host (host.backupId started) stdout d with
        | (none, d) => (failed, d.writeMetadata failed)
        | (some (filePath, bytes), d) =>
            let m := { failed with
              sizeBytes := stdout.length
              sizeCompressedBytes := bytes.length
              checksumSha256 := host.sha256 bytes
              pgDumpVersion
              schemaVersion
              status := "completed"
              filePath }
            (m, (mgr.applyRetention host finished (d.writeMetadata m)).2)

end BackupManager

def verifyChecksum (host : Host) (backupId : String) (d : Dir) : Bool :=
  match d.metas.get backupId with
  | none => false
  | some m =>
      if m.filePath = "" then false
      else match d.files.get m.filePath with
        | none => false
        | some bytes => host.sha256 bytes = m.checksumSha256

structure RestoreResult where
  backupId : String
  status : String := "failed"
  checksumVerified : Bool := false
  schemaValid : Bool := false
  tableCount : Int := 0
  errors : List String := []
  deriving DecidableEq, Repr

/-- What psql ends with when it is given a dump, and what it then reports of the database. -/
structure Psql where
  run : Bytes → Except String (Int × String)
  schemaValid : Bool
  tableCount : Int

def restoreBackup (host : Host) (psql : Psql) (backupId : String) (d : Dir) : RestoreResult :=
  match d.metas.get backupId with
  | none => { backupId, errors := [s!"Backup metadata not found: {backupId}"] }
  | some m =>
      if m.status ≠ "completed" then
        { backupId, errors := ["Backup was not completed successfully: " ++ m.status] }
      else if verifyChecksum host backupId d = false then
        { backupId, errors := ["Checksum verification failed — backup may be corrupted"] }
      else match d.files.get m.filePath with
        | none => { backupId, checksumVerified := true, errors := ["Backup file not found: " ++ m.filePath] }
        | some bytes =>
            match (if m.compression = "gzip" then host.gunzip bytes else .ok bytes).bind psql.run with
            | .error text => { backupId, checksumVerified := true, errors := [text] }
            | .ok (returncode, stderr) =>
                if returncode ≠ 0 then
                  { backupId, checksumVerified := true, errors := ["psql restore failed: " ++ stderr] }
                else
                  { backupId
                    status := if psql.schemaValid then "completed" else "completed_with_warnings"
                    checksumVerified := true
                    schemaValid := psql.schemaValid
                    tableCount := psql.tableCount
                    errors := if psql.schemaValid then [] else ["Schema validation failed post-restore"] }

/-- A backup directory with what the calls have returned so far, and the ids of the backups of which
pg_dump succeeded. -/
structure Session where
  dir : Dir := {}
  backups : List BackupMetadata := []
  restores : List RestoreResult := []
  deleted : Nat := 0
  dumped : List String := []

inductive Event
  | createBackup (database pgDumpVersion schemaVersion : String) (started finished : ℚ) (dump : BackupManager.Dump)
  | applyRetention (now : ℚ)
  | restoreBackup (psql : Psql) (backupId : String)

variable (host : Host) (mgr : BackupManager)

def step (s : Session) : Event → Session
  | .createBackup database pgDumpVersion schemaVersion started finished dump =>
      let result := mgr.createBackup host database pgDumpVersion schemaVersion started finished dump s.dir
      { s with
        dir := result.2
        backups := s.backups ++ [result.1]
        dumped := match dump with
          | .ok (0, _) => s.dumped ++ [host.backupId started]
          | _ => s.dumped }
  | .applyRetention now =>
      let result := mgr.applyRetention host now s.dir
      { s with dir := result.2, deleted := s.deleted + result.1 }
  | .restoreBackup psql backupId => { s with restores := s.restores ++ [Backup.restoreBackup host psql backupId s.dir] }

/-- What a backup leaves in the directory. -/
def leftover (backupId : String) : String :=
  if mgr.compression = "gzip" then compressedFile backupId else dumpFile backupId

/-- No backup was completed and nothing was restored or deleted, and the dumps stay in the directory. -/
structure Useless (s : Session) : Prop where
  metas : ∀ backupId m, s.dir.metas.get backupId = some m → m.status = "failed"
  files : ∀ name, (s.dir.files.get name).isSome ↔ ∃ backupId ∈ s.dumped, name = leftover mgr backupId
  backups : ∀ m ∈ s.backups, m.status = "failed"
  restores : ∀ r ∈ s.restores, r.status = "failed"
  deleted : s.deleted = 0

variable {host mgr} {s : Session} {d : Dir}

theorem dumpFile_ne_compressedFile (backupId other : String) : dumpFile backupId ≠ compressedFile other := by
  intro heq
  have hlast := congrArg (fun name : String => name.toList.getLast?) heq
  change ("utos_" ++ backupId ++ ".sql").toList.getLast? = ("utos_" ++ other ++ ".sql.gz").toList.getLast? at hlast
  have hsql : ".sql".toList.getLast? = some 'l' := by decide
  have hgz : ".sql.gz".toList.getLast? = some 'z' := by decide
  simp only [String.toList_append, List.getLast?_append, hsql, hgz, Option.some_or] at hlast
  exact absurd (Option.some.inj hlast) (by decide)

/-- A finished dump is never found again: under the name that is looked up there is no file. -/
theorem takeDump_eq (hfiles : ∀ name, (d.files.get name).isSome → ∃ backupId, name = leftover mgr backupId)
    (backupId : String) (stdout : Bytes) : ∃ d', mgr.takeDump host backupId stdout d = (none, d') ∧ d'.metas = d.metas ∧
      ∀ name, (d'.files.get name).isSome ↔ name = leftover mgr backupId ∨ (d.files.get name).isSome := by
  unfold BackupManager.takeDump leftover
  by_cases hgzip : mgr.compression = "gzip"
  · have hnone : d.files.get (dumpFile backupId) = none := by
      rw [Option.eq_none_iff_forall_ne_some]
      intro bytes hbytes
      obtain ⟨other, hother⟩ := hfiles (dumpFile backupId) (hbytes ▸ rfl)
      rw [leftover, if_pos hgzip] at hother
      exact dumpFile_ne_compressedFile _ _ hother
    simp only [if_pos hgzip, Dir.unlink, Dir.write, Dict.get_pop, if_true, Option.map_none]
    refine ⟨_, rfl, rfl, fun name => ?_⟩
    rw [Dict.get_pop, Dict.get_set, Dict.get_set]
    by_cases hname : name = dumpFile backupId
    · subst hname
      simp [dumpFile_ne_compressedFile, hnone]
    · by_cases hother : name = compressedFile backupId
      · simp [hother, (dumpFile_ne_compressedFile _ _).symm]
      · simp [hname, hother]
  · have hnone : d.files.get (compressedFile backupId) = none := by
      rw [Option.eq_none_iff_forall_ne_some]
      intro bytes hbytes
      obtain ⟨other, hother⟩ := hfiles (compressedFile backupId) (hbytes ▸ rfl)
      rw [leftover, if_neg hgzip] at hother
      exact dumpFile_ne_compressedFile _ _ hother.symm
    simp only [if_neg hgzip, Dir.write, Dict.get_set, if_neg (dumpFile_ne_compressedFile _ _).symm, hnone, Option.map_none]
    refine ⟨_, rfl, rfl, fun name => ?_⟩
    rw [Dict.get_set]
    by_cases hname : name = dumpFile backupId <;> simp [hname]

theorem completed_eq_nil (hmetas : ∀ backupId m, d.metas.get backupId = some m → m.status = "failed") : d.completed = [] := by
  refine List.filter_eq_nil_iff.mpr (fun m hm hcompleted => ?_)
  obtain ⟨entry, hentry, rfl⟩ := List.mem_map.mp hm
  have hstatus := hmetas _ _ (Dict.get_of_mem (List.mem_mergeSort.mp hentry))
  have heq : entry.2.status = "completed" := of_decide_eq_true hcompleted
  rw [hstatus] at heq
  exact absurd heq (by decide)

theorem applyRetention_nil (now : ℚ) (hmetas : ∀ backupId m, d.metas.get backupId = some m → m.status = "failed") :
    mgr.applyRetention host now d = (0, d) := by
  have hexcess : mgr.excess host now d = [] := by
    simp only [BackupManager.excess, completed_eq_nil hmetas, List.filter_nil, List.mergeSort_nil, List.nil_append]
    split
    · exact List.drop_nil
    · rfl
  rw [BackupManager.applyRetention, hexcess]
  rfl

/-- A backup that has failed leaves its metadata, and what was there of files. -/
theorem Useless.failed {database : String} {started : ℚ} {dumped : List String} {d' : Dir} (h : Useless mgr s)
    (hmetas : d'.metas = s.dir.metas)
    (hfiles : ∀ name, (d'.files.get name).isSome ↔ ∃ backupId ∈ dumped, name = leftover mgr backupId) :
    Useless mgr { s with
      dir := d'.writeMetadata (mgr.failed host database started)
      backups := s.backups ++ [mgr.failed host database started]
      dumped := dumped } := by
  refine ⟨fun backupId m hm => ?_, hfiles, fun m hm => ?_, h.restores, h.deleted⟩
  · rw [Dir.writeMetadata, hmetas, Dict.get_set] at hm
    split at hm
    · cases hm
      rfl
    · exact h.metas backupId m hm
  · rcases List.mem_append.mp hm with hm | hm
    · exact h.backups m hm
    · rw [List.mem_singleton.mp hm]
      rfl

theorem Useless.createBackup (h : Useless mgr s) (database pgDumpVersion schemaVersion : String) (started finished : ℚ)
    (dump : BackupManager.Dump) :
    Useless mgr (step host mgr s (.createBackup database pgDumpVersion schemaVersion started finished dump)) := by
  rcases dump with text | ⟨returncode, stdout⟩
  · exact h.failed rfl h.files
  · by_cases hcode : returncode = 0
    · subst hcode
      obtain ⟨d', htake, hmetas, hfiles⟩ := @takeDump_eq host mgr s.dir
        (fun name hname => ((h.files name).mp hname).imp (fun _ hid => hid.2)) (host.backupId started) stdout
      simp only [step, BackupManager.createBackup, ne_eq, not_true_eq_false, if_false, htake]
      refine h.failed hmetas (fun name => ?_)
      rw [hfiles, h.files]
      simp only [List.mem_append, List.mem_singleton, or_and_right, exists_or, exists_eq_left]
      exact or_comm
    · simp only [step, BackupManager.createBackup, ne_eq, hcode, not_false_eq_true, if_true]
      split
      next heq => cases heq; exact absurd rfl hcode
      next => exact h.failed rfl h.files

/-- A directory in which all backups have failed restores none. -/
theorem restoreBackup_failed (hmetas : ∀ backupId m, d.metas.get backupId = some m → m.status = "failed") (psql : Psql)
    (backupId : String) : (restoreBackup host psql backupId d).status = "failed" := by
  unfold restoreBackup
  split
  · rfl
  next m hm => rw [if_pos (by rw [hmetas _ _ hm]; decide)]

/-- Whatever backups are made, kept, deleted and restored in a directory that was empty, with the
default compression or any other. -/
theorem useless_run (host : Host) (mgr : BackupManager) (es : List Event) : Useless mgr (es.foldl (step host mgr) {}) := by
  refine foldl_keeps (I := Useless mgr) (fun s e h => ?_) es ⟨?_, fun name => ?_, ?_, ?_, rfl⟩
  · cases e with
    | createBackup database pgDumpVersion schemaVersion started finished dump =>
        exact h.createBackup database pgDumpVersion schemaVersion started finished dump
    | applyRetention now =>
        simp only [step, applyRetention_nil now h.metas]
        exact ⟨h.metas, h.files, h.backups, h.restores, h.deleted⟩
    | restoreBackup psql backupId =>
        refine ⟨h.metas, h.files, h.backups, fun r hr => ?_, h.deleted⟩
        rcases List.mem_append.mp hr with hr | hr
        · exact h.restores r hr
        · rw [List.mem_singleton.mp hr]
          exact restoreBackup_failed h.metas psql backupId
  · exact fun backupId m hm => (by cases hm)
  · exact ⟨fun hname => (by cases hname), fun ⟨_, hmem, _⟩ => absurd hmem List.not_mem_nil⟩
  · exact fun m hm => absurd hm List.not_mem_nil
  · exact fun r hr => absurd hr List.not_mem_nil

end Utos.Core.Backup

namespace Utos.Core.Backup

variable {host : Host} {mgr : BackupManager} {now : ℚ} {d : Dir}

/-- Every metadata file is named after the backup it is about. -/
def Named (d : Dir) : Prop := ∀ backupId m, d.metas.get backupId = some m → m.backupId = backupId

/-- What apply_retention leaves of a directory: of the completed backups the newest, as many as are to
be kept, none that is too old, and everything else as it was. -/
structure Retained (host : Host) (mgr : BackupManager) (now : ℚ) (d : Dir) (deleted : Nat) (d' : Dir) : Prop where
  young : ∀ m ∈ d'.completed, mgr.isExpired host now m = false
  few : (d'.completed.length : Int) ≤ mgr.retentionCount
  newest : ∀ m ∈ d'.completed, ∀ gone ∈ d.completed, gone ∉ d'.completed → mgr.isExpired host now gone = false →
    gone.timestamp ≤ m.timestamp
  needed : ∀ gone ∈ d.completed, gone ∉ d'.completed → mgr.isExpired host now gone = false →
    (d'.completed.length : Int) = mgr.retentionCount
  kept : ∀ backupId m, d'.metas.get backupId = some m ↔
    d.metas.get backupId = some m ∧ (m.status = "completed" → m ∈ d'.completed)
  files : ∀ name, d'.files.get name = if ∃ gone ∈ d.completed, gone ∉ d'.completed ∧ gone.filePath = name ∧ name ≠ ""
    then none else d.files.get name
  counted : deleted + d'.completed.length = d.completed.length

theorem entries_foldl_deleteBackup (ms : List BackupMetadata) (d : Dir) : (ms.foldl Dir.deleteBackup d).metas.entries =
    d.metas.entries.filter (fun e => e.1 ∉ ms.map BackupMetadata.backupId) := by
  induction ms generalizing d with
  | nil => simp
  | cons m ms ih =>
      rw [List.foldl_cons, ih]
      change List.filter _ (d.metas.entries.filter _) = _
      rw [List.filter_filter]
      refine List.filter_congr (fun e _ => ?_)
      by_cases he : e.1 = m.backupId <;> simp [he]

theorem get_foldl_deleteBackup (ms : List BackupMetadata) (d : Dir) (name : String) :
    (ms.foldl Dir.deleteBackup d).files.get name =
      if ∃ m ∈ ms, m.filePath = name ∧ name ≠ "" then none else d.files.get name := by
  induction ms generalizing d with
  | nil => simp
  | cons m ms ih =>
      rw [List.foldl_cons, ih]
      have hdelete : (d.deleteBackup m).files.get name =
          if m.filePath = name ∧ name ≠ "" then none else d.files.get name := by
        unfold Dir.deleteBackup
        by_cases hpath : m.filePath = ""
        · by_cases hname : name = ""
          · simp [hpath, hname]
          · simp [hpath, Ne.symm hname]
        · by_cases hname : name = m.filePath
          · simp [hname, Dict.get_pop, hpath]
          · simp [hpath, hname, Ne.symm hname, Dict.get_pop]
      rw [hdelete]
      simp only [List.mem_cons, exists_eq_or_imp]
      by_cases hm : m.filePath = name ∧ name ≠ ""
      · simp [hm]
      · simp [hm]

theorem listed_perm (d : Dir) : d.listed.Perm (d.metas.entries.map Prod.snd) :=
  (List.mergeSort_perm _ _).map _

theorem map_backupId_listed (h : Named d) : (d.listed.map BackupMetadata.backupId).Perm (d.metas.entries.map Prod.fst) := by
  refine ((listed_perm d).map _).trans ?_
  rw [List.map_map]
  exact List.Perm.of_eq (List.map_congr_left (fun e he => h _ _ (Dict.get_of_mem he)))

theorem nodup_completed (h : Named d) : (d.completed.map BackupMetadata.backupId).Nodup :=
  (((map_backupId_listed h).nodup_iff).mpr d.metas.nodup).sublist (List.filter_sublist.map _)

theorem mem_completed {m : BackupMetadata} (h : Named d) :
    m ∈ d.completed ↔ d.metas.get m.backupId = some m ∧ m.status = "completed" := by
  rw [Dir.completed, List.mem_filter, decide_eq_true_iff, (listed_perm d).mem_iff, List.mem_map]
  constructor
  · rintro ⟨⟨e, he, rfl⟩, hstatus⟩
    have hget := Dict.get_of_mem he
    exact ⟨(h _ _ hget).symm ▸ hget, hstatus⟩
  · rintro ⟨hget, hstatus⟩
    exact ⟨⟨_, Dict.mem_of_get hget, rfl⟩, hstatus⟩

theorem filter_notMem_map {α β : Type} [DecidableEq β] {f : α → β} {keep gone : List α} (h : ((keep ++ gone).map f).Nodup) :
    (keep ++ gone).filter (fun x => f x ∉ gone.map f) = keep := by
  rw [List.map_append] at h
  have hkeep : keep.filter (fun x => f x ∉ gone.map f) = keep := by
    refine List.filter_eq_self.mpr (fun x hx => decide_eq_true (fun hmem => ?_))
    exact (List.nodup_append.mp h).2.2 _ (List.mem_map_of_mem hx) _ hmem rfl
  have hgone : gone.filter (fun x => f x ∉ gone.map f) = [] :=
    List.filter_eq_nil_iff.mpr (fun x hx => by simpa using ⟨x, hx, rfl⟩)
  rw [List.filter_append, hkeep, hgone, List.append_nil]

/-- The completed backups that are not too old, the newest first. -/
def fresh (host : Host) (mgr : BackupManager) (now : ℚ) (d : Dir) : List BackupMetadata :=
  (d.completed.filter (fun m => !mgr.isExpired host now m)).mergeSort (fun a b => b.timestamp ≤ a.timestamp)

theorem fresh_sorted (host : Host) (mgr : BackupManager) (now : ℚ) (d : Dir) :
    (fresh host mgr now d).Pairwise (fun a b => b.timestamp ≤ a.timestamp) := by
  refine (List.pairwise_mergeSort ?_ ?_ _).imp (fun h => of_decide_eq_true h)
  · intro a b c hab hbc
    exact decide_eq_true ((of_decide_eq_true hbc).trans (of_decide_eq_true hab))
  · intro a b
    rw [Bool.or_eq_true, decide_eq_true_iff, decide_eq_true_iff]
    exact le_total _ _

theorem excess_eq (h : Named d) (hcount : 0 ≤ mgr.retentionCount) : mgr.excess host now d =
    d.completed.filter (mgr.isExpired host now) ++ (fresh host mgr now d).drop mgr.retentionCount.toNat := by
  have hremaining : d.completed.filter (fun m => m.backupId ∉ (d.completed.filter (mgr.isExpired host now)).map
      BackupMetadata.backupId) = d.completed.filter (fun m => !mgr.isExpired host now m) := by
    refine List.filter_congr (fun m hm => ?_)
    cases hexpired : mgr.isExpired host now m with
    | true =>
        rw [Bool.not_true, decide_eq_false_iff_not, not_not]
        exact List.mem_map_of_mem (List.mem_filter.mpr ⟨hm, hexpired⟩)
    | false =>
        rw [Bool.not_false, decide_eq_true_iff]
        intro hmem
        obtain ⟨other, hother, hid⟩ := List.mem_map.mp hmem
        obtain ⟨hother, hyes⟩ := List.mem_filter.mp hother
        rw [List.inj_on_of_nodup_map (nodup_completed h) hother hm hid, hexpired] at hyes
        cases hyes
  have hsince : ∀ xs : List BackupMetadata, (if mgr.retentionCount < xs.length then
      Sequence.since xs mgr.retentionCount else []) = xs.drop mgr.retentionCount.toNat := by
    intro xs
    split
    next hlt => rw [Sequence.since, Sequence.bound, if_neg (not_lt.mpr hcount), min_eq_left (by omega)]
    next hle => rw [List.drop_eq_nil_of_le (by omega)]
  simp only [BackupManager.excess, hremaining, hsince]
  rfl

/-- The completed backups are those that are kept and those in excess. -/
theorem completed_perm (host : Host) (now : ℚ) (h : Named d) (hcount : 0 ≤ mgr.retentionCount) : d.completed.Perm
    ((fresh host mgr now d).take mgr.retentionCount.toNat ++ mgr.excess host now d) := by
  have hsplit := List.filter_append_perm (mgr.isExpired host now) d.completed
  have hfresh : (d.completed.filter (fun m => !mgr.isExpired host now m)).Perm
      ((fresh host mgr now d).take mgr.retentionCount.toNat ++ (fresh host mgr now d).drop mgr.retentionCount.toNat) := by
    rw [List.take_append_drop]
    exact (List.mergeSort_perm _ _).symm
  rw [excess_eq h hcount]
  refine hsplit.symm.trans ((hfresh.append_left _).trans ?_)
  rw [← List.append_assoc, ← List.append_assoc]
  exact List.perm_append_comm.append_right _

theorem get_applyRetention {backupId : String} {m : BackupMetadata} :
    (mgr.applyRetention host now d).2.metas.get backupId = some m ↔
      d.metas.get backupId = some m ∧ backupId ∉ (mgr.excess host now d).map BackupMetadata.backupId := by
  rw [← Dict.mem_iff_get, ← Dict.mem_iff_get, BackupManager.applyRetention, entries_foldl_deleteBackup, List.mem_filter,
    decide_eq_true_iff]

theorem named_applyRetention (h : Named d) : Named (mgr.applyRetention host now d).2 :=
  fun _ _ hm => h _ _ (get_applyRetention.mp hm).1

/-- The completed backups that are left are the newest of those that are not too old. -/
theorem completed_applyRetention (host : Host) (now : ℚ) (h : Named d) (hcount : 0 ≤ mgr.retentionCount) :
    (mgr.applyRetention host now d).2.completed.Perm ((fresh host mgr now d).take mgr.retentionCount.toNat) := by
  have hperm := completed_perm host now h hcount
  have hkept : (mgr.applyRetention host now d).2.completed.Perm
      (d.completed.filter (fun m => m.backupId ∉ (mgr.excess host now d).map BackupMetadata.backupId)) := by
    refine ((listed_perm _).filter _).trans ?_
    rw [BackupManager.applyRetention, entries_foldl_deleteBackup, Dir.completed, List.filter_comm]
    refine List.Perm.filter _ (List.Perm.trans (List.Perm.of_eq ?_) ((listed_perm d).symm.filter _))
    rw [List.filter_map]
    refine congrArg _ (List.filter_congr (fun e he => ?_))
    rw [Function.comp_apply, h _ _ (Dict.get_of_mem he)]
  refine hkept.trans ((hperm.filter _).trans (List.Perm.of_eq (filter_notMem_map ?_)))
  exact ((hperm.map _).nodup_iff).mp (nodup_completed h)

/-- The backups that are left are as many as there are to keep, or all that are not too old. -/
theorem retained (h : Named d) (hcount : 0 ≤ mgr.retentionCount) :
    Retained host mgr now d (mgr.applyRetention host now d).1 (mgr.applyRetention host now d).2 := by
  have hleft := completed_applyRetention host now h hcount
  have hall := completed_perm host now h hcount
  have hnodup := ((hall.map _).nodup_iff).mp (nodup_completed h)
  have hmem : ∀ m, m ∈ (mgr.applyRetention host now d).2.completed ↔
      m ∈ (fresh host mgr now d).take mgr.retentionCount.toNat := fun m => hleft.mem_iff
  have hgone : ∀ m ∈ d.completed, m ∉ (mgr.applyRetention host now d).2.completed ↔ m ∈ mgr.excess host now d := by
    intro m hm
    rw [hmem]
    refine ⟨fun hnot => (List.mem_append.mp (hall.mem_iff.mp hm)).resolve_left hnot, fun hexcess htake => ?_⟩
    rw [List.map_append] at hnodup
    exact (List.nodup_append.mp hnodup).2.2 _ (List.mem_map_of_mem htake) _ (List.mem_map_of_mem hexcess) rfl
  -- a backup that is gone without being too old is behind those that were kept
  have hdropped : ∀ gone ∈ d.completed, gone ∉ (mgr.applyRetention host now d).2.completed →
      mgr.isExpired host now gone = false → gone ∈ (fresh host mgr now d).drop mgr.retentionCount.toNat := by
    intro gone hin hout hyoung
    have hexcess := (hgone gone hin).mp hout
    rw [excess_eq h hcount] at hexcess
    refine (List.mem_append.mp hexcess).resolve_left (fun hold => ?_)
    rw [(List.mem_filter.mp hold).2] at hyoung
    cases hyoung
  refine ⟨fun m hm => ?_, ?_, fun m hm gone hin hout hyoung => ?_, fun gone hin hout hyoung => ?_, fun backupId m => ?_,
    fun name => ?_, ?_⟩
  · have hfresh := List.mem_of_mem_take ((hmem m).mp hm)
    simpa using (List.mem_filter.mp (List.mem_mergeSort.mp hfresh)).2
  · rw [hleft.length_eq, List.length_take]
    omega
  · have hsorted := fresh_sorted host mgr now d
    rw [← List.take_append_drop mgr.retentionCount.toNat (fresh host mgr now d)] at hsorted
    exact (List.pairwise_append.mp hsorted).2.2 m ((hmem m).mp hm) gone (hdropped gone hin hout hyoung)
  · have hpos := List.length_pos_of_mem (hdropped gone hin hout hyoung)
    rw [List.length_drop] at hpos
    rw [hleft.length_eq, List.length_take]
    omega
  · rw [get_applyRetention]
    refine and_congr_right (fun hm => ⟨fun hnot hstatus => ?_, fun hkept hin => ?_⟩)
    · have hin : m ∈ d.completed := (mem_completed h).mpr ⟨(h _ _ hm).symm ▸ hm, hstatus⟩
      by_contra hout
      exact hnot ((h _ _ hm) ▸ List.mem_map_of_mem ((hgone m hin).mp hout))
    · obtain ⟨gone, hexcess, hid⟩ := List.mem_map.mp hin
      have hcompleted := hall.mem_iff.mpr (List.mem_append_right _ hexcess)
      obtain ⟨hget, hstatus⟩ := (mem_completed h).mp hcompleted
      rw [hid, hm] at hget
      cases hget
      exact (hgone m hcompleted).mpr hexcess (hkept hstatus)
  · rw [BackupManager.applyRetention, get_foldl_deleteBackup]
    refine if_congr ⟨?_, ?_⟩ rfl rfl
    · rintro ⟨m, hexcess, hpath⟩
      have hin := hall.mem_iff.mpr (List.mem_append_right _ hexcess)
      exact ⟨m, hin, (hgone m hin).mpr hexcess, hpath⟩
    · rintro ⟨m, hin, hout, hpath⟩
      exact ⟨m, (hgone m hin).mp hout, hpath⟩
  · rw [hleft.length_eq, hall.length_eq, List.length_append, BackupManager.applyRetention, add_comm]

theorem Named.writeMetadata (h : Named d) (m : BackupMetadata) : Named (d.writeMetadata m) := by
  intro backupId other hother
  rw [Dir.writeMetadata, Dict.get_set] at hother
  split at hother
  next heq => exact (Option.some.inj hother) ▸ heq.symm
  next => exact h _ _ hother

def completedAt (backupId timestamp : String) : BackupMetadata where
  backupId := backupId
  timestamp := timestamp
  database := "utos"
  compression := "gzip"
  status := "completed"
  filePath := dumpFile backupId

/-- A host that knows the first ten days. -/
def january : Host where
  backupId _ := ""
  isoformat _ := ""
  fromisoformat text :=
    if text = "1970-01-01T00:00:00+00:00" then some 0
    else if text = "1970-01-09T00:00:00+00:00" then some 691200
    else if text = "1970-01-10T00:00:00+00:00" then some 777600
    else none
  gzip := id
  gunzip := .ok
  sha256 _ := ""

def threeBackups : Dir := (((({} : Dir).writeMetadata (completedAt "19700101_000000" "1970-01-01T00:00:00+00:00")).writeMetadata
  (completedAt "19700109_000000" "1970-01-09T00:00:00+00:00")).writeMetadata
  (completedAt "19700110_000000" "1970-01-10T00:00:00+00:00"))

theorem retained_three : Retained january { retentionCount := 1 } 864000 threeBackups
    (({ retentionCount := 1 } : BackupManager).applyRetention january 864000 threeBackups).1
    (({ retentionCount := 1 } : BackupManager).applyRetention january 864000 threeBackups).2 := by
  have hempty : Named {} := fun _ _ hm => (by cases hm)
  exact retained (((hempty.writeMetadata _).writeMetadata _).writeMetadata _) (by decide)

end Utos.Core.Backup
