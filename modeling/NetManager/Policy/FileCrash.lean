import Mathlib.Data.List.TakeDrop
import NetManager.Policy.FileEventHandler
import NetManager.Policy.FileRoundTrip

/-!
# Crashes of the policy service

The service may stop at any operation of `Write`, or while `NetPolicyFile` is
constructed and the write that `ResetPolicies` has queued is at work. The next
construction reads the main file, or else the backup; but the path check lets the
name of the main file pass only, so the backup is never read.
-/

namespace NetManager.Policy

open List

namespace NetPolicyFile

open NetPolicyFileEventHandler

variable {Byte : Type} (cjson : CJson Byte)

/-! ## Construction -/

/-- The files that `ReadFile` is called for. -/
inductive FileName
  | policyFile
  | policyFileBak

/-- The paths. -/
def FileName.path : FileName → String
  | policyFile => "/data/service/el1/public/netmanager/net_policy.json"
  | policyFileBak => "/data/service/el1/public/netmanager/net_policy.bak"

/-- `CheckFilePath`; neither file is a link, so `realpath` gives its own name. -/
def checkFilePath (fileName : FileName) : Bool := fileName.path = FileName.policyFile.path

/-- The content of a file. -/
def content (disk : Disk Byte) : FileName → Option (List Byte)
  | .policyFile => disk.main
  | .policyFileBak => disk.bak

/-- `ReadFile` of a name, for an object whose policies were reset. -/
def readFile (disk : Disk Byte) (fileName : FileName) : Option NetPolicy :=
  match content disk fileName with
  | none => none
  | some fileContent => if checkFilePath fileName then readBack cjson fileContent else none

/-- The text that `ResetPolicies` queues. -/
def resetText : List Byte := cjson.print reset.obj2Json

/-- When the queued write runs: how many of its operations are done when the main
file is read, and how many when the backup is. -/
structure Schedule where
  /-- Which files the write opens. -/
  opens : Opens
  /-- Operations before the main file is read. -/
  atMain : Nat
  /-- Operations before the backup is read. -/
  atBak : Nat

/-- `InitPolicy`: the policies of the new object. -/
def initPolicy (disk : Disk Byte) (schedule : Schedule) : NetPolicy :=
  let operations := writeOps disk schedule.opens (resetText cjson)
  ((readFile cjson (disk.run (operations.take schedule.atMain)) .policyFile).or
    (readFile cjson (disk.run (operations.take schedule.atBak)) .policyFileBak)).getD reset

/-! ## Crashes -/

/-- What was being written: a commit of new policies, or what `ResetPolicies` of a
construction has queued. -/
inductive Writing
  | commit (written : NetPolicy)
  | resetPolicies

namespace Writing

/-- The text. -/
def text : Writing → List Byte
  | commit written => cjson.print written.obj2Json
  | resetPolicies => resetText cjson

/-- The contents that the next construction may load. -/
def contents (committed : NetPolicy) : Writing → List NetPolicy
  | commit written => [committed, written]
  | resetPolicies => [committed]

end Writing

/-- Where the service stops. -/
structure Crash where
  /-- What was being written. -/
  writing : Writing
  /-- The files that could be opened. -/
  opens : Opens
  /-- How many operations of `Write` were done. -/
  operations : Nat

namespace Crash

/-- The files after the crash. -/
def disk (before : Disk Byte) (crash : Crash) : Disk Byte :=
  before.run ((writeOps before crash.opens (crash.writing.text cjson)).take crash.operations)

/-- The main file was not truncated, or a commit was complete. -/
def Harmless (before : Disk Byte) (crash : Crash) : Prop :=
  Truncates before crash.opens crash.operations → crash.writing ≠ .resetPolicies ∧
      (writeOps before crash.opens (crash.writing.text cjson)).length ≤ crash.operations

end Crash

/-- The next construction loads the old or the new policies. -/
def Survives (committed : NetPolicy) (bak : Option (List Byte)) (crash : Crash)
    (schedule : Schedule) : Prop :=
  ∃ netPolicy ∈ crash.writing.contents committed,
    (initPolicy cjson
      (crash.disk cjson ⟨some (cjson.print committed.obj2Json), bak⟩)
      schedule).Same netPolicy

/-! ## What is loaded -/

/-- What a construction makes of the main file that it reads. -/
def loaded (main : Option (List Byte)) : NetPolicy := (main.bind (readBack cjson)).getD reset

theorem readFile_policyFileBak : readFile cjson disk .policyFileBak = none := by
  have refused : ¬ checkFilePath .policyFileBak = true := by decide
  unfold readFile
  split
  · rfl
  · exact if_neg refused

theorem initPolicy_eq_loaded :
    initPolicy cjson disk schedule =
      loaded cjson (disk.run ((writeOps disk schedule.opens
        (resetText cjson)).take schedule.atMain)).main := by
  have passes : checkFilePath .policyFile = true := by decide
  have main (atMain : Disk Byte) :
      readFile cjson atMain .policyFile = atMain.main.bind (readBack cjson) := by
    rcases atMain with ⟨main, bak⟩
    cases main with
    | none => rfl
    | some fileContent => simp [readFile, content, if_pos passes]
  rw [initPolicy, readFile_policyFileBak, Option.or_none, main, loaded]

variable {cjson}

theorem loaded_print (roundTrips : cjson.RoundTrips) (netPolicy : NetPolicy) :
    (loaded cjson (some (cjson.print netPolicy.obj2Json))).Same netPolicy := by
  obtain ⟨read, reads, same⟩ := exists_readBack roundTrips netPolicy
  rw [loaded, Option.bind_some, reads]
  exact same

variable {netPolicy : NetPolicy}

theorem loaded_part (rejects : cjson.RejectsParts)
    (part : text <+: cjson.print netPolicy.obj2Json)
    (isPart : text ≠ cjson.print netPolicy.obj2Json) :
    loaded cjson (some text) = reset := by
  have noDocument : cjson.parse text = none := rejects _ _ part isPart
  rw [loaded, Option.bind_some, readBack, noDocument]
  split <;> rfl

/-- The beginning of the text of the reset policies gives these policies, whether
it is complete or not. -/
theorem loaded_take_resetText (roundTrips : cjson.RoundTrips) (rejects : cjson.RejectsParts)
    (count : Nat) :
    (loaded cjson (some ((resetText cjson).take count))).Same reset := by
  by_cases whole : (resetText cjson).take count = resetText cjson
  · rw [whole]
    exact loaded_print roundTrips reset
  · have cut : loaded cjson (some ((resetText cjson).take count)) = reset :=
      loaded_part rejects (List.take_prefix count _) whole
    rw [cut]
    exact .refl reset

namespace Crash

variable {before : Disk Byte} {crash : Crash}

theorem main_disk_of_not_truncates (early : ¬ Truncates before crash.opens crash.operations) :
    (crash.disk cjson before).main = before.main := by
  rw [disk, main_run_take_writeOps, if_neg early]

theorem main_disk_of_truncates (truncated : Truncates before crash.opens crash.operations) :
    (crash.disk cjson before).main = some ((crash.writing.text cjson).take
      (crash.operations - (backupOps before crash.opens).length - 1)) := by
  rw [disk, main_run_take_writeOps, if_pos truncated]

/-- The part is the whole text exactly when all operations are done. -/
theorem length_text_le_iff (truncated : Truncates before crash.opens crash.operations) :
    (crash.writing.text cjson).length ≤
        crash.operations - (backupOps before crash.opens).length - 1 ↔
      (writeOps before crash.opens (crash.writing.text cjson)).length ≤ crash.operations := by
  rw [length_writeOps truncated.1]
  have := truncated.2
  omega

theorem Harmless.loaded_disk (roundTrips : cjson.RoundTrips)
    (isCommitted : before.main = some (cjson.print committed.obj2Json))
    (harmless : crash.Harmless cjson before) :
    ∃ netPolicy ∈ crash.writing.contents committed,
      (loaded cjson (crash.disk cjson before).main).Same netPolicy := by
  by_cases truncated : Truncates before crash.opens crash.operations
  · obtain ⟨isCommit, complete⟩ := harmless truncated
    have whole := take_of_length_le ((length_text_le_iff truncated).mpr complete)
    rw [main_disk_of_truncates truncated, whole]
    cases writing : crash.writing with
    | resetPolicies => exact absurd writing isCommit
    | commit written =>
      exact ⟨written, mem_cons_of_mem _ mem_cons_self, loaded_print roundTrips written⟩
  · have isOld : committed ∈ crash.writing.contents committed := by
      cases crash.writing <;> exact mem_cons_self
    rw [main_disk_of_not_truncates truncated, isCommitted]
    exact ⟨committed, isOld, loaded_print roundTrips committed⟩

theorem loaded_disk_of_not_harmless (roundTrips : cjson.RoundTrips) (rejects : cjson.RejectsParts)
    (harmful : ¬ crash.Harmless cjson before) :
    (loaded cjson (crash.disk cjson before).main).Same reset := by
  obtain ⟨truncated, cut⟩ := Classical.not_imp.mp harmful
  rw [← length_text_le_iff truncated] at cut
  rw [main_disk_of_truncates truncated]
  cases writing : crash.writing with
  | resetPolicies => exact loaded_take_resetText roundTrips rejects _
  | commit written =>
    rw [writing] at cut
    have isPart : (cjson.print written.obj2Json).take
        (crash.operations - (backupOps before crash.opens).length - 1) ≠
          cjson.print written.obj2Json := by
      intro whole
      exact cut ⟨by simp, (take_eq_self_iff _).mp whole⟩
    have notLoaded := loaded_part rejects (List.take_prefix _ _) isPart
    exact notLoaded ▸ .refl reset

end Crash

/-- Where the reset policies are loaded, some content is loaded exactly when the
reset policies are those of the content. -/
theorem exists_same_iff (isReset : netPolicy.Same reset) (contents : List NetPolicy) :
    (∃ content ∈ contents, netPolicy.Same content) ↔ ∃ content ∈ contents, reset.Same content := by
  refine exists_congr fun content => and_congr_right fun _ => ?_
  exact ⟨isReset.symm.trans, isReset.trans⟩

/-- The old or the new policies are loaded exactly when the crash was harmless and
the main file is read before the queued write truncates it, or when the reset
policies are the right ones anyway. -/
theorem survives_iff (roundTrips : cjson.RoundTrips) (rejects : cjson.RejectsParts)
    (committed : NetPolicy) (bak : Option (List Byte)) (crash : Crash) (schedule : Schedule) :
    Survives cjson committed bak crash schedule ↔
      crash.Harmless cjson ⟨some (cjson.print committed.obj2Json), bak⟩ ∧
          ¬ Truncates
            (crash.disk cjson ⟨some (cjson.print committed.obj2Json), bak⟩)
            schedule.opens schedule.atMain ∨
        ∃ netPolicy ∈ crash.writing.contents committed, reset.Same netPolicy := by
  rw [Survives, initPolicy_eq_loaded, main_run_take_writeOps]
  split
  next truncated =>
    rw [exists_same_iff (loaded_take_resetText roundTrips rejects _)]
    simp [truncated]
  next early =>
    by_cases harmless : crash.Harmless cjson ⟨some (cjson.print committed.obj2Json), bak⟩
    · have loads := harmless.loaded_disk roundTrips rfl
      simp [harmless, early, loads]
    · rw [exists_same_iff (Crash.loaded_disk_of_not_harmless roundTrips rejects harmless)]
      simp [harmless]

/-- One user with a policy. -/
def granted (policy : String) : NetPolicy := { reset with uidPolicies := [⟨"20000", policy⟩] }

/-- The service stops when the backup is complete. -/
theorem survives_backupCopied :
    Survives CJson.symbols (granted "1") none
      ⟨.commit (granted "2"), ⟨true, true, true⟩, 3⟩ ⟨⟨true, true, true⟩, 0, 0⟩ := by
  refine (survives_iff CJson.symbols_roundTrips CJson.symbols_rejectsParts _ _ _
    _).mpr (.inl ⟨?_, ?_⟩)
  · intro truncated
    exact absurd truncated (by decide)
  · decide

/-- The service stops when the main file is truncated: nothing is loaded, although
the backup holds the old policies. -/
theorem not_survives_mainTruncated :
    ¬ Survives CJson.symbols (granted "1") none
      ⟨.commit (granted "2"), ⟨true, true, true⟩, 4⟩ ⟨⟨true, true, true⟩, 0, 0⟩ := by
  rintro ⟨netPolicy, member, same⟩
  have nothing : netPolicy.uidPolicies = [] := same.uidPolicies.symm
  rcases mem_cons.mp member with rfl | member
  · cases nothing
  · rw [mem_singleton.mp member] at nothing
    cases nothing

end NetPolicyFile

end NetManager.Policy
