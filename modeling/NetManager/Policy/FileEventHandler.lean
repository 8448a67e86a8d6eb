import NetManager.Library.Run

/-!
# The event handler of the policy file

`NetPolicyFileEventHandler` gets the texts of the policy file as events on a queue
of its own. A text is remembered and committed later; a commit copies the old file
to a backup and writes the main file anew, byte after byte. The backup is removed
some time after the commit.
-/

namespace NetManager.Policy

open List

/-! ## Files -/

/-- The two files; `none` is a file that does not exist. -/
structure Disk (Byte : Type) where
  /-- `POLICY_FILE_NAME`. -/
  main : Option (List Byte)
  /-- `POLICY_FILE_BAK_NAME`. -/
  bak : Option (List Byte)

/-- What happens to the files. -/
inductive DiskOp (Byte : Type)
  | truncateBak
  | appendBak (byte : Byte)
  | truncateMain
  | appendMain (byte : Byte)
  | removeBak

namespace Disk

variable {Byte : Type}

/-- The files after an operation. Opening a file to write it creates it. -/
def apply (disk : Disk Byte) : DiskOp Byte → Disk Byte
  | .truncateBak => { disk with bak := some [] }
  | .appendBak byte => { disk with bak := disk.bak.map (· ++ [byte]) }
  | .truncateMain => { disk with main := some [] }
  | .appendMain byte => { disk with main := disk.main.map (· ++ [byte]) }
  | .removeBak => { disk with bak := none }

/-- The files after some operations. -/
def run (disk : Disk Byte) (operations : List (DiskOp Byte)) : Disk Byte :=
  operations.foldl apply disk

variable {disk : Disk Byte}

theorem main_run_of_keeps (keeps : ∀ operation ∈ operations, ∀ before : Disk Byte,
      (before.apply operation).main = before.main) :
    (disk.run operations).main = disk.main :=
  foldlRecOn (motive := (·.main = disk.main)) operations _ rfl
    fun before same operation member => (keeps operation member before).trans same

theorem main_run_appendMain (holds : disk.main = some content) :
    (disk.run (text.map DiskOp.appendMain)).main = some (content ++ text) := by
  induction text generalizing disk content with
  | nil => rwa [append_nil]
  | cons byte text ih =>
    have appended : (disk.apply (.appendMain byte)).main = some (content ++ [byte]) := by
      simp [apply, holds]
    have rest := ih appended
    rwa [append_assoc] at rest

end Disk

/-- Which files a commit manages to open. -/
structure Opens where
  /-- The main file, to copy it. -/
  oldFile : Bool
  /-- The backup. -/
  newFile : Bool
  /-- The main file, to write it. -/
  file : Bool

structure NetPolicyFileEventHandler (Byte : Type) where
  timeStamp : Int
  commitWait : Bool
  fileContent : List Byte

namespace NetPolicyFileEventHandler

variable {Byte : Type}

/-! ## A commit -/

section

variable (disk : Disk Byte) (opens : Opens) (content : List Byte)

/-- The part of `Write` that makes the backup. -/
def backupOps : List (DiskOp Byte) :=
  match disk.main with
  | none => []
  | some old =>
    if opens.newFile then .truncateBak :: if opens.oldFile then old.map .appendBak else []
    else []

/-- What `Write` returns: it gives up when neither file of the backup opens, or
when the main file does not. -/
def writes : Bool :=
  (disk.main.isNone || opens.oldFile || opens.newFile) && opens.file

/-- The part of `Write` that writes the main file. -/
def mainOps : List (DiskOp Byte) := .truncateMain :: content.map .appendMain

/-- `Write`. -/
def writeOps : List (DiskOp Byte) :=
  backupOps disk opens ++ if writes disk opens then mainOps content else []

/-- The first operations of `Write` truncate the main file. -/
def Truncates (count : Nat) : Prop :=
  writes disk opens = true ∧ (backupOps disk opens).length < count
deriving Decidable

end

variable {disk : Disk Byte} {opens : Opens}

theorem main_apply_of_mem_backupOps (member : operation ∈ backupOps disk opens)
    (before : Disk Byte) :
    (before.apply operation).main = before.main := by
  unfold backupOps at member
  split at member
  · cases member
  next old _ =>
    split_ifs at member
    · rcases mem_cons.mp member with rfl | appends
      · rfl
      · obtain ⟨byte, -, rfl⟩ := mem_map.mp appends
        rfl
    · rw [mem_singleton.mp member]
      rfl
    · cases member

/-- The main file after the first operations of `Write`: the old one until it is
truncated, from then on the part of the text that is written. -/
theorem main_run_take_writeOps (disk : Disk Byte) (opens : Opens) (content : List Byte)
    (count : Nat) :
    (disk.run ((writeOps disk opens content).take count)).main =
      if Truncates disk opens count then
        some (content.take (count - (backupOps disk opens).length - 1))
      else
        disk.main := by
  have backedUp : (disk.run ((backupOps disk opens).take count)).main = disk.main :=
    Disk.main_run_of_keeps fun _ member => main_apply_of_mem_backupOps (mem_of_mem_take member)
  rw [writeOps, take_append, Disk.run, foldl_append]
  by_cases written : writes disk opens = true
  · rw [if_pos written]
    rcases Nat.lt_or_ge (backupOps disk opens).length count with after | before
    · have start : count - (backupOps disk opens).length =
          count - (backupOps disk opens).length - 1 + 1 := by
        omega
      rw [if_pos ⟨written, after⟩, start, mainOps, take_succ_cons, ← map_take]
      have truncated : ((disk.run ((backupOps disk opens).take count)).apply
          .truncateMain).main = some [] :=
        rfl
      exact Disk.main_run_appendMain truncated
    · rw [if_neg fun truncated => Nat.not_lt.mpr before truncated.2, Nat.sub_eq_zero_of_le before]
      exact backedUp
  · rw [if_neg written, if_neg fun truncated => written truncated.1, take_nil]
    exact backedUp

theorem length_writeOps (written : writes disk opens = true) (content : List Byte) :
    (writeOps disk opens content).length = (backupOps disk opens).length + content.length + 1 := by
  simp [writeOps, mainOps, written, Nat.add_assoc]

theorem main_run_writeOps (written : writes disk opens = true) :
    (disk.run (writeOps disk opens content)).main = some content := by
  have whole := main_run_take_writeOps disk opens content (writeOps disk opens content).length
  have length := length_writeOps written content
  rw [take_length, if_pos ⟨written, by omega⟩] at whole
  rw [whole, take_of_length_le (by omega)]

/-! ## Events -/

/-- The events of the queue. -/
inductive Event (Byte : Type)
  | write (json : List Byte)
  | commit
  | delete

def maxTimeMsDelta : Nat := 5000
def sendTimeMsInterval : Nat := 2000

/-- What processing an event leaves behind. -/
structure Processed (Byte : Type) where
  handler : NetPolicyFileEventHandler Byte
  disk : Disk Byte
  /-- The events sent, with their delays. -/
  sent : List (Event Byte × Nat)

def deleteBak (disk : Disk Byte) : Disk Byte :=
  if disk.bak.isSome then disk.apply .removeBak else disk

/-- `ProcessEvent` at a time. -/
def processEvent (handler : NetPolicyFileEventHandler Byte) (disk : Disk Byte) (now : Int)
    (opens : Opens) : Event Byte → Processed Byte
  | .write json =>
    if handler.commitWait then ⟨{ handler with fileContent := json }, disk, []⟩
    else
      let timeDelta := now - handler.timeStamp
      let delay := if maxTimeMsDelta ≤ timeDelta then 0
        else (maxTimeMsDelta - timeDelta).toNat
      ⟨{ handler with fileContent := json, commitWait := true }, disk, [(.commit, delay)]⟩
  | .commit =>
    let written := writes disk opens
    ⟨{ handler with commitWait := !written, timeStamp := now },
      disk.run (writeOps disk opens handler.fileContent),
      (if written then [] else [(.commit, maxTimeMsDelta)]) ++ [(.delete, sendTimeMsInterval)]⟩
  | .delete => ⟨handler, deleteBak disk, []⟩

/-! ## No text is lost -/

/-- The handler at work. The texts wait in the order in which they were sent;
commits and deletions come at any time. -/
structure Worker (Byte : Type) where
  handler : NetPolicyFileEventHandler Byte
  disk : Disk Byte
  /-- The texts of the waiting `MSG_POLICY_FILE_WRITE` events. -/
  texts : List (List Byte)
  /-- How many `MSG_POLICY_FILE_COMMIT` events wait. -/
  commits : Nat
  /-- How many `MSG_POLICY_FILE_DELETE` events wait. -/
  deletes : Nat
  /-- The text of the last `WriteFile`. -/
  last : Option (List Byte)

namespace Worker

def isCommit : Event Byte × Nat → Bool
  | (.commit, _) => true
  | _ => false

def isDelete : Event Byte × Nat → Bool
  | (.delete, _) => true
  | _ => false

section

variable (worker : Worker Byte) (now : Int) (opens : Opens)

def process (event : Event Byte) : Worker Byte :=
  let processed := worker.handler.processEvent worker.disk now opens event
  { worker with
    handler := processed.handler
    disk := processed.disk
    commits := worker.commits + processed.sent.countP isCommit
    deletes := worker.deletes + processed.sent.countP isDelete }

/-- The first text that waits is processed. -/
def processWrite : Worker Byte :=
  match worker.texts with
  | [] => worker
  | json :: texts => { worker with texts := texts }.process now opens (.write json)

def processCommit : Worker Byte :=
  if worker.commits = 0 then worker
  else { worker with commits := worker.commits - 1 }.process now opens .commit

def processDelete : Worker Byte :=
  if worker.deletes = 0 then worker
  else { worker with deletes := worker.deletes - 1 }.process now opens .delete

/-- What happens to the worker. -/
inductive Action (Byte : Type)
  | writeFile (json : List Byte)
  | processWrite (now : Int) (opens : Opens)
  | processCommit (now : Int) (opens : Opens)
  | processDelete (now : Int) (opens : Opens)

def step : Action Byte → Worker Byte
  | .writeFile json => { worker with texts := worker.texts ++ [json], last := some json }
  | .processWrite now opens => worker.processWrite now opens
  | .processCommit now opens => worker.processCommit now opens
  | .processDelete now opens => worker.processDelete now opens

end

def start (disk : Disk Byte) : Worker Byte := ⟨⟨0, false, []⟩, disk, [], 0, 0, none⟩

/-- What holds of the worker at any time. -/
structure Invariant (worker : Worker Byte) : Prop where
  pending : worker.commits = worker.handler.commitWait.toNat
  remembered : ∀ text, worker.last = some text →
    worker.texts.getLast?.getD worker.handler.fileContent = text
  committed : worker.texts = [] → worker.handler.commitWait = false →
    worker.last = none ∨ worker.disk.main = some worker.handler.fileContent

theorem invariant_start : (start disk).Invariant where
  pending := rfl
  remembered := by simp [start]
  committed _ _ := .inl rfl

variable {worker : Worker Byte}

section

variable (invariant : worker.Invariant)

include invariant

section

variable (now : Int) (opens : Opens)

theorem Invariant.processWrite : (worker.processWrite now opens).Invariant := by
  unfold Worker.processWrite
  split
  · exact invariant
  next json texts waiting =>
    have pending := invariant.pending
    have newest text : worker.last = some text → texts.getLast?.getD json = text := by
      intro last
      have remembered := invariant.remembered text last
      rwa [waiting, getLast?_cons] at remembered
    cases waits : worker.handler.commitWait with
    | true =>
      constructor
      · simpa [process, processEvent, waits] using pending
      · simpa [process, processEvent, waits] using newest
      · simp [process, processEvent, waits]
    | false =>
      rw [waits] at pending
      constructor
      · simpa [process, processEvent, waits, isCommit] using pending
      · simpa [process, processEvent, waits] using newest
      · simp [process, processEvent, waits]

theorem Invariant.processCommit : (worker.processCommit now opens).Invariant := by
  unfold Worker.processCommit
  split
  · exact invariant
  next waits =>
    have one : worker.commits - 1 = 0 := by
      have atMost := Bool.toNat_le worker.handler.commitWait
      rw [← invariant.pending] at atMost
      omega
    cases written : writes worker.disk opens with
    | true =>
      refine ⟨?_, invariant.remembered, fun _ _ => .inr ?_⟩
      · simp [process, processEvent, written, one, isCommit]
      · exact main_run_writeOps written
    | false =>
      refine ⟨?_, invariant.remembered, ?_⟩
      · simp [process, processEvent, written, one, countP_cons, isCommit]
      · simp [process, processEvent, written]

theorem Invariant.processDelete : (worker.processDelete now opens).Invariant := by
  unfold Worker.processDelete
  split
  · exact invariant
  · have kept : (deleteBak worker.disk).main = worker.disk.main := by
      unfold deleteBak
      split <;> rfl
    refine ⟨invariant.pending, invariant.remembered, fun noTexts settled => ?_⟩
    exact (invariant.committed noTexts settled).imp_right kept.trans

end

theorem Invariant.step : (worker.step action).Invariant := by
  cases action with
  | writeFile json => exact ⟨invariant.pending, by simp [Worker.step], by simp [Worker.step]⟩
  | processWrite now opens => exact invariant.processWrite now opens
  | processCommit now opens => exact invariant.processCommit now opens
  | processDelete now opens => exact invariant.processDelete now opens

end

/-- Whenever no text and no commit waits, the main file holds the text of the last
`WriteFile`. -/
theorem main_of_reach
    (reach : Run.Reach step (fun _ _ => True) (start disk) worker) (noTexts : worker.texts = [])
    (noCommits : worker.commits = 0) (last : worker.last = some text) :
    worker.disk.main = some text := by
  have invariant : worker.Invariant :=
    reach.invariant invariant_start fun _ action holds _ => holds.step
  have settled : worker.handler.commitWait = false := by
    have pending := invariant.pending
    rw [noCommits] at pending
    exact Bool.toNat_eq_zero.mp pending.symm
  have remembered := invariant.remembered text last
  rw [noTexts] at remembered
  rw [← remembered]
  refine (invariant.committed noTexts settled).resolve_left ?_
  rw [last]
  exact Option.some_ne_none text

theorem main_of_one_commit :
    ([Action.writeFile [0], .processWrite 0 ⟨true, true, true⟩,
      .processCommit 0 ⟨true, true, true⟩].foldl step (start ⟨none, none⟩)).disk.main = some [0] :=
  main_of_reach (Run.Reach.start.foldl _ ⟨trivial, trivial, trivial, trivial⟩) rfl rfl rfl

end Worker

end NetPolicyFileEventHandler

end NetManager.Policy
