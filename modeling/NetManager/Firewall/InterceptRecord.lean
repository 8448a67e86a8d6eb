import Mathlib.Data.List.Basic

/-!
# Records of intercepted packets

`AddInterceptRecord` ages the records of a user by date and by number before it stores new
ones. The time of a record is in milliseconds, the column holds seconds.
-/

namespace NetManager.Firewall

open List

structure InterceptRecord where
  localPort : BitVec 16
  remotePort : BitVec 16
  protocol : BitVec 16
  time : BitVec 64
  localIp : String
  remoteIp : String
  appUid : BitVec 32
  domain : String

/-- A row of `interceptRecord`. -/
structure InterceptRow where
  id : Nat
  userId : BitVec 32
  time : BitVec 32
  localIp : String
  remoteIp : String
  localPort : BitVec 32
  remotePort : BitVec 32
  protocol : BitVec 32
  appUid : BitVec 32
  domain : String
deriving DecidableEq

/-- The table, listed by its primary key. -/
structure InterceptTable where
  rows : List InterceptRow
  ordered : rows.Pairwise (·.id < ·.id)

def recordMaxSaveTime : Nat := 8 * 24 * 60 * 60
def recordMaxDataNum : Nat := 1000
def millisPerSec : Nat := 1000

/-- A row is not deleted as older than the last record. -/
def InDate (back : InterceptRecord) (row : InterceptRow) : Prop :=
  ((back.time - BitVec.ofNat 64 recordMaxSaveTime).toNat : Int) ≤ row.time.toInt
deriving Decidable

/-- The number of rows that the second deletion of `AddInterceptRecord` is for. -/
def excess (currentRows size : Nat) : Nat :=
  let leftRows := (BitVec.ofInt 64 (recordMaxDataNum - currentRows)).toNat
  if leftRows < size then size - leftRows else 0

/-- The rows that both deletions of `AddInterceptRecord` leave. -/
def agedRows (userId : BitVec 32) (back : InterceptRecord) (size : Nat)
    (rows : List InterceptRow) : List InterceptRow :=
  let rows := rows.filter fun row => ¬ (row.userId = userId ∧ ¬ InDate back row)
  let ofUser := rows.filter (·.userId = userId)
  let oldest := ofUser.take (excess ofUser.length size)
  rows.filter fun row => row.id ∉ oldest.map (·.id)

/-- The row of a record. -/
def interceptRow (userId : BitVec 32) (record : InterceptRecord) (id : Nat) : InterceptRow where
  id
  userId
  time := BitVec.ofNat 32 (record.time.toNat / millisPerSec)
  localIp := record.localIp
  remoteIp := record.remoteIp
  localPort := record.localPort.setWidth 32
  remotePort := record.remotePort.setWidth 32
  protocol := record.protocol.setWidth 32
  appUid := record.appUid
  domain := record.domain

/-- The key behind the greatest one. -/
def nextId (rows : List InterceptRow) : Nat := (rows.getLast?.map (·.id + 1)).getD 1

def insertRecord (userId : BitVec 32) (rows : List InterceptRow) (record : InterceptRecord) :
    List InterceptRow :=
  rows ++ [interceptRow userId record (nextId rows)]

variable {rows : List InterceptRow} {userId : BitVec 32}

theorem ordered_insertRecord (ordered : rows.Pairwise (·.id < ·.id)) :
    (insertRecord userId rows record).Pairwise (·.id < ·.id) := by
  rw [insertRecord, pairwise_append]
  refine ⟨ordered, pairwise_singleton _ _, fun row member added isAdded => ?_⟩
  rw [mem_singleton.mp isAdded]
  obtain ⟨front, last, rfl⟩ := (eq_nil_or_concat' rows).resolve_left (ne_nil_of_mem member)
  rw [nextId, getLast?_concat]
  rcases mem_append.mp member with inFront | isLast
  · exact Nat.lt_succ_of_lt ((pairwise_append.mp ordered).2.2 row inFront last mem_cons_self)
  · rw [mem_singleton.mp isLast]
    exact Nat.lt_succ_self _

def addInterceptRecord (userId : BitVec 32) (records : List InterceptRecord)
    (nonempty : records ≠ []) (table : InterceptTable) : InterceptTable where
  rows := records.foldl (insertRecord userId)
    (agedRows userId (records.getLast nonempty) records.length table.rows)
  ordered := List.foldlRecOn (motive := fun (rows : List InterceptRow) => rows.Pairwise (·.id < ·.id))
    records _ ((table.ordered.filter _).filter _) fun _ ordered _ _ => ordered_insertRecord ordered

theorem foldl_insertRecord (records : List InterceptRecord) (rows : List InterceptRow) :
    records.foldl (insertRecord userId) rows =
      rows ++ records.zipWith (interceptRow userId) (range' (nextId rows) records.length) := by
  induction records generalizing rows with
  | nil => simp
  | cons record records ih =>
    have next : nextId (insertRecord userId rows record) = nextId rows + 1 := by
      rw [nextId, insertRecord, getLast?_concat]
      rfl
    rw [foldl_cons, ih, next, insertRecord, append_assoc]
    rfl

/-- A call stores what both deletions leave and, behind it, a row for every record. -/
theorem rows_addInterceptRecord (nonempty : records ≠ []) (table : InterceptTable) :
    let aged := agedRows userId (records.getLast nonempty) records.length table.rows
    (addInterceptRecord userId records nonempty table).rows =
      aged ++ records.zipWith (interceptRow userId) (range' (nextId aged) records.length) :=
  foldl_insertRecord records _

/-! ## What is kept -/

/-- A row is less than eight days older than the newest record. -/
def Recent (records : List InterceptRecord) (row : InterceptRow) : Prop :=
  ∀ record ∈ records,
    (record.time.toNat : Int) < (row.time.toInt + recordMaxSaveTime) * millisPerSec
deriving Decidable

variable (userId : BitVec 32) (records : List InterceptRecord)

/-- The rows of a user that were stored after a row. -/
def newerRows (row : InterceptRow) (rows : List InterceptRow) : List InterceptRow :=
  (rows.filter (·.userId = userId)).filter (row.id < ·.id)

/-- A recent row of the user stays, or there is no room for it beside what is newer. -/
def RetainsRecent (nonempty : records ≠ []) (table : InterceptTable) : Prop :=
  let aged := agedRows userId (records.getLast nonempty) records.length table.rows
  ∀ row ∈ table.rows, row.userId = userId → Recent records row →
    row ∈ aged ∨ recordMaxDataNum ≤ (newerRows userId row aged).length + records.length

theorem filter_notMem_take (ordered : rows.Pairwise (·.id < ·.id)) :
    rows.filter (fun row => row.id ∉ (rows.take n).map (·.id)) = rows.drop n := by
  have split := rows.take_append_drop n
  rw [← split, pairwise_append] at ordered
  have both : (rows.take n ++ rows.drop n).filter
      (fun row => row.id ∉ (rows.take n).map (·.id)) = rows.drop n := by
    rw [filter_append, filter_eq_nil_iff.mpr, filter_eq_self.mpr, nil_append]
    · intro row member
      refine decide_eq_true fun inTake => ?_
      obtain ⟨other, isOther, same⟩ := mem_map.mp inTake
      exact absurd same (Nat.ne_of_lt (ordered.2.2 other isOther row member))
    · intro row member
      rw [decide_eq_true_eq, not_not]
      exact mem_map_of_mem member
  rwa [split] at both

theorem ofUser_agedRows (userId : BitVec 32) (ordered : rows.Pairwise (·.id < ·.id))
    (back : InterceptRecord) (size : Nat) :
    let ofUser := rows.filter fun row => row.userId = userId ∧ InDate back row
    (agedRows userId back size rows).filter (·.userId = userId) =
      ofUser.drop (excess ofUser.length size) := by
  intro ofUser
  have same : (rows.filter fun row => ¬ (row.userId = userId ∧ ¬ InDate back row)).filter
      (·.userId = userId) = ofUser := by
    rw [filter_filter]
    refine filter_congr fun row _ => ?_
    rw [← Bool.decide_and, decide_eq_decide]
    tauto
  rw [agedRows, filter_comm, same]
  exact filter_notMem_take (ordered.filter _)

theorem excess_eq_zero_or_full :
    excess currentRows size = 0 ∨
      recordMaxDataNum ≤ currentRows - excess currentRows size + size := by
  unfold excess recordMaxDataNum
  dsimp only
  split
  case isFalse => exact .inl rfl
  case isTrue few =>
    rw [BitVec.toNat_ofInt] at few ⊢
    omega

theorem min_le_length_filter_drop (ordered : rows.Pairwise (·.id < ·.id)) (id n : Nat) :
    min (rows.filter (id < ·.id)).length (rows.length - n) ≤
      ((rows.drop n).filter (id < ·.id)).length := by
  induction rows generalizing n with
  | nil => exact Nat.zero_le _
  | cons row rows ih =>
    obtain ⟨first, ordered⟩ := pairwise_cons.mp ordered
    cases n with
    | zero => exact Nat.min_le_left _ _
    | succ n =>
      rw [drop_succ_cons, length_cons, Nat.add_sub_add_right]
      by_cases newer : id < row.id
      · have all : (rows.drop n).filter (id < ·.id) = rows.drop n :=
          filter_eq_self.mpr fun other member =>
            decide_eq_true (Nat.lt_trans newer (first other (mem_of_mem_drop member)))
        rw [all, length_drop]
        exact Nat.min_le_right _ _
      · rw [filter_cons_of_neg (by rwa [decide_eq_true_eq])]
        exact ih ordered n

theorem full_of_not_kept (ordered : rows.Pairwise (·.id < ·.id))
    (gone : row ∉ rows.drop (excess rows.length size))
    (reason : row ∈ rows ∨ recordMaxDataNum ≤ (rows.filter (row.id < ·.id)).length + size) :
    recordMaxDataNum ≤
      ((rows.drop (excess rows.length size)).filter (row.id < ·.id)).length + size := by
  rcases excess_eq_zero_or_full with zero | full
  · rw [zero] at gone ⊢
    exact reason.resolve_left gone
  · rcases reason with member | room
    · rw [← take_append_drop (excess rows.length size) rows] at member ordered
      have taken := (mem_append.mp member).resolve_right gone
      rw [filter_eq_self.mpr, length_drop]
      · exact full
      · exact fun other kept =>
          decide_eq_true ((pairwise_append.mp ordered).2.2 row taken other kept)
    · have least := min_le_length_filter_drop ordered row.id (excess rows.length size)
      omega

/-- Recent rows are retained where none is out of date for the deletion, or there is no
room for it beside the newer rows that are in date. -/
theorem retainsRecent_iff (nonempty : records ≠ []) (table : InterceptTable) :
    RetainsRecent userId records nonempty table ↔
      ∀ row ∈ table.rows, row.userId = userId → Recent records row →
        InDate (records.getLast nonempty) row ∨
          recordMaxDataNum ≤ (newerRows userId row
            (table.rows.filter (InDate (records.getLast nonempty)))).length + records.length := by
  let ofUser := table.rows.filter fun row =>
    row.userId = userId ∧ InDate (records.getLast nonempty) row
  have kept := ofUser_agedRows userId table.ordered (records.getLast nonempty) records.length
  have inDate : (table.rows.filter (InDate (records.getLast nonempty))).filter
      (·.userId = userId) = ofUser := by
    rw [filter_filter]
    simp only [← Bool.decide_and]
    rfl
  have mem_aged row : row.userId = userId →
      (row ∈ agedRows userId (records.getLast nonempty) records.length table.rows ↔
        row ∈ ofUser.drop (excess ofUser.length records.length)) := by
    intro isUser
    rw [← kept, mem_filter, decide_eq_true_eq]
    exact (and_iff_left isUser).symm
  have mem_ofUser : ∀ row ∈ table.rows, row.userId = userId →
      (row ∈ ofUser ↔ InDate (records.getLast nonempty) row) := by
    intro row member isUser
    rw [mem_filter, decide_eq_true_eq]
    exact ⟨fun both => both.2.2, fun dated => ⟨member, isUser, dated⟩⟩
  unfold RetainsRecent newerRows
  dsimp only
  rw [kept, inDate]
  refine forall₄_congr fun row member isUser recent => ?_
  rw [mem_aged row isUser, ← mem_ofUser row member isUser]
  constructor
  · rintro (stays | full)
    · exact .inl (mem_of_mem_drop stays)
    · exact .inr (Nat.le_trans full
        (Nat.add_le_add_right ((drop_sublist _ _).filter _).length_le _))
  · exact fun reason => or_iff_not_imp_left.mpr fun gone =>
      full_of_not_kept (table.ordered.filter _) gone reason

/-- A record of a moment, and the table with the row of such a record. -/
def recordAt (time : BitVec 64) : InterceptRecord := ⟨0, 0, 0, time, "", "", 0, ""⟩

def storedAt (time : BitVec 64) : InterceptTable where
  rows := insertRecord 100 [] (recordAt time)
  ordered := ordered_insertRecord List.Pairwise.nil

theorem retainsRecent_early : RetainsRecent 100 [recordAt 691300] (by decide) (storedAt 691300) :=
  (retainsRecent_iff 100 [recordAt 691300] (by decide) (storedAt 691300)).mpr (by decide)

/-- A record of the same moment in 2024 is deleted. -/
theorem not_retainsRecent :
    ¬ RetainsRecent 100 [recordAt 1704067200000] (by decide) (storedAt 1704067200000) := by
  unfold RetainsRecent
  decide

end NetManager.Firewall
