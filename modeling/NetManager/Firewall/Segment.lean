import NetManager.Firewall.Bitmap

/-!
# Port segments

`SegmentBitmapMap` keeps the port ranges of all rules as disjoint segments, each
with the rules that contain it. Adding a range cuts the segments it meets into
a part before, a part shared and a part after.

The map is exact port by port: `SegmentBitmapMap.Represents` says that the
segment of a port, if there is one, has the rules of the ranges that contain
the port.
-/

namespace NetManager.Firewall

open List

structure SegmentBitmap where
  start : BitVec 16
  stop : BitVec 16
  bitmap : Bitmap
  deriving DecidableEq

namespace SegmentBitmap

/-- The segment contains a port. -/
def Contains (segment : SegmentBitmap) (port : BitVec 16) : Prop :=
  segment.start ≤ port ∧ port ≤ segment.stop
deriving Decidable

def IsValid (segment : SegmentBitmap) : Prop := segment.start ≤ segment.stop
deriving Decidable

end SegmentBitmap

namespace SegmentBitmapMap

/-- The test of `CollectIntersectIndices`. -/
def Intersects (start stop : BitVec 16) (segment : SegmentBitmap) : Prop :=
  ¬ (stop < segment.start ∨ segment.stop < start)
deriving Decidable

/-- The order of `std::sort` and `std::lower_bound`. -/
def StartLe (a b : SegmentBitmap) : Prop := a.start ≤ b.start
deriving Decidable

/-- `addSegment`: the piece, if it is not empty. -/
def addSegment (start stop : BitVec 16) (bitmap : Bitmap) : List SegmentBitmap :=
  if stop < start then [] else [⟨start, stop, bitmap⟩]

/-- `ProcessIntersections` from the current position on. -/
def processIntersections (targetEnd : BitVec 16) (targetBitmap : Bitmap) :
    List SegmentBitmap → BitVec 16 → List SegmentBitmap
  | [], currentPos =>
    if currentPos ≤ targetEnd then addSegment currentPos targetEnd targetBitmap
    else []
  | segment :: rest, currentPos =>
    let before :=
      if currentPos < segment.start then addSegment currentPos (segment.start - 1) targetBitmap
      else []
    let currentPos := if currentPos < segment.start then segment.start else currentPos
    let left :=
      if segment.start < currentPos then addSegment segment.start (currentPos - 1) segment.bitmap
      else []
    let overlapEnd := if segment.stop < targetEnd then segment.stop else targetEnd
    let overlap := addSegment currentPos overlapEnd (segment.bitmap.or targetBitmap)
    if overlapEnd = 0xFFFF then before ++ left ++ overlap
    else
      let currentPos := overlapEnd + 1
      let right :=
        if currentPos ≤ segment.stop then addSegment currentPos segment.stop segment.bitmap
        else []
      before ++ left ++ overlap ++ right ++
        -- after the last piece of the target the loop breaks
        (if targetEnd < currentPos then []
        else processIntersections targetEnd targetBitmap rest currentPos)

/-- `InsertNewSegments`, each at its lower bound. -/
def insertNewSegments (segments newSegments : List SegmentBitmap) : List SegmentBitmap :=
  newSegments.foldl
    (fun segments segment =>
      if segment.IsValid then segments.orderedInsert StartLe segment
      else segments)
    segments

def addMap (segments : List SegmentBitmap) (start stop : BitVec 16)
    (bitmap : Bitmap) : List SegmentBitmap :=
  if stop < start then segments
  else
    let intersectSegs := segments.filter fun s => Intersects start stop s
    let newSegments := processIntersections stop bitmap (intersectSegs.insertionSort StartLe) start
    insertNewSegments (segments.filter fun s => ¬ Intersects start stop s) newSegments

/-! ### The rules of a port -/

/-- Some segment contains the port and has a property of bitmaps. -/
def Holds (Property : Bitmap → Prop) (segments : List SegmentBitmap) (port : BitVec 16) : Prop :=
  ∃ segment ∈ segments, segment.Contains port ∧ Property segment.bitmap

/-- Properties that a union of rules has when one of its parts has it. Two of
them matter: to have the bit of one rule, and to be there at all. -/
def Additive (Property : Bitmap → Prop) : Prop :=
  ∀ x y : Bitmap, Property (x.or y) ↔ Property x ∨ Property y

theorem additive_test : Additive fun bitmap => bitmap.test n = true := by
  intro x y
  simp

theorem additive_true : Additive fun _ => True := by
  intro x y
  simp

section Holds

@[simp] theorem not_holds_nil : ¬ Holds Property [] port := by
  simp [Holds]

@[simp] theorem holds_cons_iff :
    Holds Property (piece :: segments) port ↔
      piece.Contains port ∧ Property piece.bitmap ∨ Holds Property segments port := by
  simp [Holds]

@[simp] theorem holds_append_iff :
    Holds Property (first ++ second) port ↔
      Holds Property first port ∨ Holds Property second port := by
  simp [Holds, or_and_right, exists_or]

@[simp] theorem holds_addSegment_iff :
    Holds Property (addSegment start stop bitmap) port ↔
      (start ≤ port ∧ port ≤ stop) ∧ Property bitmap := by
  unfold addSegment
  split
  next empty =>
    have : ¬ (start ≤ port ∧ port ≤ stop) := by bv_omega
    simp [this]
  next proper => simp [SegmentBitmap.Contains]

theorem holds_ite_iff [Decidable condition] :
    Holds Property (if condition then segments else []) port ↔
      condition ∧ Holds Property segments port := by
  split
  next holds => simp [holds]
  next fails => simp [fails]

end Holds

/-- The segments are in order and do not meet. -/
def Separated (segments : List SegmentBitmap) : Prop :=
  segments.Pairwise fun s t => s.stop < t.start

/-- What the loop of `ProcessIntersections` knows of the segments that are
left: they are separated and meet the rest of the target. -/
structure Ready (targetEnd : BitVec 16) (segments : List SegmentBitmap)
    (currentPos : BitVec 16) : Prop where
  current_le : currentPos ≤ targetEnd
  separated : Separated segments
  valid : ∀ segment ∈ segments, segment.IsValid
  meets : ∀ segment ∈ segments, segment.start ≤ targetEnd ∧ currentPos ≤ segment.stop

variable {segment : SegmentBitmap} {targetEnd currentPos : BitVec 16}

theorem Ready.rest
    {rest : List SegmentBitmap} (ready : Ready targetEnd (segment :: rest) currentPos)
    (more : segment.stop < targetEnd) :
    Ready targetEnd rest (segment.stop + 1) := by
  have separated := pairwise_cons.mp ready.separated
  refine ⟨by bv_omega, separated.2,
    (forall_mem_cons.mp ready.valid).2,
    fun other member => ?_⟩
  have after := separated.1 other member
  have valid := ready.valid other (mem_cons_of_mem _ member)
  have meets := ready.meets other (mem_cons_of_mem _ member)
  unfold SegmentBitmap.IsValid at valid
  exact ⟨meets.1, by bv_omega⟩

/-- When a segment reaches the end of the target it is the last one. -/
theorem Ready.rest_eq_nil
    {rest : List SegmentBitmap} (ready : Ready targetEnd (segment :: rest) currentPos)
    (done : targetEnd ≤ segment.stop) :
    rest = [] := by
  cases rest with
  | nil => rfl
  | cons other rest =>
    have after := (pairwise_cons.mp ready.separated).1 other (by simp)
    have meets := (ready.meets other (by simp)).1
    exfalso
    bv_omega

section

variable (segment : SegmentBitmap) (currentPos : BitVec 16) (targetBitmap : Bitmap)

/-- The pieces of one turn up to the shared one: what of the target lies before
the segment, and what of the segment lies before the target. -/
def head : List SegmentBitmap :=
  if currentPos < segment.start then addSegment currentPos (segment.start - 1) targetBitmap
  else if segment.start < currentPos then addSegment segment.start (currentPos - 1) segment.bitmap
  else []

/-- Where the shared piece of one turn starts. -/
def overlapStart : BitVec 16 :=
  if currentPos < segment.start then segment.start else currentPos

theorem processIntersections_head :
    (if currentPos < segment.start then
        addSegment currentPos (segment.start - 1) targetBitmap
      else []) ++
      (if segment.start < overlapStart segment currentPos then
        addSegment segment.start (overlapStart segment currentPos - 1) segment.bitmap
      else []) =
      head segment currentPos targetBitmap := by
  unfold head overlapStart
  split
  next before => simp
  next notBefore => simp

end

theorem processIntersections_of_lt (more : segment.stop < targetEnd) :
    processIntersections targetEnd targetBitmap (segment :: rest) currentPos =
      head segment currentPos targetBitmap ++
        addSegment (overlapStart segment currentPos) segment.stop
          (segment.bitmap.or targetBitmap) ++
        processIntersections targetEnd targetBitmap rest (segment.stop + 1) := by
  have notTop : segment.stop ≠ 0xFFFF := by bv_omega
  have noRight : ¬ segment.stop + 1 ≤ segment.stop := by bv_omega
  have goesOn : ¬ targetEnd < segment.stop + 1 := by bv_omega
  simp only [processIntersections, more, if_true, notTop, if_false, noRight, goesOn, append_nil]
  rw [← processIntersections_head]
  rfl

theorem processIntersections_of_le (done : targetEnd ≤ segment.stop) :
    processIntersections targetEnd targetBitmap (segment :: rest) currentPos =
      head segment currentPos targetBitmap ++
        addSegment (overlapStart segment currentPos) targetEnd (segment.bitmap.or targetBitmap) ++
        (if targetEnd < segment.stop then addSegment (targetEnd + 1) segment.stop segment.bitmap
        else []) := by
  have notMore : ¬ segment.stop < targetEnd := by bv_omega
  simp only [processIntersections, notMore, if_false]
  by_cases top : targetEnd = 0xFFFF
  · have noRight : ¬ targetEnd < segment.stop := by bv_omega
    rw [if_pos top, if_neg noRight, append_nil, ← processIntersections_head]
    rfl
  · have breaks : targetEnd < targetEnd + 1 := by bv_omega
    have right : targetEnd + 1 ≤ segment.stop ↔ targetEnd < segment.stop := by
      bv_omega
    simp only [if_neg top, breaks, if_true, append_nil, right]
    rw [← processIntersections_head]
    rfl

variable {Property : Bitmap → Prop} {port : BitVec 16}

theorem holds_head_iff :
    Holds Property (head segment currentPos targetBitmap) port ↔
      (currentPos ≤ port ∧ port < segment.start) ∧ Property targetBitmap ∨
      (segment.start ≤ port ∧ port < currentPos) ∧ Property segment.bitmap := by
  unfold head
  split
  next before =>
    have left : port ≤ segment.start - 1 ↔ port < segment.start := by bv_omega
    have right : ¬ (segment.start ≤ port ∧ port < currentPos) := by bv_omega
    rw [holds_addSegment_iff, left]
    simp [right]
  next notBefore =>
    split
    next after =>
      have left : port ≤ currentPos - 1 ↔ port < currentPos := by bv_omega
      have right : ¬ (currentPos ≤ port ∧ port < segment.start) := by bv_omega
      rw [holds_addSegment_iff, left]
      simp [right]
    next notAfter =>
      have left : ¬ (currentPos ≤ port ∧ port < segment.start) := by bv_omega
      have right : ¬ (segment.start ≤ port ∧ port < currentPos) := by bv_omega
      simp [left, right]

/-- The pieces have the rules of the old segments, and on the rest of the target
also those of the new range. -/
theorem holds_processIntersections_iff (additive : Additive Property)
    (ready : Ready targetEnd segments currentPos) :
    Holds Property
        (processIntersections targetEnd targetBitmap segments currentPos)
        port ↔
      Holds Property segments port ∨
        (currentPos ≤ port ∧ port ≤ targetEnd) ∧ Property targetBitmap := by
  induction segments generalizing currentPos with
  | nil => simp [processIntersections, ready.current_le]
  | cons segment rest ih =>
    have current := ready.current_le
    have meets := ready.meets segment (by simp)
    have valid := ready.valid segment (by simp)
    have start : overlapStart segment currentPos ≤ port ↔
        segment.start ≤ port ∧ currentPos ≤ port := by
      unfold overlapStart
      split <;> bv_omega
    by_cases more : segment.stop < targetEnd
    · rw [processIntersections_of_lt more, holds_append_iff,
        holds_append_iff, holds_head_iff, holds_addSegment_iff,
        ih (ready.rest more), holds_cons_iff, start,
        additive]
      have next : (segment.stop + 1).toNat = segment.stop.toNat + 1 := by
        bv_omega
      simp only [SegmentBitmap.Contains, BitVec.le_def, BitVec.lt_def, next]
        at current meets valid more ⊢
      -- what is left are bounds of the port, for every choice of the properties
      by_cases later : Holds Property rest port <;> by_cases old : Property segment.bitmap <;>
        by_cases new : Property targetBitmap <;>
        simp only [later, old, new, and_true, and_false, or_true, true_or, or_false, false_or] <;> omega
    · have done : targetEnd ≤ segment.stop := by bv_omega
      rw [processIntersections_of_le done, holds_append_iff,
        holds_append_iff, holds_head_iff, holds_addSegment_iff,
        holds_ite_iff, holds_addSegment_iff, ready.rest_eq_nil done,
        holds_cons_iff, start, additive]
      have next : targetEnd < segment.stop → (targetEnd + 1).toNat = targetEnd.toNat + 1 := by
        bv_omega
      simp only [SegmentBitmap.Contains, BitVec.le_def, BitVec.lt_def]
        at current meets valid done next ⊢
      by_cases old : Property segment.bitmap <;> by_cases new : Property targetBitmap <;>
        simp only [not_holds_nil, old, new, and_true, and_false, or_true, or_false, false_or] <;>
        omega

variable {start stop : BitVec 16}

theorem mem_addSegment_iff :
    piece ∈ addSegment start stop bitmap ↔ start ≤ stop ∧ piece = ⟨start, stop, bitmap⟩ := by
  unfold addSegment
  split
  next empty => simp [BitVec.not_le.mpr empty]
  next proper => simp [BitVec.not_lt.mp proper]

theorem separated_addSegment : Separated (addSegment start stop bitmap) := by
  unfold addSegment Separated
  split <;> simp

theorem stop_lt_of_mem_head (member : piece ∈ head segment currentPos targetBitmap) :
    piece.stop < overlapStart segment currentPos := by
  unfold head at member
  unfold overlapStart
  split at member
  next before =>
    obtain ⟨le, rfl⟩ := mem_addSegment_iff.mp member
    simp only [before, if_true]
    bv_omega
  next notBefore =>
    split at member
    next after =>
      obtain ⟨le, rfl⟩ := mem_addSegment_iff.mp member
      simp only [notBefore, if_false]
      bv_omega
    next notAfter => simp at member

/-- What holds of the pieces of `ProcessIntersections`: they are segments, in
order and apart, and none starts before both the target and the segments. -/
structure Pieces (low : BitVec 16) (pieces : List SegmentBitmap) : Prop where
  separated : Separated pieces
  valid : ∀ piece ∈ pieces, piece.IsValid
  low_le : ∀ piece ∈ pieces, low ≤ piece.start

theorem Pieces.append (firstPieces : Pieces low first) (secondPieces : Pieces middle second)
    (le : low ≤ middle) (below : ∀ piece ∈ first, piece.stop < middle) :
    Pieces low (first ++ second) := by
  refine ⟨?_, forall_mem_append.mpr ⟨firstPieces.valid, secondPieces.valid⟩,
    forall_mem_append.mpr ⟨firstPieces.low_le, fun piece member => ?_⟩⟩
  · refine pairwise_append.mpr ⟨firstPieces.separated, secondPieces.separated, ?_⟩
    intro s firstMember t secondMember
    have upper := below s firstMember
    have lower := secondPieces.low_le t secondMember
    bv_omega
  · have lower := secondPieces.low_le piece member
    bv_omega

theorem Pieces.addSegment (le : low ≤ start) :
    Pieces low (addSegment start stop bitmap) := by
  refine ⟨separated_addSegment, fun piece member => ?_, fun piece member => ?_⟩
  · obtain ⟨proper, rfl⟩ := mem_addSegment_iff.mp member
    exact proper
  · obtain ⟨_, rfl⟩ := mem_addSegment_iff.mp member
    exact le

theorem Pieces.nil : Pieces low [] := ⟨List.Pairwise.nil, by simp, by simp⟩

theorem Pieces.head (targetBitmap : Bitmap)
    (current : low ≤ currentPos) (start : low ≤ segment.start) :
    Pieces low (head segment currentPos targetBitmap) := by
  unfold SegmentBitmapMap.head
  split
  · exact .addSegment current
  · split
    · exact .addSegment start
    · exact .nil

theorem pieces_processIntersections {targetEnd : BitVec 16} (targetBitmap : Bitmap)
    {currentPos : BitVec 16}
    (ready : Ready targetEnd segments currentPos) {low : BitVec 16} (current : low ≤ currentPos)
    (starts : ∀ segment ∈ segments, low ≤ segment.start) :
    Pieces low (processIntersections targetEnd targetBitmap segments currentPos) := by
  induction segments generalizing currentPos low with
  | nil =>
    rw [processIntersections, if_pos ready.current_le]
    exact .addSegment current
  | cons segment rest ih =>
    have start := starts segment (by simp)
    have meets := ready.meets segment (by simp)
    have targetLe := ready.current_le
    have valid := ready.valid segment (by simp)
    have lowLe : low ≤ overlapStart segment currentPos := by
      unfold overlapStart
      split
      · exact start
      · exact current
    have headPieces := Pieces.head targetBitmap current start
    have overlapLe : overlapStart segment currentPos ≤ segment.stop ∧
        overlapStart segment currentPos ≤ targetEnd := by
      unfold overlapStart
      split
      · exact ⟨valid, meets.1⟩
      · exact ⟨meets.2, targetLe⟩
    by_cases more : segment.stop < targetEnd
    · rw [processIntersections_of_lt more, append_assoc]
      have restPieces := ih (ready.rest more)
        (BitVec.le_refl _) (fun other member => by
          have after := (pairwise_cons.mp ready.separated).1 other member
          bv_omega)
      refine headPieces.append ((Pieces.addSegment (BitVec.le_refl _)).append restPieces
        (by bv_omega) fun piece member => ?_) lowLe fun _ => stop_lt_of_mem_head
      obtain ⟨_, rfl⟩ := mem_addSegment_iff.mp member
      bv_omega
    · have done : targetEnd ≤ segment.stop := by bv_omega
      rw [processIntersections_of_le done, append_assoc]
      refine headPieces.append ?_ lowLe fun _ => stop_lt_of_mem_head
      split
      next longer =>
        refine (Pieces.addSegment (BitVec.le_refl _)).append
          (.addSegment (BitVec.le_refl _)) (by bv_omega) fun piece member => ?_
        obtain ⟨_, rfl⟩ := mem_addSegment_iff.mp member
        bv_omega
      · rw [append_nil]
        exact .addSegment (BitVec.le_refl _)

/-! ### Adding a range -/

/-- Segments that share no port. -/
def Apart (s t : SegmentBitmap) : Prop := ∀ port, s.Contains port → ¬ t.Contains port

variable {s t : SegmentBitmap}

theorem Apart.stop_lt (apart : Apart s t) (valid : t.IsValid) (starts : s.start ≤ t.start) :
    s.stop < t.start := by
  by_contra notBefore
  exact apart t.start ⟨starts, by bv_omega⟩ ⟨BitVec.le_refl _, valid⟩

theorem Apart.symm (apart : Apart s t) :
    Apart t s := fun port inside outside => apart port outside inside

instance : Std.Symm Apart := ⟨fun _ _ apart => apart.symm⟩

theorem Separated.apart (separated : Separated segments) :
    segments.Pairwise Apart := by
  refine separated.imp fun before port inside outside => ?_
  obtain ⟨_, upper⟩ := inside
  obtain ⟨lower, _⟩ := outside
  bv_omega

theorem separated_orderedInsert (separated : Separated segments)
    (valid : ∀ other ∈ segments, other.IsValid) (segmentValid : segment.IsValid)
    (apart : ∀ other ∈ segments, Apart segment other) :
    Separated (segments.orderedInsert StartLe segment) := by
  induction segments with
  | nil => simp [Separated]
  | cons first rest ih =>
    have pairs := pairwise_cons.mp separated
    have firstValid := valid first (by simp)
    rw [orderedInsert_cons]
    split
    next before =>
      have gap := (apart first (by simp)).stop_lt firstValid before
      unfold SegmentBitmap.IsValid at firstValid
      refine pairwise_cons.mpr ⟨forall_mem_cons.mpr ⟨gap, fun other later => ?_⟩, separated⟩
      have after := pairs.1 other later
      bv_omega
    next notBefore =>
      unfold StartLe at notBefore
      refine pairwise_cons.mpr ⟨fun other member => ?_, ?_⟩
      · rcases (mem_orderedInsert StartLe).mp member with rfl | later
        · exact (apart first (by simp)).symm.stop_lt segmentValid (by bv_omega)
        · exact pairs.1 other later
      · exact ih pairs.2
          (forall_mem_cons.mp valid).2
          (forall_mem_cons.mp apart).2

theorem holds_orderedInsert_iff :
    Holds Property (segments.orderedInsert StartLe segment) port ↔
      Holds Property (segment :: segments) port := by
  simp [Holds, mem_orderedInsert]

/-- A well-formed segment map. -/
structure WellFormed (segments : List SegmentBitmap) : Prop where
  separated : Separated segments
  valid : ∀ segment ∈ segments, segment.IsValid

theorem WellFormed.nil : WellFormed [] := ⟨List.Pairwise.nil, by simp⟩

theorem WellFormed.orderedInsert (wellFormed : WellFormed segments) (valid : segment.IsValid)
    (apart : ∀ other ∈ segments, Apart segment other) :
    WellFormed (segments.orderedInsert StartLe segment) := by
  refine ⟨separated_orderedInsert wellFormed.separated wellFormed.valid valid
    apart, fun other member => ?_⟩
  rcases (mem_orderedInsert StartLe).mp member with rfl | old
  · exact valid
  · exact wellFormed.valid other old

theorem wellFormed_insertNewSegments (wellFormed : WellFormed segments)
    (newApart : newSegments.Pairwise Apart) (newValid : ∀ segment ∈ newSegments, segment.IsValid)
    (cross : ∀ segment ∈ newSegments, ∀ other ∈ segments, Apart segment other) :
    WellFormed (insertNewSegments segments newSegments) ∧
      ∀ Property port, Holds Property (insertNewSegments segments newSegments) port ↔
          Holds Property segments port ∨ Holds Property newSegments port := by
  induction newSegments generalizing segments with
  | nil => exact ⟨wellFormed, by simp [insertNewSegments]⟩
  | cons segment rest ih =>
    have valid := newValid segment (by simp)
    have pairs := pairwise_cons.mp newApart
    have step : insertNewSegments segments (segment :: rest) =
        insertNewSegments (segments.orderedInsert StartLe segment) rest := by
      simp [insertNewSegments, valid]
    rw [step]
    obtain ⟨result, holds⟩ := ih
      (wellFormed.orderedInsert valid (cross segment (by simp))) pairs.2
      (forall_mem_cons.mp newValid).2
      (fun other member old oldMember => by
        rcases (mem_orderedInsert StartLe).mp oldMember with rfl | older
        · exact (pairs.1 other member).symm
        · exact cross other (mem_cons_of_mem _ member) old older)
    refine ⟨result, fun Property port => ?_⟩
    rw [holds, holds_orderedInsert_iff, holds_cons_iff, holds_cons_iff]
    tauto

theorem holds_filter_or_iff
    [DecidablePred condition] :
    Holds Property (segments.filter fun s => ¬ condition s) port ∨
        Holds Property (segments.filter fun s => condition s) port ↔
      Holds Property segments port := by
  simp only [Holds, mem_filter, decide_eq_true_iff]
  constructor
  · rintro (⟨segment, member, holds⟩ | ⟨segment, member, holds⟩)
    · exact ⟨segment, member.1, holds⟩
    · exact ⟨segment, member.1, holds⟩
  · rintro ⟨segment, member, holds⟩
    by_cases meets : condition segment
    · exact Or.inr ⟨segment, ⟨member, meets⟩, holds⟩
    · exact Or.inl ⟨segment, ⟨member, meets⟩, holds⟩

/-- Adding a range keeps the map well formed and gives the ports of the range
its rules. -/
theorem WellFormed.addMap (wellFormed : WellFormed segments) (range : start ≤ stop) :
    WellFormed (addMap segments start stop bitmap) ∧
      ∀ Property, Additive Property → ∀ port,
        Holds Property (addMap segments start stop bitmap) port ↔
          Holds Property segments port ∨ (start ≤ port ∧ port ≤ stop) ∧ Property bitmap := by
  have met : Separated (segments.filter fun s => Intersects start stop s) :=
    wellFormed.separated.sublist filter_sublist
  have sorted : (segments.filter fun s => Intersects start stop s).insertionSort
      StartLe = segments.filter fun s => Intersects start stop s := by
    apply List.Pairwise.insertionSort_eq
    refine met.imp_of_mem fun {s t} memberS _ before => ?_
    have valid := wellFormed.valid s (mem_of_mem_filter memberS)
    unfold SegmentBitmap.IsValid at valid
    unfold StartLe
    bv_omega
  have ready : Ready stop (segments.filter fun s => Intersects start stop s)
      start := by
    refine ⟨range, met,
      fun s member => wellFormed.valid s (mem_of_mem_filter member),
      fun s member => ?_⟩
    have meets : Intersects start stop s := of_decide_eq_true (mem_filter.mp member).2
    unfold Intersects at meets
    bv_omega
  have pieces := pieces_processIntersections bitmap ready
    (show 0#16 ≤ start by bv_omega) (fun s _ => by bv_omega)
  have cross : ∀ piece ∈ processIntersections stop bitmap
        (segments.filter fun s => Intersects start stop s) start,
      ∀ other ∈ segments.filter fun s => ¬ Intersects start stop s, Apart piece other := by
    intro piece member other otherMember port inside outside
    have otherMisses : ¬ Intersects start stop other :=
      of_decide_eq_true (mem_filter.mp otherMember).2
    have origin :=
      (holds_processIntersections_iff additive_true ready).mp ⟨piece, member, inside, trivial⟩
    rcases origin with ⟨s, met, contains, _⟩ | ⟨within, _⟩
    · have meets : Intersects start stop s := of_decide_eq_true (mem_filter.mp met).2
      have apart := wellFormed.separated.apart.forall
        (mem_of_mem_filter met)
        (mem_of_mem_filter otherMember)
        (fun same => otherMisses (same ▸ meets))
      exact apart port contains outside
    · obtain ⟨lower, upper⟩ := outside
      unfold Intersects at otherMisses
      bv_omega
  obtain ⟨result, holds⟩ := wellFormed_insertNewSegments
    ⟨wellFormed.separated.sublist filter_sublist,
      fun s member => wellFormed.valid s (mem_of_mem_filter member)⟩
    pieces.separated.apart pieces.valid cross
  rw [SegmentBitmapMap.addMap, if_neg (BitVec.not_lt.mpr range)]
  simp only [sorted]
  refine ⟨result, fun Property additive port => ?_⟩
  rw [holds, holds_processIntersections_iff additive ready, ← or_assoc, holds_filter_or_iff]

/-- What a map holds after the ranges `added`: disjoint segments that give
every port the rules of the ranges that contain it. -/
structure Represents (added segments : List SegmentBitmap) : Prop where
  wellFormed : WellFormed segments
  holds : ∀ Property, Additive Property → ∀ port,
    Holds Property segments port ↔ Holds Property added port

theorem Represents.nil : Represents [] [] := ⟨WellFormed.nil, fun _ _ _ => Iff.rfl⟩

variable {added segments : List SegmentBitmap}

theorem Represents.addMap (represents : Represents added segments) (range : SegmentBitmap) :
    Represents (added ++ [range]) (addMap segments range.start range.stop range.bitmap) := by
  by_cases valid : range.start ≤ range.stop
  · obtain ⟨wellFormed, holds⟩ := represents.wellFormed.addMap valid
    refine ⟨wellFormed, fun Property additive port => ?_⟩
    rw [holds Property additive port, represents.holds Property additive port]
    simp [SegmentBitmap.Contains]
  · -- A range that ends before it starts is not added and contains no port.
    rw [SegmentBitmapMap.addMap, if_pos (BitVec.not_le.mp valid)]
    refine ⟨represents.wellFormed, fun Property additive port => ?_⟩
    have empty : ¬ range.Contains port := fun contains =>
      valid (BitVec.le_trans contains.1 contains.2)
    rw [represents.holds Property additive port]
    simp [empty]

/-- Add a list of ranges in order. -/
def addAll (segments added : List SegmentBitmap) : List SegmentBitmap :=
  added.foldl
    (fun segments range => addMap segments range.start range.stop range.bitmap)
    segments

theorem Represents.addAll (represents : Represents added segments) (ranges : List SegmentBitmap) :
    Represents (added ++ ranges) (addAll segments ranges) := by
  induction ranges generalizing added segments with
  | nil =>
    rw [append_nil]
    exact represents
  | cons range ranges ih =>
    have next := ih (represents.addMap range)
    rw [append_assoc] at next
    exact next

theorem Represents.test_iff (represents : Represents added segments) (member : segment ∈ segments)
    (contains : segment.Contains port) :
    segment.bitmap.test n = true ↔ Holds (fun bitmap => bitmap.test n = true) added port := by
  rw [← represents.holds _ additive_test port]
  constructor
  · intro set
    exact ⟨segment, member, contains, set⟩
  · rintro ⟨other, otherMember, otherContains, set⟩
    by_cases same : segment = other
    · rw [same]
      exact set
    · have apart := represents.wellFormed.separated.apart.forall member otherMember same
      exact absurd otherContains (apart port contains)

/-! ### Runs of additions -/

variable (ranges : List SegmentBitmap)

/-- The rules of all ranges that contain a port. -/
def rulesAt (ranges : List SegmentBitmap) (port : BitVec 16) : Bitmap :=
  (ranges.filter fun range => range.Contains port).foldl
    (fun rules range => rules.or range.bitmap) Bitmap.clear

theorem test_foldl_or_iff (rules : Bitmap) :
    (ranges.foldl (fun rules range => rules.or range.bitmap) rules).test n = true ↔
      rules.test n = true ∨ ∃ range ∈ ranges, range.bitmap.test n = true := by
  induction ranges generalizing rules with
  | nil => simp
  | cons range ranges ih =>
    rw [foldl_cons, ih]
    simp [or_assoc]

theorem test_rulesAt_iff :
    (rulesAt ranges port).test n = true ↔
      Holds (fun bitmap => bitmap.test n = true) ranges port := by
  unfold rulesAt Holds
  rw [test_foldl_or_iff]
  simp [and_assoc]

theorem Represents.bitmap_eq (represents : Represents added segments) (member : segment ∈ segments)
    (contains : segment.Contains port) :
    segment.bitmap = rulesAt added port := by
  apply Bitmap.ext_test
  intro n
  rw [Bool.eq_iff_iff, represents.test_iff member contains, test_rulesAt_iff]

/-- What a map is after a list of calls: sorted by the first port, without a
common port, without an empty segment, and exact at every port. -/
structure Exact (ranges segments : List SegmentBitmap) : Prop where
  sorted : segments.Pairwise fun s t => s.start < t.start
  apart : segments.Pairwise Apart
  nonempty : ∀ segment ∈ segments, ∃ port, segment.Contains port
  rules : ∀ segment ∈ segments, ∀ port, segment.Contains port → segment.bitmap = rulesAt ranges port
  reached : ∀ port, (∃ segment ∈ segments, segment.Contains port) ↔
    ∃ range ∈ ranges, range.Contains port

/-- Every list of `AddMap` calls, with any bounds, leaves an exact map. -/
theorem exact_addAll (ranges : List SegmentBitmap) : Exact ranges (addAll [] ranges) := by
  have represents : Represents ranges (addAll [] ranges) := Represents.nil.addAll ranges
  obtain ⟨separated, valid⟩ := represents.wellFormed
  refine ⟨?_, separated.apart, fun segment member => ?_,
    fun segment member port contains => represents.bitmap_eq member contains, fun port => ?_⟩
  · refine separated.imp_of_mem fun first _ before => ?_
    have proper := valid _ first
    unfold SegmentBitmap.IsValid at proper
    bv_omega
  · exact ⟨segment.start, BitVec.le_refl _, valid segment member⟩
  · simpa [Holds] using represents.holds _ additive_true port

end SegmentBitmapMap

end NetManager.Firewall
