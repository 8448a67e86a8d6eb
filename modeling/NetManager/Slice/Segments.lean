import NetManager.Slice.MsgParser

/-!
# Segments of messages

A message that has come in segments is kept with its first segment only, since the copy
to which others are put is not stored. So two segments are the most that come together,
and what is decoded then has the headers of both in it.
-/

namespace NetManager.Slice

open List Wire Wp

/-- What is stored for the first segment. -/
def firstSegment (uninitialised : Int32) (segmentNum segmentIndex : UInt8) (buffer : Bytes) :
    MultipleBuffer :=
  MultipleBuffer.add ⟨segmentNum, uninitialised, ∅⟩ segmentIndex buffer

namespace NrUnsolicitedMsgParser

variable {uninitialised : Int32} {buffer : Bytes} {parser after : NrUnsolicitedMsgParser}

/-- What is stored for a PTI is the first segment of a message, which meets a condition. -/
def Stores (parser : NrUnsolicitedMsgParser) (condition : Bytes → Prop) (pti : UInt8) : Prop :=
  ∀ multipleBuffer, parser.multipleBufferMap[pti]? = some multipleBuffer →
    ∃ uninitialised segmentNum segmentIndex body,
      condition (pti :: segmentNum :: segmentIndex :: body) ∧
        multipleBuffer = firstSegment uninitialised segmentNum segmentIndex
          (pti :: segmentNum :: segmentIndex :: body)

/-- What a segment can do: nothing, be a whole message, be stored as the first one, or be
the second one that completes a message of two. -/
inductive Received (uninitialised : Int32) (parser : NrUnsolicitedMsgParser) :
    Bytes → NrUnsolicitedMsgParser → Option Call → Prop
  | ignored (buffer : Bytes) : Received uninitialised parser buffer parser none
  | whole (pti segmentIndex : UInt8) (body : Bytes) :
      Received uninitialised parser (pti :: 1 :: segmentIndex :: body) parser
        (some ⟨pti, 3, pti :: 1 :: segmentIndex :: body⟩)
  | first
      {pti : UInt8}
      (segmentNum segmentIndex : UInt8)
      (body : Bytes)
      (new : parser.multipleBufferMap[pti]? = none) :
      Received uninitialised parser (pti :: segmentNum :: segmentIndex :: body)
        { parser with
          multipleBufferMap := parser.multipleBufferMap.insert pti
            (firstSegment uninitialised segmentNum segmentIndex
              (pti :: segmentNum :: segmentIndex :: body)) }
        none
  | last
      {pti segmentIndex : UInt8}
      {body : Bytes}
      {multipleBuffer : MultipleBuffer}
      (stored : parser.multipleBufferMap[pti]? = some multipleBuffer)
      (positive : 0 < segmentIndex)
      (inside : segmentIndex ≤ multipleBuffer.segmentNum)
      (new : multipleBuffer.bufferSegmentMap.contains segmentIndex = false)
      (complete : multipleBuffer.bufferSegmentMap.size + 1 = multipleBuffer.segmentNum.toNat) :
      Received uninitialised parser (pti :: multipleBuffer.segmentNum :: segmentIndex :: body)
        { parser with multipleBufferMap := parser.multipleBufferMap.erase pti }
        (some ⟨pti, 0, (multipleBuffer.add segmentIndex
          (pti :: multipleBuffer.segmentNum :: segmentIndex :: body)).combinationBuffer⟩)

/-- The total length that the last segment brings a stored message to is not negative. -/
def Measured (parser : NrUnsolicitedMsgParser) (buffer : Bytes) : Prop :=
  ∀ pti ∈ buffer.head?, ∀ multipleBuffer ∈ parser.multipleBufferMap[pti]?,
    multipleBuffer.bufferSegmentMap.size + 1 = multipleBuffer.segmentNum.toNat →
      0 ≤ multipleBuffer.totalBufferLen + Int32.ofNat (buffer.length - 3)
deriving Decidable

theorem receive_cases (uninitialised : Int32) (buffer : Bytes) :
    (∃ after call, receive uninitialised buffer parser = .ok (after, call) ∧
        Received uninitialised parser buffer after call) ∨
      (receive uninitialised buffer parser = .error .negativeSize ∧ ¬ Measured parser buffer) := by
  match buffer with
  | [] => exact .inl ⟨_, _, rfl, .ignored _⟩
  | [_] => exact .inl ⟨_, _, rfl, .ignored _⟩
  | [_, _] => exact .inl ⟨_, _, rfl, .ignored _⟩
  | pti :: segmentNum :: segmentIndex :: body =>
    unfold receive
    dsimp only
    split
    · exact .inl ⟨_, _, rfl, .ignored _⟩
    · split
      next one =>
        subst one
        exact .inl ⟨_, _, rfl, .whole ..⟩
      · unfold addSegment
        cases stored : parser.multipleBufferMap[pti]? with
        | none => exact .inl ⟨_, _, rfl, .first _ _ _ stored⟩
        | some multipleBuffer =>
          dsimp only
          split
          · exact .inl ⟨_, _, rfl, .ignored _⟩
          next valid =>
            split
            · exact .inl ⟨_, _, rfl, .ignored _⟩
            next new =>
              split
              case isFalse => exact .inl ⟨_, _, rfl, .ignored _⟩
              case isTrue complete =>
                obtain ⟨same, inside⟩ := not_or.mp valid
                obtain ⟨inside, positive⟩ := not_or.mp inside
                obtain rfl := not_not.mp same
                rw [MultipleBuffer.add, Std.ExtTreeMap.size_insert, if_neg new] at complete
                split
                next negative =>
                  refine .inr ⟨rfl, fun measured => ?_⟩
                  exact Int32.not_lt.mpr (measured pti rfl multipleBuffer stored complete) negative
                · have isNew := eq_false_of_ne_true new
                  exact .inl ⟨_, _, rfl, .last stored (UInt8.not_le.mp positive)
                    (UInt8.not_lt.mp inside) isNew complete⟩

theorem received_of_receive (ok : receive uninitialised buffer parser = .ok (after, call)) :
    Received uninitialised parser buffer after call := by
  rcases receive_cases uninitialised buffer with ⟨_, _, is, received⟩ | ⟨is, _⟩
  · obtain ⟨rfl, rfl⟩ := Prod.mk.inj (Except.ok.inj (ok.symm.trans is))
    exact received
  · cases ok.symm.trans is

theorem Received.stores (received : Received uninitialised parser buffer after call)
    (stores : parser.Stores condition pti) (holds : buffer.head? = some pti → condition buffer) :
    after.Stores condition pti := by
  cases received with
  | ignored => exact stores
  | whole => exact stores
  | @first other segmentNum segmentIndex body new =>
    intro multipleBuffer is
    rw [Std.ExtTreeMap.getElem?_insert] at is
    split at is
    next same =>
      obtain rfl := Std.LawfulEqCmp.eq_of_compare same
      obtain rfl := Option.some_inj.mp is
      exact ⟨_, _, _, _, holds rfl, rfl⟩
    · exact stores multipleBuffer is
  | last stored =>
    intro multipleBuffer is
    dsimp only at is
    rw [Std.ExtTreeMap.getElem?_erase] at is
    split at is
    · cases is
    · exact stores multipleBuffer is

end NrUnsolicitedMsgParser

/-! ## Two segments -/

section Two

theorem segmentNum_eq_two
    (complete : (firstSegment uninitialised segmentNum oldIndex old).bufferSegmentMap.size + 1 =
      segmentNum.toNat) :
    segmentNum = 2 := by
  unfold firstSegment MultipleBuffer.add at complete
  exact UInt8.toNat_inj.mp complete.symm

theorem getD_two :
    ((firstSegment uninitialised segmentNum oldIndex old).add newIndex
        new).bufferSegmentMap.getD index [] =
      if newIndex = index then new else if oldIndex = index then old else [] := by
  unfold firstSegment MultipleBuffer.add
  rw [Std.ExtTreeMap.getD_insert, Std.ExtTreeMap.getD_insert, Std.ExtTreeMap.getD_empty]
  simp

theorem combinationBuffer_two :
    ((firstSegment uninitialised 2 oldIndex old).add newIndex new).combinationBuffer =
      List.replicate ((firstSegment uninitialised 2 oldIndex old).add newIndex
          new).totalBufferLen.toInt.toNat 0 ++
        ((if newIndex = 1 then new else if oldIndex = 1 then old else []) ++
          if newIndex = 2 then new else if oldIndex = 2 then old else []) := by
  rw [← getD_two, ← getD_two]
  change _ ++ (_ ++ (_ ++ [])) = _
  rw [append_nil]
  rfl

end Two

/-! ## Messages in segments -/

namespace NrUnsolicitedMsgParser

/-- A vector that arrives, and what a new `totalBufferLen` holds then. -/
structure Delivery where
  /-- What a new `totalBufferLen` holds. -/
  uninitialised : Int32
  buffer : Bytes

/-- Vectors arrive, and `DecodeUrspFromUnsolData` is called. -/
def run : List Delivery → NrUnsolicitedMsgParser → Except Fault (NrUnsolicitedMsgParser × List Call)
  | [], parser => return (parser, [])
  | delivery :: deliveries, parser => do
      let (parser, call) ← receive delivery.uninitialised delivery.buffer parser
      let (parser, calls) ← run deliveries parser
      return (parser, call.toList ++ calls)

/-- The segments of a message. -/
def segmentsOf (pti : UInt8) (bodies : List Bytes) : List Bytes :=
  bodies.mapIdx fun index body => pti :: .ofNat bodies.length :: .ofNat (index + 1) :: body

/-- Among the vectors are the segments of a message, in any order, and else only vectors
of other PTIs. -/
def Delivered (pti : UInt8) (bodies : List Bytes) (deliveries : List Delivery) : Prop :=
  ((deliveries.map (·.buffer)).filter (·.head? = some pti)).Perm (segmentsOf pti bodies)

/-- The message is decoded once, as its bodies one behind the other, and nothing of it is
left. -/
def Reassembled (parser : NrUnsolicitedMsgParser) (pti : UInt8) (bodies : List Bytes)
    (deliveries : List Delivery) : Prop :=
  ∃ after calls, run deliveries parser = .ok (after, calls) ∧
    (calls.filter (·.pti = pti)).map (fun call => call.buffer.drop call.startIndex) =
      [bodies.flatten] ∧
    after.multipleBufferMap[pti]? = none

/-- How a call comes about: by a whole message, or by two segments. -/
inductive Made (condition : Bytes → Prop) : Call → Prop
  | whole {pti segmentIndex : UInt8} {body : Bytes}
      (holds : condition (pti :: 1 :: segmentIndex :: body)) :
      Made condition ⟨pti, 3, pti :: 1 :: segmentIndex :: body⟩
  | two {pti oldIndex newIndex : UInt8} {oldBody newBody : Bytes}
      (uninitialised : Int32)
      (differ : oldIndex ≠ newIndex)
      (oldHolds : condition (pti :: 2 :: oldIndex :: oldBody))
      (newHolds : condition (pti :: 2 :: newIndex :: newBody)) :
      Made condition ⟨pti, 0, ((firstSegment uninitialised 2 oldIndex
        (pti :: 2 :: oldIndex :: oldBody)).add newIndex
          (pti :: 2 :: newIndex :: newBody)).combinationBuffer⟩

variable {parser after : NrUnsolicitedMsgParser} {pti : UInt8} {call : Call}

theorem Received.made (received : Received uninitialised parser buffer after (some call))
    (same : call.pti = pti) (stores : parser.Stores condition pti)
    (holds : buffer.head? = some pti → condition buffer) :
    Made condition call := by
  cases received with
  | whole =>
    subst same
    exact .whole (holds rfl)
  | last stored positive inside new complete =>
    dsimp only at same
    subst same
    obtain ⟨before, segmentNum, oldIndex, oldBody, oldHolds, rfl⟩ := stores _ stored
    obtain rfl := segmentNum_eq_two complete
    refine .two before ?_ oldHolds (holds rfl)
    rintro rfl
    exact Bool.false_ne_true (new.symm.trans Std.ExtTreeMap.contains_insert_self)

variable {deliveries : List Delivery} {calls : List Call}

theorem run_cons (ran : run (delivery :: deliveries) parser = .ok (after, calls)) :
    ∃ between call later, Received delivery.uninitialised parser delivery.buffer between call ∧
        run deliveries between = .ok (after, later) ∧ calls = call.toList ++ later := by
  obtain ⟨⟨between, call⟩, isReceived, ran⟩ := bind_eq_ok ran
  obtain ⟨⟨last, later⟩, isLater, ran⟩ := bind_eq_ok ran
  obtain ⟨rfl, rfl⟩ := Prod.mk.inj (Except.ok.inj ran)
  exact ⟨between, call, later, received_of_receive isReceived, isLater, rfl⟩

theorem made_of_run (stores : parser.Stores condition pti)
    (holds : ∀ delivery ∈ deliveries, delivery.buffer.head? = some pti → condition delivery.buffer)
    (ran : run deliveries parser = .ok (after, calls)) :
    ∀ call ∈ calls, call.pti = pti → Made condition call := by
  induction deliveries generalizing parser calls with
  | nil =>
    obtain ⟨-, rfl⟩ := Prod.mk.inj (Except.ok.inj ran)
    exact nofun
  | cons delivery deliveries ih =>
    obtain ⟨headHolds, tailHolds⟩ := forall_mem_cons.mp holds
    obtain ⟨between, made, later, received, ranLater, rfl⟩ := run_cons ran
    intro call member same
    rcases mem_append.mp member with here | there
    · obtain rfl := Option.mem_toList.mp here
      exact received.made same stores headHolds
    · exact ih (received.stores stores headHolds) tailHolds ranLater call there same

/-! ## No message in segments is put together -/

variable {bodies : List Bytes}

theorem toNat_of_mem_segmentsOf {rest : Bytes} (bounded : bodies.length ≤ 255)
    (member : other :: segmentNum :: rest ∈ segmentsOf pti bodies) :
    segmentNum.toNat = bodies.length := by
  obtain ⟨index, inside, is⟩ := mem_mapIdx.mp member
  obtain ⟨-, is⟩ := List.cons.inj is
  obtain ⟨rfl, -⟩ := List.cons.inj is
  exact UInt8.toNat_ofNat_of_lt' (Nat.lt_succ_of_le bounded)

theorem mem_segmentsOf_two
    (member : other :: 2 :: segmentIndex :: body ∈ segmentsOf pti [first, second]) :
    (segmentIndex = 1 ∧ body = first) ∨ (segmentIndex = 2 ∧ body = second) := by
  rcases mem_cons.mp member with is | member
  · cases is
    exact .inl ⟨rfl, rfl⟩
  · cases mem_singleton.mp member
    exact .inr ⟨rfl, rfl⟩

theorem Made.length_flatten_lt (several : 2 ≤ bodies.length)
    (bounded : bodies.length ≤ 255) (made : Made (· ∈ segmentsOf pti bodies) call) :
    bodies.flatten.length < (call.buffer.drop call.startIndex).length := by
  cases made with
  | whole holds =>
    have one : 1 = bodies.length := toNat_of_mem_segmentsOf bounded holds
    omega
  | two uninitialised differ oldHolds newHolds =>
    have two : 2 = bodies.length := toNat_of_mem_segmentsOf bounded oldHolds
    obtain ⟨first, second, rfl⟩ := length_eq_two.mp two.symm
    rw [combinationBuffer_two, drop_zero]
    rcases mem_segmentsOf_two oldHolds with ⟨rfl, rfl⟩ | ⟨rfl, rfl⟩ <;>
      rcases mem_segmentsOf_two newHolds with ⟨rfl, rfl⟩ | ⟨rfl, rfl⟩
    · exact absurd rfl differ
    · simp
      omega
    · simp
      omega
    · exact absurd rfl differ

/-- A message in segments is not put together. -/
theorem not_reassembled {parser : NrUnsolicitedMsgParser} {pti : UInt8} {bodies : List Bytes}
    {deliveries : List Delivery} (several : 2 ≤ bodies.length) (bounded : bodies.length ≤ 255)
    (none : parser.multipleBufferMap[pti]? = none) (delivered : Delivered pti bodies deliveries) :
    ¬ Reassembled parser pti bodies deliveries := by
  rintro ⟨after, calls, ran, whole, -⟩
  have stores : parser.Stores (· ∈ segmentsOf pti bodies) pti := by
    intro multipleBuffer stored
    cases none.symm.trans stored
  have made := made_of_run stores (fun delivery member starts => by
    refine delivered.mem_iff.mp (mem_filter.mpr ⟨?_, decide_eq_true starts⟩)
    exact mem_map.mpr ⟨delivery, member, rfl⟩) ran
  obtain ⟨call, isCalls, isBuffer⟩ := map_eq_singleton_iff.mp whole
  have member : call ∈ calls.filter (·.pti = pti) := isCalls ▸ mem_singleton.mpr rfl
  obtain ⟨inCalls, same⟩ := mem_filter.mp member
  have longer := (made call inCalls (of_decide_eq_true same)).length_flatten_lt several bounded
  rw [isBuffer] at longer
  exact Nat.lt_irrefl _ longer

/-- The second of two segments comes first, and a segment of another message between. -/
theorem not_reassembled_backwards :
    ¬ Reassembled {} 7 [[1], [2]] [⟨0, [7, 2, 2, 2]⟩, ⟨0, [8, 2, 1, 3]⟩, ⟨0, [7, 2, 1, 1]⟩] :=
  not_reassembled (by decide) (by decide) (by decide) (by unfold Delivered; decide)

/-- Of three segments, the second and the third are forgotten. -/
theorem forgets_segments :
    ¬ ∀ (parser : NrUnsolicitedMsgParser) (pti : UInt8) (bodies : List Bytes)
        (deliveries : List Delivery),
      2 ≤ bodies.length → bodies.length ≤ 255 → parser.multipleBufferMap[pti]? = none →
        Delivered pti bodies deliveries → Reassembled parser pti bodies deliveries := by
  intro reassembles
  obtain ⟨after, calls, ran, whole, -⟩ := reassembles {} 7 [[1], [2], [3]]
    [⟨0, [7, 3, 1, 1]⟩, ⟨0, [7, 3, 2, 2]⟩, ⟨0, [7, 3, 3, 3]⟩] (by decide) (by decide) (by decide)
    (.refl _)
  have noCalls : ((run [⟨0, [7, 3, 1, 1]⟩, ⟨0, [7, 3, 2, 2]⟩, ⟨0, [7, 3, 3, 3]⟩]
      {}).toOption.map (·.2)) = some [] := by
    decide +kernel
  rw [ran] at noCalls
  obtain rfl : calls = [] := Option.some_inj.mp noCalls
  cases whole

end NrUnsolicitedMsgParser

end NetManager.Slice
