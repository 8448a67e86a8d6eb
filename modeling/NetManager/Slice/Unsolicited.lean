import NetManager.Library.Run
import NetManager.Slice.Robust
import NetManager.Slice.Segments

/-!
# Runs of the parser

Messages arrive one after the other, and between them the configuration may become any
other. The parser takes all messages that have none of the faults: whole ones are sound,
and two segments that come together are measured and have no version.
-/

namespace NetManager.Slice

open Wire Wp

/-! ## Messages without a version -/

theorem versionOf_eq_none {low high : UInt8} (other : low = 0 ∨ high = 2) :
    versionOf (high.toUInt16 <<< 8 ||| low.toUInt16) = none := by
  rcases other with rfl | rfl
  · have all : ∀ bits : BitVec 8,
        (versionOf ((UInt8.ofBitVec bits).toUInt16 <<< 8 ||| (0 : UInt8).toUInt16)).isNone := by
      decide +kernel
    exact Option.isNone_iff_eq_none.mp (all high.toBitVec)
  · have all : ∀ bits : BitVec 8,
        (versionOf ((2 : UInt8).toUInt16 <<< 8 ||| (UInt8.ofBitVec bits).toUInt16)).isNone := by
      decide +kernel
    exact Option.isNone_iff_eq_none.mp (all low.toBitVec)

theorem ends_decodeUrspFromUnsolData_of_no_version {buffer : Bytes}
    (other : ∀ low ∈ buffer[0]?, ∀ high ∈ buffer[1]?, low = 0 ∨ high = 2) :
    Ends (decodeUrspFromUnsolData buffer leftInMemory) { startIndex := 0, config := config }
      fun _ after => after.startIndex ≤ buffer.length := by
  unfold decodeUrspFromUnsolData
  refine ends_ite (fun _ => Nat.zero_le _) fun enough => ?_
  have two : 2 ≤ buffer.length := by
    have left := (not_or.mp enough).2
    omega
  refine ends_getShort (Nat.zero_add 2 ▸ two) fun low high isLow isHigh => ?_
  rw [if_pos rfl, versionOf_eq_none (other low isLow high isHigh)]
  exact two

/-- Zeros and then nothing or a header of two segments have no version. -/
theorem zero_or_two_of_append {rest : Bytes} (starts : ∀ second ∈ rest[1]?, second = 2) :
    ∀ low ∈ (List.replicate zeros (0 : UInt8) ++ rest)[0]?,
      ∀ high ∈ (List.replicate zeros (0 : UInt8) ++ rest)[1]?, low = 0 ∨ high = 2 := by
  intro low isLow high isHigh
  cases zeros with
  | zero => exact .inr (starts high isHigh)
  | succ zeros => exact .inl (Option.some_inj.mp isLow).symm

namespace NrUnsolicitedMsgParser

variable {uninitialised : Int32}

theorem ends_two {pti oldIndex newIndex : UInt8} (config : UrspConfig) :
    Ends (decodeUrspFromUnsolData ((firstSegment uninitialised 2 oldIndex
        (pti :: 2 :: oldIndex :: oldBody)).add newIndex
          (pti :: 2 :: newIndex :: newBody)).combinationBuffer leftInMemory)
      { startIndex := 0, config := config } fun _ _ => True := by
  refine (ends_decodeUrspFromUnsolData_of_no_version ?_).mono fun _ _ _ => trivial
  rw [combinationBuffer_two]
  refine zero_or_two_of_append fun second isSecond => ?_
  -- Whichever segments are there, the first one of them starts with its header.
  split_ifs at isSecond <;> cases isSecond <;> rfl

/-! ## Runs -/

/-- What happens to the parser. -/
inductive Event
  | receive (uninitialised : Int32) (leftInMemory : Int → Bool) (buffer : Bytes)
  | configure (config : UrspConfig)

section

variable (parser : NrUnsolicitedMsgParser)

/-- What an event does. -/
def step : Event → NrUnsolicitedMsgParser
  | .receive uninitialised leftInMemory buffer =>
    match getUrspFromUnsolData uninitialised leftInMemory buffer parser with
    | .ok (after, _) => after
    | .error _ => parser
  | .configure config => { parser with config := config }

/-- The event has no fault: nothing is read outside the vector, no size is negative, no
exception escapes and no loop is endless. -/
def Robust : Event → Prop
  | .receive uninitialised leftInMemory buffer =>
    ∃ result, getUrspFromUnsolData uninitialised leftInMemory buffer parser = .ok result
  | .configure _ => True

/-- Messages that are taken. -/
def Permitted : Event → Prop
  | .receive _ _ buffer =>
    (buffer[1]? = some 1 → Announced buffer → Sound buffer) ∧ parser.Measured buffer
  | .configure _ => True

/-- Only first segments are stored. -/
def StoresFirst : Prop := ∀ pti, parser.Stores (fun _ => True) pti

end

theorem storesFirst_start : StoresFirst {} := by
  intro pti multipleBuffer stored
  cases stored

variable {buffer : Bytes}

theorem Received.ends (received : Received uninitialised parser buffer after (some call))
    (stores : parser.StoresFirst) (sound : buffer[1]? = some 1 → Announced buffer → Sound buffer)
    (config : UrspConfig) :
    Ends (decodeUrspFromUnsolData call.buffer leftInMemory)
      { startIndex := call.startIndex, config := config } fun _ _ => True := by
  cases received with
  | whole pti segmentIndex body =>
    have long : 3 ≤ (pti :: 1 :: segmentIndex :: body).length := Nat.le_add_left 3 body.length
    exact (ends_decodeUrspFromUnsolData (sound rfl) long).mono fun _ _ _ => trivial
  | last stored positive inside new complete =>
    obtain ⟨before, segmentNum, oldIndex, oldBody, -, rfl⟩ := stores _ _ stored
    obtain rfl := segmentNum_eq_two complete
    exact ends_two config

variable {parser : NrUnsolicitedMsgParser}

/-- A message that is taken has no fault, and first segments stay the only ones. -/
theorem exists_getUrspFromUnsolData (stores : parser.StoresFirst)
    (sound : buffer[1]? = some 1 → Announced buffer → Sound buffer)
    (measured : parser.Measured buffer) :
    ∃ after decoded, getUrspFromUnsolData uninitialised leftInMemory buffer parser =
      .ok (after, decoded) ∧ after.StoresFirst := by
  rcases receive_cases uninitialised buffer with
    ⟨between, call, isReceived, received⟩ | ⟨-, unmeasured⟩
  · have storesBetween : between.StoresFirst := fun pti =>
      received.stores (stores pti) fun _ => trivial
    unfold getUrspFromUnsolData
    rw [isReceived]
    cases call with
    | none => exact ⟨between, none, rfl, storesBetween⟩
    | some call =>
      obtain ⟨decoded, cursor, isDecoded, -⟩ :=
        (received.ends stores sound between.config).exists_ok
      dsimp only [bind, Except.bind]
      rw [isDecoded]
      exact ⟨_, _, rfl, storesBetween⟩
  · exact absurd measured unmeasured

theorem StoresFirst.after_step (stores : parser.StoresFirst) (permitted : parser.Permitted event) :
    (parser.step event).StoresFirst := by
  cases event with
  | receive uninitialised leftInMemory buffer =>
    obtain ⟨after, decoded, is, storesAfter⟩ :=
      exists_getUrspFromUnsolData stores permitted.1 permitted.2
    dsimp only [step]
    rw [is]
    exact storesAfter
  | configure config => exact stores

/-- In every state that messages without the faults lead to, such a message has no fault. -/
theorem robust_of_reach {parser : NrUnsolicitedMsgParser}
    (reach : Run.Reach step Permitted {} parser) {event : Event}
    (permitted : parser.Permitted event) :
    parser.Robust event := by
  have stores : parser.StoresFirst :=
    reach.invariant storesFirst_start fun _ _ stores => stores.after_step
  cases event with
  | receive uninitialised leftInMemory buffer =>
    obtain ⟨after, decoded, is, -⟩ :=
      exists_getUrspFromUnsolData stores permitted.1 permitted.2
    exact ⟨_, is⟩
  | configure config => trivial

instance decidablePermitted (parser : NrUnsolicitedMsgParser) :
    (event : Event) → Decidable (parser.Permitted event)
  | .receive _ _ _ => inferInstanceAs (Decidable (_ ∧ _))
  | .configure _ => isTrue trivial

/-- A segment of two waits, and a message with one rule for all applications comes. -/
theorem robust_matchAll :
    Robust ([Event.receive 5 (fun _ => true) [7, 2, 1, 1]].foldl step {})
      (.receive 0 (fun _ => true) [1, 1, 1, 0xE6, 5, 9, 1, 0, 27, 0, 25, 0x64, 0xF0, 0, 0, 20, 0, 9, 0, 16, 1, 0, 13,
        3, 0, 1, 1, 0, 7, 0, 5, 1, 0, 2, 1, 1]) :=
  robust_of_reach (Run.Reach.start.foldl [.receive 5 (fun _ => true) [7, 2, 1, 1]] (by decide +kernel))
    (by decide +kernel)

/-- `std::stoi` does not read the number of a network that starts with the byte `0xA0`. -/
theorem not_robust :
    ¬ ∀ (parser : NrUnsolicitedMsgParser) (event : Event),
      Run.Reach step (fun _ _ => True) {} parser → parser.Robust event := by
  intro robust
  obtain ⟨result, is⟩ :=
    robust {} (.receive 0 (fun _ => true) [1, 1, 1, 0xE6, 5, 9, 1, 0, 5, 0, 3, 0xA0, 0, 0]) .start
  have fails : (getUrspFromUnsolData 0 (fun _ => true) [1, 1, 1, 0xE6, 5, 9, 1, 0, 5, 0, 3, 0xA0, 0, 0]
      {}).isOk = false := by
    decide +kernel
  rw [is] at fails
  cases fails

end NrUnsolicitedMsgParser

end NetManager.Slice
