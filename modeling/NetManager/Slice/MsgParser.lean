import NetManager.Slice.UrspConfig
import Std.Data.ExtTreeMap

/-!
# Messages of the modem

`NrUnsolicitedMsgParser::GetUrspFromUnsolData`: segments of messages are put together,
and policy sections are decoded.
-/

namespace NetManager.Slice

open Wire

structure PolicyInstruction where
  hasUrspType : Bool := false
  urspRules : List UrspRule := []

structure UePolicy where
  plmn : Bytes
  instructionOrderMap : Std.ExtTreeMap Nat UInt16 := ∅
  policyInstructionMap : Std.ExtTreeMap UInt16 PolicyInstruction := ∅

/-- Policies of networks. -/
abbrev UePolicyMap := Std.ExtTreeMap Bytes UePolicy

/-! ## Numbers of networks -/

/-- `std::stoi` of the digits that a text begins with. -/
def stoi (text : Bytes) : Except Fault Nat :=
  let digits := text.takeWhile fun byte => 48 ≤ byte ∧ byte ≤ 57
  if digits = [] then throw .invalidArgument
  else return digits.foldl (fun value byte => value * 10 + (byte.toNat - 48)) 0

/-- `std::to_string` of a digit. -/
def digitToString (digit : Nat) : UInt8 := .ofNat (48 + digit)

def plmnToString (first second third : UInt8) : Except Fault Bytes := do
  let firstByte ← stoi (byteToHexStr first)
  let secondText := byteToHexStr second
  let isThreeDigitsForMnc := secondText.head? ≠ some 102
  let secondByte ← stoi (if isThreeDigitsForMnc then secondText else 48 :: secondText.drop 1)
  let thirdByte ← stoi (byteToHexStr third)
  let plmn := [digitToString (firstByte % 10), digitToString (firstByte / 10),
    digitToString (secondByte % 10), digitToString (thirdByte % 10),
    digitToString (thirdByte / 10)]
  return if isThreeDigitsForMnc then plmn ++ [digitToString (secondByte / 10)] else plmn

section Buffer

variable (buffer : Bytes)

/-! ## Policy sections -/

/-- A loop over items with their lengths in front, which together have `len` bytes. -/
def decodeItems {δ : Type} (item : Nat → δ → Decode (Bool × δ)) (len : Nat) (result : δ) :
    Decode (Bool × δ) :=
  if 0 < len then do
    let left ← remaining buffer
    if left < 2 then return (false, result)
    else
      let subLen ← getLength buffer
      let left ← remaining buffer
      if left < subLen ∨ len < 2 + subLen then return (false, result)
      else
        let (decoded, result) ← item subLen result
        if decoded then decodeItems item (len - (2 + subLen)) result
        else return (false, result)
  else return (true, result)
  termination_by len
  decreasing_by omega

variable (leftInMemory : Int → Bool) (inputLen : Nat)

def decodeUePolicyPart (policyInstruction : PolicyInstruction) :
    Decode (Bool × PolicyInstruction) := do
  if inputLen < 1 then return (false, policyInstruction)
  else
    let uePolicyType ← next buffer
    if uePolicyType &&& 0x0F ≠ 1 then
      skip buffer (inputLen - 1 : Nat)
      return (true, policyInstruction)
    else
      let (decoded, urspRules) ← decodeUrspRules buffer (inputLen - 1) policyInstruction.urspRules
      return (decoded, { hasUrspType := true, urspRules })

/-- `DecodeInstruction`, with the order of the instruction. Where the UPSC is new, nothing sets
`hasUrspType` of the local `PolicyInstruction`: it holds what is left in memory, in this call
that starts with so many bytes to go. -/
def decodeInstruction (ordered : Nat × UePolicy) : Decode (Bool × Nat × UePolicy) := do
  let instructionOrder := ordered.1 + 1
  let uePolicy := ordered.2
  if inputLen < 2 then return (false, instructionOrder, uePolicy)
  else
    let left ← remaining buffer
    let upsc ← getShort buffer false
    let known := uePolicy.policyInstructionMap.contains upsc
    let uePolicy :=
      if known then uePolicy
      else { uePolicy with
        policyInstructionMap := uePolicy.policyInstructionMap.insert upsc {} }
    let (decoded, policyInstruction) ← decodeItems buffer (decodeUePolicyPart buffer)
      (inputLen - 2) { hasUrspType := !known && leftInMemory left }
    if decoded then
      return (true, instructionOrder, { uePolicy with
        policyInstructionMap := uePolicy.policyInstructionMap.insert upsc policyInstruction
        instructionOrderMap :=
          if policyInstruction.hasUrspType then
            uePolicy.instructionOrderMap.insert instructionOrder upsc
          else uePolicy.instructionOrderMap })
    else return (false, instructionOrder, uePolicy)

def decodePolicySection (decodeUePolicyMap : UePolicyMap) : Decode (Bool × UePolicyMap) := do
  if inputLen < 3 then return (false, decodeUePolicyMap)
  else
    let first ← next buffer
    let second ← next buffer
    let third ← next buffer
    let plmn ← plmnToString first second third
    let uePolicy := decodeUePolicyMap.getD plmn { plmn := [first, second, third] }
    let (decoded, _, uePolicy) ← decodeItems buffer (decodeInstruction buffer leftInMemory)
      (inputLen - 3) (0, uePolicy)
    if decoded then
      let decodeUePolicyMap := decodeUePolicyMap.insertIfNew plmn uePolicy
      return (true,
        if uePolicy.policyInstructionMap.isEmpty then decodeUePolicyMap.erase plmn
        else decodeUePolicyMap)
    else return (false, decodeUePolicyMap)

def decodePolicySectionList (inputLen : Int) (decodeUePolicyMap : UePolicyMap) :
    Decode (Bool × UePolicyMap) := do
  let subLen ← getLength buffer
  if subLen ≠ inputLen - 2 then return (false, decodeUePolicyMap)
  else decodeItems buffer (decodePolicySection buffer leftInMemory) subLen decodeUePolicyMap

/-- The versions. -/
def versionOf (version : UInt16) : Option Version :=
  if version = 1510 then some .v1510
  else if version = 1520 then some .v1520
  else none

/-- `DecodeUrspFromUnsolData` up to `HandleDecodeResult`, which gets what is returned. -/
def decodeUrspFromUnsolData : Decode (Option (UInt8 × UePolicyMap)) := do
  let inputLen ← remaining buffer
  if buffer = [] ∨ inputLen < 2 then return none
  else
    let version ← getShort buffer true
    match versionOf version with
    | none => return none
    | some version =>
      setUrspVersion version
      if inputLen - 2 < 4 then return none
      else
        let pti ← next buffer
        let type ← next buffer
        if type ≠ 1 then return none
        else
          let (decoded, decodeUePolicyMap) ←
            decodePolicySectionList buffer leftInMemory (inputLen - 4) ∅
          return if decoded then some (pti, decodeUePolicyMap) else none

end Buffer

/-! ## Segments -/

structure MultipleBuffer where
  segmentNum : UInt8
  totalBufferLen : Int32
  bufferSegmentMap : Std.ExtTreeMap UInt8 Bytes

structure NrUnsolicitedMsgParser where
  multipleBufferMap : Std.ExtTreeMap UInt8 MultipleBuffer := ∅
  config : UrspConfig := {}

/-- `combinationBuffer`: it has its size when the segments are put behind it. -/
def MultipleBuffer.combinationBuffer (multipleBuffer : MultipleBuffer) : Bytes :=
  List.replicate multipleBuffer.totalBufferLen.toInt.toNat 0 ++
    (List.range multipleBuffer.segmentNum.toNat).flatMap fun index =>
      multipleBuffer.bufferSegmentMap.getD (.ofNat (index + 1)) []

/-- A segment is put to others. -/
def MultipleBuffer.add (multipleBuffer : MultipleBuffer) (segmentIndex : UInt8) (buffer : Bytes) :
    MultipleBuffer :=
  { multipleBuffer with
    bufferSegmentMap := multipleBuffer.bufferSegmentMap.insert segmentIndex buffer
    totalBufferLen := multipleBuffer.totalBufferLen + Int32.ofNat (buffer.length - 3) }

namespace NrUnsolicitedMsgParser

/-- A call of `DecodeUrspFromUnsolData`, with the PTI of the segment. -/
structure Call where
  pti : UInt8
  startIndex : Nat
  buffer : Bytes
  deriving DecidableEq

variable (uninitialised : Int32) (leftInMemory : Int → Bool)

/-- A segment of several. `uninitialised` is what a new `totalBufferLen` holds. -/
def addSegment (pti segmentNum segmentIndex : UInt8) (buffer : Bytes)
    (parser : NrUnsolicitedMsgParser) : Except Fault (NrUnsolicitedMsgParser × Option Call) :=
  match parser.multipleBufferMap[pti]? with
  | none =>
    let multipleBuffer : MultipleBuffer := ⟨segmentNum, uninitialised, ∅⟩
    return ({ parser with
      multipleBufferMap :=
        parser.multipleBufferMap.insert pti (multipleBuffer.add segmentIndex buffer) }, none)
  | some multipleBuffer =>
    if segmentNum ≠ multipleBuffer.segmentNum ∨ segmentIndex > segmentNum ∨ segmentIndex ≤ 0 then
      return (parser, none)
    else if multipleBuffer.bufferSegmentMap.contains segmentIndex then return (parser, none)
    else
      let multipleBuffer := multipleBuffer.add segmentIndex buffer
      if multipleBuffer.bufferSegmentMap.size = segmentNum.toNat then
        if multipleBuffer.totalBufferLen < 0 then throw .negativeSize
        else
          return ({ parser with multipleBufferMap := parser.multipleBufferMap.erase pti },
            some ⟨pti, 0, multipleBuffer.combinationBuffer⟩)
      else return (parser, none)

/-- `GetUrspFromUnsolData` up to the call of `DecodeUrspFromUnsolData`. -/
def receive (buffer : Bytes) (parser : NrUnsolicitedMsgParser) :
    Except Fault (NrUnsolicitedMsgParser × Option Call) :=
  match buffer with
  | pti :: segmentNum :: segmentIndex :: _ =>
    if segmentNum < 1 then return (parser, none)
    else if segmentNum = 1 then return (parser, some ⟨pti, 3, buffer⟩)
    else addSegment uninitialised pti segmentNum segmentIndex buffer parser
  | _ => return (parser, none)

/-- `GetUrspFromUnsolData`, with what `HandleDecodeResult` gets. -/
def getUrspFromUnsolData (buffer : Bytes) (parser : NrUnsolicitedMsgParser) :
    Except Fault (NrUnsolicitedMsgParser × Option (UInt8 × UePolicyMap)) := do
  let (parser, call) ← receive uninitialised buffer parser
  match call with
  | none => return (parser, none)
  | some call =>
    let (decoded, cursor) ← decodeUrspFromUnsolData call.buffer leftInMemory
      { startIndex := call.startIndex, config := parser.config }
    return ({ parser with config := cursor.config }, decoded)

end NrUnsolicitedMsgParser

end NetManager.Slice
