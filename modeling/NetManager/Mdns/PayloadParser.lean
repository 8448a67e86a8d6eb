import NetManager.Mdns.Message

/-!
# The parser of packets

`MDnsPayloadParser::FromBytes` and `ToBytes`. Pointers into the payload are offsets, which
may lie behind its end; to read there has no result.
-/

namespace NetManager.Mdns.MDnsPayloadParser

open List Wire

/-! ## Parsing -/

abbrev ErrorFlags := BitVec 32

def parseError : ErrorFlags := 0xffff

def parseErrorBadSize : ErrorFlags := 0x1

def parseErrorBadStr : ErrorFlags := 0x2

def parseErrorBadStrptr : ErrorFlags := 0x4

def parseWarningBadRrtype : ErrorFlags := 0x80000000

def getError (errorFlags : ErrorFlags) : ErrorFlags := errorFlags &&& parseError

/-- Where the parser stands. -/
structure Cursor where
  begin : Nat := 0
  errorFlags : ErrorFlags := 0
  /-- The positions of the names that were parsed, which the source does not keep. -/
  names : List Nat := []

variable (cursor : Cursor)

/-- `(errorFlags_ & PARSE_ERROR) != PARSE_OK`. -/
def Cursor.failed : Bool := getError cursor.errorFlags ≠ 0

/-- `errorFlags_ |= flag`. -/
def Cursor.raise (flag : ErrorFlags) : Cursor :=
  { cursor with errorFlags := cursor.errorFlags ||| flag }

/-- Move on. -/
def Cursor.advance (count : Nat) : Cursor := { cursor with begin := cursor.begin + count }

variable (payload : Bytes)

def readNUint16 (pos : Nat) : Option UInt16 := (readNumber payload pos 2).map UInt16.ofNat

def readNUint32 (pos : Nat) : Option UInt32 := (readNumber payload pos 4).map UInt32.ofNat

def unDotted (name : Bytes) : Bytes :=
  if name.getLast? = some mdnsDomainSpliter then name.dropLast else name

/-- A byte with `DNS_STR_PTR_U8_MASK`. -/
def isPointer (byte : UInt8) : Bool := byte &&& 0xc0 = 0xc0

/-- `offset & ~DNS_STR_PTR_U16_MASK`. -/
def target (offset : UInt16) : Nat := (offset &&& ~~~0xc000).toNat

/-- `ParseDnsString`, whose loop is at `p`: the position behind the name, the labels with
a dot behind each, and the flags. -/
def parseDnsString (payload : Bytes) (begin p : Nat) (str : Bytes) (errorFlags : ErrorFlags) :
    Option (Nat × Bytes × ErrorFlags) :=
  if p < payload.length then
    match payload[p]? with
    | none => none
    | some byte =>
      if byte = 0 then some (p + 1, str, errorFlags)
      else if byte.toNat ≤ mdnsMaxDomainLabel ∧ p + byte.toNat < payload.length then
        match read payload (p + 1) byte.toNat with
        | none => none
        | some label =>
          parseDnsString payload begin (p + byte.toNat + 1)
            (str ++ label ++ [mdnsDomainSpliter]) errorFlags
      else if isPointer byte then
        if payload.length - p < 2 then some (begin, str, errorFlags ||| parseErrorBadSize)
        else
          match readNUint16 payload p with
          | none => none
          | some offset =>
            if payload.length ≤ target offset ∨ begin ≤ target offset then
              some (begin, str, errorFlags ||| parseErrorBadStrptr)
            else
              match parseDnsString payload (target offset) (target offset) str errorFlags with
              | none => none
              | some (_, str, errorFlags) =>
                if getError errorFlags ≠ 0 then some (begin, str, errorFlags)
                else some (p + 2, str, errorFlags)
      else some (p, str, errorFlags ||| parseErrorBadStr)
  else some (p, str, errorFlags)
termination_by begin * (payload.length + 1) + (payload.length - p)
decreasing_by
  · omega
  · have := Nat.mul_le_mul_right (payload.length + 1) (show target offset + 1 ≤ begin by omega)
    rw [Nat.succ_mul] at this
    omega

variable (cursor : Cursor) (length : UInt16)

/-- A name of the message: `ParseDnsString` and then `UnDotted`. -/
def parseName : Option (Bytes × Cursor) :=
  match parseDnsString payload cursor.begin cursor.begin [] cursor.errorFlags with
  | none => none
  | some (begin, str, errorFlags) =>
    some (unDotted str,
      { begin := begin, errorFlags := errorFlags, names := cursor.begin :: cursor.names })

def parseHeader : Option (Cursor × Header) := do
  if payload.length < cursor.begin + 12 then return (cursor.raise parseErrorBadSize, {})
  else
    let id ← readNUint16 payload cursor.begin
    let flags ← readNUint16 payload (cursor.begin + 2)
    let qdcount ← readNUint16 payload (cursor.begin + 4)
    let ancount ← readNUint16 payload (cursor.begin + 6)
    let nscount ← readNUint16 payload (cursor.begin + 8)
    let arcount ← readNUint16 payload (cursor.begin + 10)
    return (cursor.advance 12, ⟨id, flags, qdcount, ancount, nscount, arcount⟩)

def parseQuestion (questions : List Question) : Option (Cursor × List Question) := do
  let (name, cursor) ← parseName payload cursor
  if cursor.failed then return (cursor, questions)
  else if payload.length < cursor.begin + 4 then return (cursor.raise parseErrorBadSize, questions)
  else
    let qtype ← readNUint16 payload cursor.begin
    let qclass ← readNUint16 payload (cursor.begin + 2)
    return (cursor.advance 4, questions ++ [⟨name, qtype, qclass⟩])

/-- The bytes of an address. -/
def readRaw (pos count : Nat) : Option (Raw count) :=
  match is : read payload pos count with
  | none => none
  | some bytes => some ⟨bytes, (read_eq_some_iff.mp is).2.1⟩

/-- `ParseRData` of an address of IPv4. The length that is left is unsigned. -/
def parseInAddr : Option (Cursor × RData) := do
  if cursor.begin ≤ payload.length ∧ payload.length < cursor.begin + 4 ∨ length ≠ 4 then
    return (cursor.raise parseErrorBadSize, .empty)
  else
    let addr ← readRaw payload cursor.begin 4
    return (cursor.advance 4, .inAddr addr)

/-- `ParseRData` of an address of IPv6. -/
def parseIn6Addr : Option (Cursor × RData) := do
  if payload.length < cursor.begin + 16 ∨ length ≠ 16 then
    return (cursor.raise parseErrorBadSize, .empty)
  else
    let addr ← readRaw payload cursor.begin 16
    return (cursor.advance 16, .in6Addr addr)

/-- `ParseRData` of a name. -/
def parsePtr : Option (Cursor × RData) := do
  let (name, cursor) ← parseName payload cursor
  if cursor.failed then return (cursor, .empty) else return (cursor, .string name)

def parseSrv : Option (Cursor × RData) := do
  if payload.length < cursor.begin + 6 then return (cursor.raise parseErrorBadSize, .empty)
  else
    let priority ← readNUint16 payload cursor.begin
    let weight ← readNUint16 payload (cursor.begin + 2)
    let port ← readNUint16 payload (cursor.begin + 4)
    let (name, cursor) ← parseName payload (cursor.advance 6)
    if cursor.failed then return (cursor, .empty)
    else return (cursor, .srv ⟨priority, weight, port, name⟩)

def parseTxt : Option (Cursor × RData) := do
  if payload.length < cursor.begin + length.toNat then
    return (cursor.raise parseErrorBadSize, .empty)
  else
    let bytes ← read payload cursor.begin length.toNat
    return (cursor.advance length.toNat, .txt bytes)

def parseRData (type length : UInt16) : Option (Cursor × RData) :=
  if type = rrtypeA then parseInAddr payload cursor length
  else if type = rrtypeAaaa then parseIn6Addr payload cursor length
  else if type = rrtypePtr then parsePtr payload cursor
  else if type = rrtypeSrv then parseSrv payload cursor
  else if type = rrtypeTxt then parseTxt payload cursor length
  else some ((cursor.raise parseWarningBadRrtype).advance length.toNat, .empty)

def parseRR (answers : List ResourceRecord) : Option (Cursor × List ResourceRecord) := do
  let (name, cursor) ← parseName payload cursor
  if cursor.failed then return (cursor, answers)
  else if payload.length < cursor.begin + 10 then return (cursor.raise parseErrorBadSize, answers)
  else
    let rtype ← readNUint16 payload cursor.begin
    let rclass ← readNUint16 payload (cursor.begin + 2)
    let ttl ← readNUint32 payload (cursor.begin + 4)
    let length ← readNUint16 payload (cursor.begin + 8)
    let (cursor, rdata) ← parseRData payload (cursor.advance 10) rtype length
    return (cursor, answers ++ [⟨name, rtype, rclass, ttl, length, rdata⟩])

/-- A loop of `Parse`. -/
def parseLoop {β : Type} (parse : Cursor → List β → Option (Cursor × List β)) :
    Nat → Cursor → List β → Option (Cursor × List β)
  | 0, cursor, items => some (cursor, items)
  | count + 1, cursor, items => do
      let (cursor, items) ← parse cursor items
      if cursor.failed then return (cursor, items) else parseLoop parse count cursor items

def parse : Option (Cursor × Message) := do
  let (cursor, header) ← parseHeader payload cursor
  if cursor.failed then return (cursor, { header := header })
  else
    let (cursor, questions) ← parseLoop (parseQuestion payload) header.qdcount.toNat cursor []
    if cursor.failed then return (cursor, { header := header, questions := questions })
    else
      let (cursor, answers) ← parseLoop (parseRR payload) header.ancount.toNat cursor []
      if cursor.failed then
        return (cursor, { header := header, questions := questions, answers := answers })
      else
        let (cursor, authorities) ← parseLoop (parseRR payload) header.nscount.toNat cursor []
        if cursor.failed then return (cursor, ⟨header, questions, answers, authorities, []⟩)
        else
          let (cursor, additional) ← parseLoop (parseRR payload) header.arcount.toNat cursor []
          return (cursor, ⟨header, questions, answers, authorities, additional⟩)

/-- `FromBytes`, with the cursor at its end. -/
def fromBytes : Option (Cursor × Message) := parse payload {}

/-! ## Serializing -/

/-- What is written. A compressed name is looked up in what was written by the same call,
as `cachedPayload` is the payload. -/
structure Output where
  payload : Bytes := []
  strCacheMap : List (Bytes × UInt16) := []

namespace Output

variable (output : Output)

/-- `WriteRawData` at the end. -/
def write (bytes : Bytes) : Output := { output with payload := output.payload ++ bytes }

/-- `WriteRawData` of `htons`. -/
def writeNUint16 (value : UInt16) : Output := output.write (bigEndian 2 value.toNat)

/-- `WriteRawData` of `htonl`. -/
def writeNUint32 (value : UInt32) : Output := output.write (bigEndian 4 value.toNat)

/-- `WriteRawData` over what is there. -/
def overwrite (pos : Nat) (bytes : Bytes) : Output :=
  { output with
    payload := output.payload.take pos ++ bytes ++ output.payload.drop (pos + bytes.length) }

end Output

/-- `SerializeDnsString`, of `str.substr(pos)`. -/
def serializeDnsString (str : Bytes) (output : Output) : Output :=
  if str = [] then output.write [0]
  else
    match output.strCacheMap.lookup str with
    | some pointer => output.writeNUint16 pointer
    | none =>
      let label := str.takeWhile (· ≠ mdnsDomainSpliter)
      let segLen := label.length &&& 0x3f
      let strptr := UInt16.ofNat output.payload.length
      serializeDnsString ((str.dropWhile (· ≠ mdnsDomainSpliter)).drop 1)
        { payload := output.payload ++ UInt8.ofNat segLen :: label.take segLen
          strCacheMap := (str, strptr ||| 0xc000) :: output.strCacheMap }
termination_by str.length
decreasing_by
  rename_i nonempty
  have shorter := (dropWhile_suffix (fun byte => decide (byte ≠ mdnsDomainSpliter))
    (l := str)).length_le
  have positive := length_pos_iff.mpr nonempty
  rw [length_drop]
  omega

def serializeHeader (header : Header) (output : Output) : Output :=
  (((((output.writeNUint16 header.id).writeNUint16 header.flags).writeNUint16
    header.qdcount).writeNUint16 header.ancount).writeNUint16 header.nscount).writeNUint16
      header.arcount

def serializeQuestion (output : Output) (question : Question) : Output :=
  ((serializeDnsString question.name output).writeNUint16 question.qtype).writeNUint16
    question.qclass

def serializeRData (rdata : RData) (output : Output) : Output :=
  match rdata with
  | .inAddr addr => output.write addr.1
  | .in6Addr addr => output.write addr.1
  | .string name => serializeDnsString name output
  | .srv srv =>
    serializeDnsString srv.name
      (((output.writeNUint16 srv.priority).writeNUint16 srv.weight).writeNUint16 srv.port)
  | .txt bytes => output.write bytes
  | .empty => output

/-- What `SerializeRR` writes before the length. -/
def serializeHead (rr : ResourceRecord) (output : Output) : Output :=
  (((serializeDnsString rr.name output).writeNUint16 rr.rtype).writeNUint16
    rr.rclass).writeNUint32 rr.ttl

/-- `SerializeRR`. The length is written when it is known. -/
def serializeRR (output : Output) (rr : ResourceRecord) : Output :=
  let output := serializeHead rr output
  let lenStart := output.payload.length
  let output := serializeRData rr.rdata (output.writeNUint16 rr.length)
  let len := UInt16.ofNat (output.payload.length - lenStart - 2)
  output.overwrite lenStart (bigEndian 2 len.toNat)

/-- The header that `Serialize` writes. -/
def serializedHeader (msg : Message) : Header :=
  { msg.header with
    qdcount := UInt16.ofNat msg.questions.length
    ancount := UInt16.ofNat msg.answers.length
    nscount := UInt16.ofNat msg.authorities.length
    arcount := UInt16.ofNat msg.additional.length }

/-- `Serialize`: as many entries are written as the header says. -/
def serialize (msg : Message) (output : Output) : Output :=
  let header := serializedHeader msg
  let output := serializeHeader header output
  let output := (msg.questions.take header.qdcount.toNat).foldl serializeQuestion output
  let output := (msg.answers.take header.ancount.toNat).foldl serializeRR output
  let output := (msg.authorities.take header.nscount.toNat).foldl serializeRR output
  (msg.additional.take header.arcount.toNat).foldl serializeRR output

def toBytes (msg : Message) : Bytes := (serialize msg {}).payload

end NetManager.Mdns.MDnsPayloadParser
