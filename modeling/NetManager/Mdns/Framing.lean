import NetManager.Mdns.Accepts

/-!
# Where the next record starts

Behind the data of a record the parser goes on with the next record. The length of the
data says where that is, except for the types whose data ends with a name: there the
parser goes on where the name ends.
-/

namespace NetManager.Mdns

open List Wire MDnsPayloadParser

/-- The records of a message, in the order of the packet. -/
def Message.records (message : Message) : List ResourceRecord :=
  message.answers ++ message.authorities ++ message.additional

/-- A record of the message whose data is read from `data` on, and behind which another
record is read from `next` on. -/
def Follows (payload : Bytes) (message : Message) (rr : ResourceRecord) (data next : Nat) : Prop :=
  ∃ before after records start, message.records = before ++ rr :: after ∧ after ≠ [] ∧
    Items (QuestionAt false payload) 12 message.questions records ∧
    Items (RRAt false payload) records before start ∧
    RRAt false payload start rr next ∧
    ∃ dotted mid, NameAt false payload start start dotted mid ∧ data = mid + 10

variable (payload : Bytes)

/-- If the parser reports no error, then each record starts as many bytes behind the start
of the data of the record before it as the length of that one says. -/
def Framed : Prop :=
  ∀ cursor message, fromBytes payload = some (cursor, message) → getError cursor.errorFlags = 0 →
      ∀ rr data next, Follows payload message rr data next → next = data + rr.length.toNat

/-- The name that ends the data of a pointer or of a service ends where the length says. -/
structure FitsLength (rr : ResourceRecord) (data : Nat) : Prop where
  ptr : rr.rtype = rrtypePtr →
    ∃ dotted, NameAt false payload data data dotted (data + rr.length.toNat)
  srv : rr.rtype = rrtypeSrv →
    ∃ dotted, NameAt false payload (data + 6) (data + 6) dotted (data + rr.length.toNat)

variable {payload : Bytes}

theorem RDataAt.next_eq_iff {rr : ResourceRecord} {data next : Nat}
    (rdataAt : RDataAt false payload data rr.rtype rr.length rr.rdata next) :
    next = data + rr.length.toNat ↔ FitsLength payload rr data := by
  obtain ⟨name, rtype, rclass, ttl, length, rdata⟩ := rr
  -- A name ends at one place only, so it is the one where the parser goes on.
  cases rdataAt with
  | inAddr => exact iff_of_true rfl ⟨nofun, nofun⟩
  | in6Addr => exact iff_of_true rfl ⟨nofun, nofun⟩
  | string nameAt =>
    constructor
    · exact fun is => ⟨fun _ => ⟨_, is ▸ nameAt⟩, nofun⟩
    · intro fits
      obtain ⟨_, there⟩ := fits.ptr rfl
      exact (nameAt.deterministic le_rfl there).2
  | srv _ nameAt =>
    constructor
    · exact fun is => ⟨nofun, fun _ => ⟨_, is ▸ nameAt⟩⟩
    · intro fits
      obtain ⟨_, there⟩ := fits.srv rfl
      exact (nameAt.deterministic le_rfl there).2
  | txt => exact iff_of_true rfl ⟨nofun, nofun⟩
  | unknown other =>
    refine iff_of_true rfl ⟨fun is => absurd ?_ other, fun is => absurd ?_ other⟩
    · simp [show rtype = rrtypePtr from is]
    · simp [show rtype = rrtypeSrv from is]

theorem Follows.next_eq_iff {message : Message} {rr : ResourceRecord} {data next : Nat}
    (follows : Follows payload message rr data next) :
    next = data + rr.length.toNat ↔ FitsLength payload rr data := by
  obtain ⟨_, _, _, _, _, _, _, _, ⟨_, _, nameAt, _, _, rdataAt⟩, _, mid, there, rfl⟩ := follows
  obtain ⟨_, rfl⟩ := nameAt.deterministic le_rfl there
  exact rdataAt.next_eq_iff

/-- The records are framed exactly if the names that end their data are as long as said. -/
theorem framed_iff (payload : Bytes) :
    Framed payload ↔ ∀ message stop, MessageAt false payload message stop →
      ∀ rr data next, Follows payload message rr data next → FitsLength payload rr data := by
  constructor
  · intro framed message stop messageAt rr data next follows
    obtain ⟨cursor, parsed, arrives⟩ := messageAt.parse
    exact follows.next_eq_iff.mp
      (framed cursor message parsed ((fine_iff cursor).mp arrives.fine) rr data next follows)
  · intro fits cursor message parsed fine rr data next follows
    obtain ⟨_, _, is, sound⟩ := fromBytes_passed
    cases is.symm.trans parsed
    have messageAt := (sound ((fine_iff cursor).mpr fine)).lax
    exact follows.next_eq_iff.mpr (fits message _ messageAt rr data next follows)

/-- Two answers without names: a pointer to the root whose data of twelve bytes holds the
second answer as well. -/
def nested : Bytes :=
  [0, 0, 0x84, 0, 0, 0, 0, 2, 0, 0, 0, 0] ++ [0, 0, 12, 0, 1, 0, 0, 0, 0, 0, 12, 0] ++
    [0, 0, 99, 0, 1, 0, 0, 0, 0, 0, 0]

theorem not_framed_nested : ¬ Framed nested := by
  intro framed
  let pointer : ResourceRecord := ⟨[], rrtypePtr, 1, 0, 12, .string []⟩
  let inner : ResourceRecord := ⟨[], 99, 1, 0, 0, .empty⟩
  have pointerAt : RRAt false nested 12 pointer 24 :=
    ⟨[], 13, .zero rfl, rfl, ⟨nested.drop 23, by decide +kernel⟩, .string (.zero rfl)⟩
  have innerAt : RRAt false nested 24 inner 35 :=
    ⟨[], 25, .zero rfl, rfl, ⟨nested.drop 35, by decide +kernel⟩, .unknown (by decide) nofun⟩
  have messageAt : MessageAt false nested
      { header := ⟨0, 0x8400, 0, 2, 0, 0⟩, answers := [pointer, inner] } 35 :=
    ⟨⟨nested.drop 12, by decide +kernel⟩, ⟨rfl, rfl, rfl, rfl⟩, _, _, _, .nil 12,
      .cons pointerAt (.cons innerAt (.nil 35)), .nil 35, .nil 35⟩
  obtain ⟨cursor, parsed, arrives⟩ := messageAt.parse
  have next := framed cursor _ parsed ((fine_iff cursor).mp arrives.fine) pointer 23 24
    ⟨[], [inner], 12, 12, rfl, cons_ne_nil _ _, .nil 12, .nil 12, pointerAt, [], 13, .zero rfl, rfl⟩
  exact absurd next (by decide)

end NetManager.Mdns
