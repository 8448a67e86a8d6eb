import NetManager.Slice.MsgParser

/-!
# Decoders that stay inside the vector

A decoder that is `Reading` ends without a fault where so many bytes are left, and does
not leave the vector. The rules follow the shapes in which decoders are written.
-/

namespace NetManager.Slice

open Wire Wp

/-- The index has not gone back, and has not left the vector. -/
structure Advances (buffer : Bytes) (cursor after : Cursor) : Prop where
  le : cursor.startIndex ≤ after.startIndex
  inside : after.startIndex ≤ buffer.length

theorem Advances.refl (inside : cursor.startIndex ≤ buffer.length) :
    Advances buffer cursor cursor :=
  ⟨Nat.le_refl _, inside⟩

theorem Advances.trans (before : Advances buffer first second)
    (behind : Advances buffer second third) :
    Advances buffer first third :=
  ⟨before.le.trans behind.le, behind.inside⟩

/-- The decoder ends where so many bytes are left. -/
def Reading {α : Type} (buffer : Bytes) (count : Nat) (program : Decode α) : Prop :=
  ∀ cursor : Cursor, cursor.startIndex + count ≤ buffer.length →
    Ends program cursor fun _ after => Advances buffer cursor after

section Rules

variable {α β : Type} {buffer : Bytes}

theorem Reading.mono (reading : Reading buffer count program) (le : count ≤ more) :
    Reading buffer more program :=
  fun cursor enough => reading cursor (by omega)

theorem reading_pure : Reading buffer count (pure value) :=
  fun _ enough => .refl (Nat.le_of_add_right_le enough)

theorem reading_modify_bind (same : ∀ cursor, (change cursor).startIndex = cursor.startIndex)
    (reading : Reading buffer count (program ())) :
    Reading buffer count (modify change >>= program) := by
  intro cursor enough
  refine (ends_bind ..).mpr ((reading (change cursor) ?_).mono fun _ after advances => ?_)
  · rw [same]
    exact enough
  · exact ⟨(same cursor).symm.le.trans advances.le, advances.inside⟩

theorem Reading.bind (reading : Reading buffer count first)
    (then_ : ∀ value, Reading buffer 0 (program value)) :
    Reading buffer count (first >>= program) := by
  intro cursor enough
  refine (ends_bind ..).mpr ((reading cursor enough).mono fun value after advances => ?_)
  exact (then_ value after advances.inside).mono fun _ _ => advances.trans

theorem reading_ite [Decidable condition] (onTrue : condition → Reading buffer count first)
    (onFalse : ¬ condition → Reading buffer count second) :
    Reading buffer count (if condition then first else second) :=
  fun cursor enough =>
    ends_ite (fun holds => onTrue holds cursor enough) fun fails => onFalse fails cursor enough

/-! ## Bytes -/

variable {cursor : Cursor}

theorem ends_next (inside : cursor.startIndex < buffer.length)
    (read : ∀ byte, buffer[cursor.startIndex]? = some byte →
      Ends (program byte) { cursor with startIndex := cursor.startIndex + 1 } post) :
    Ends (next buffer >>= program) cursor post := by
  rw [next, ends_bind, ends_bind, ends_get, List.getElem?_eq_getElem inside]
  exact read _ (List.getElem?_eq_getElem inside)

theorem ends_takeBytes (inside : cursor.startIndex + size ≤ buffer.length) (read : ∀ bytes,
      Ends (program bytes) { cursor with startIndex := cursor.startIndex + size } post) :
    Ends (takeBytes buffer size >>= program) cursor post := by
  induction size generalizing cursor program with
  | zero => exact read []
  | succ size ih =>
    rw [takeBytes, bind_assoc]
    refine ends_next (by omega) fun byte _ => ?_
    rw [bind_assoc]
    refine ih (by dsimp only; omega) fun bytes => ?_
    have same := read (byte :: bytes)
    rwa [Nat.add_comm size 1, ← Nat.add_assoc] at same

theorem Reading.behind (reading : Reading buffer count program)
    (enough : cursor.startIndex + (count + size) ≤ buffer.length) :
    Ends program { cursor with startIndex := cursor.startIndex + size }
      fun _ after => Advances buffer cursor after := by
  refine (reading { cursor with startIndex := cursor.startIndex + size } ?_).mono ?_
  · dsimp only
    omega
  · exact fun _ after advances => ⟨Nat.le_of_add_right_le advances.le, advances.inside⟩

theorem reading_next_bind (reading : ∀ byte, Reading buffer count (program byte)) :
    Reading buffer (count + 1) (next buffer >>= program) :=
  fun _ enough => ends_next (by omega) fun byte _ => (reading byte).behind enough

theorem reading_takeBytes_bind (size : Nat)
    (reading : ∀ bytes, Reading buffer count (program bytes)) :
    Reading buffer (count + size) (takeBytes buffer size >>= program) :=
  fun _ enough => ends_takeBytes (by omega) fun bytes => (reading bytes).behind enough

theorem reading_skip : Reading buffer size (skip buffer size) := by
  unfold skip allocate
  have reading : Reading buffer (0 + size) (takeBytes buffer size >>= fun _ => pure ()) :=
    reading_takeBytes_bind size fun _ => reading_pure
  rwa [Nat.zero_add] at reading

theorem toNat_short (high low : UInt8) :
    (high.toUInt16 <<< 8 ||| low.toUInt16).toNat = ofBigEndian [high, low] := by
  have highSmall := high.toNat_lt
  have lowSmall := low.toNat_lt
  have shifted : (high.toUInt16 <<< 8).toNat = high.toNat <<< 8 := by
    rw [UInt16.toNat_shiftLeft, Nat.shiftLeft_eq, Nat.shiftLeft_eq]
    change high.toNat * 256 % 65536 = high.toNat * 256
    omega
  rw [UInt16.toNat_or, shifted, UInt8.toNat_toUInt16, ← Nat.shiftLeft_add_eq_or_of_lt lowSmall,
    Nat.shiftLeft_eq]
  change high.toNat * 256 + low.toNat = (0 * 256 + high.toNat) * 256 + low.toNat
  omega

theorem ends_getShort (inside : cursor.startIndex + 2 ≤ buffer.length)
    (read : ∀ first second, buffer[cursor.startIndex]? = some first →
      buffer[cursor.startIndex + 1]? = some second →
        Ends (program (if isLitterEndian then second.toUInt16 <<< 8 ||| first.toUInt16
          else first.toUInt16 <<< 8 ||| second.toUInt16))
          { cursor with startIndex := cursor.startIndex + 2 } post) :
    Ends (getShort buffer isLitterEndian >>= program) cursor post := by
  rw [getShort, ends_bind, ends_bind, ends_get, if_neg (by omega)]
  refine ends_next (by omega) fun first isFirst => ?_
  refine ends_next (by dsimp only; omega) fun second isSecond => ?_
  have holds := read first second isFirst isSecond
  cases isLitterEndian with
  | false => exact holds
  | true => exact holds

theorem reading_getShort_bind (reading : ∀ value, Reading buffer count (program value)) :
    Reading buffer (count + 2) (getShort buffer isLitterEndian >>= program) :=
  fun _ enough => ends_getShort (by omega) fun _ _ _ _ => (reading _).behind enough

theorem ends_getLength (inside : cursor.startIndex + 2 ≤ buffer.length)
    (read : ∀ value, readNumber buffer cursor.startIndex 2 = some value →
      Ends (program value) { cursor with startIndex := cursor.startIndex + 2 } post) :
    Ends (getLength buffer >>= program) cursor post := by
  rw [getLength, bind_assoc]
  refine ends_getShort inside fun first second isFirst isSecond => read _ ?_
  have lies : At buffer cursor.startIndex ([first] ++ [second]) :=
    (at_append_iff _ _).mpr ⟨at_singleton_iff.mpr isFirst, at_singleton_iff.mpr isSecond⟩
  rw [if_neg Bool.false_ne_true, toNat_short, readNumber, read_eq_some_iff.mpr ⟨inside, rfl, lies⟩]
  rfl

theorem reading_getLength_bind (reading : ∀ value, Reading buffer count (program value)) :
    Reading buffer (count + 2) (getLength buffer >>= program) :=
  fun _ enough => ends_getLength (by omega) fun value _ => (reading value).behind enough

theorem reading_remaining_bind (reading : ∀ left, Reading buffer count (program left)) :
    Reading buffer count (remaining buffer >>= program) :=
  fun cursor enough => reading _ cursor enough

/-- A check of the bytes that are left, in front of reading them. -/
theorem reading_check (onFail : Reading buffer 0 failed)
    (reading : Reading buffer needed program) :
    Reading buffer count
      (remaining buffer >>= fun left => if left < needed then failed else program) := by
  intro cursor enough
  refine ends_ite (fun _ => onFail cursor (by omega)) fun checked => reading cursor ?_
  omega

end Rules

/-! ## Components -/

section Components

variable {buffer : Bytes}

theorem reading_failOther (descriptor : δ) : Reading buffer 0 (failOther descriptor) :=
  reading_pure

theorem reading_decodeSubDnns (stringLen left cnt : Nat) (stringBuffer : Bytes) :
    Reading buffer left (decodeSubDnns buffer stringLen left cnt stringBuffer) := by
  induction left generalizing cnt stringBuffer with
  | zero => exact reading_pure
  | succ left ih =>
    cases cnt with
    | zero =>
      refine reading_next_bind fun byte => reading_ite (fun _ => reading_pure) fun _ => ?_
      exact ih _ _
    | succ cnt =>
      rw [decodeSubDnns]
      exact reading_next_bind fun byte => ih _ _

variable {α : Type}

theorem reading_counted {program : UInt8 → Decode α} (onFail : Reading buffer 0 failed)
    (reading : ∀ size : UInt8, Reading buffer size.toNat (program size)) :
    Reading buffer 0 (remaining buffer >>= fun left =>
      if left < (1 : Nat) then failed
      else next buffer >>= fun size => remaining buffer >>= fun left =>
        if left < size.toNat then failed else program size) :=
  reading_check onFail
    (reading_next_bind fun size => reading_check onFail (reading size))

theorem reading_decodeName : Reading buffer 0 (decodeName buffer) :=
  reading_counted reading_pure fun _ => reading_decodeSubDnns _ _ _ _

theorem reading_decodeAppId : Reading buffer 1 (decodeAppId buffer osId descriptor) :=
  reading_next_bind fun stringLen => reading_check (reading_failOther _) <|
    (reading_takeBytes_bind stringLen.toNat fun _ => reading_pure).mono (Nat.zero_add _).le

variable (descriptor : TrafficDescriptor)

theorem reading_decodeOsIdOsAppId : Reading buffer 0 (decodeOsIdOsAppId buffer false descriptor) :=
  reading_check (reading_failOther _) <|
    reading_takeBytes_bind 16 fun _ => reading_decodeAppId

theorem reading_decodeIpv4Addr : Reading buffer 0 (decodeIpv4Addr buffer descriptor) :=
  reading_check (reading_failOther _) <|
    reading_takeBytes_bind 4 fun _ => reading_takeBytes_bind 4 fun _ => reading_pure

theorem reading_decodeIpv6Addr : Reading buffer 0 (decodeIpv6Addr buffer descriptor) :=
  reading_check (reading_failOther _) <|
    reading_takeBytes_bind 16 fun _ => reading_next_bind fun _ => reading_pure

theorem reading_decodeProtocolId : Reading buffer 0 (decodeProtocolId buffer descriptor) :=
  reading_check (reading_failOther _) <| reading_next_bind fun _ => reading_pure

theorem reading_decodeSingleRemotePort :
    Reading buffer 0 (decodeSingleRemotePort buffer descriptor) :=
  reading_check (reading_failOther _) <| reading_getLength_bind fun _ => reading_pure

theorem reading_decodeRemotePortRange :
    Reading buffer 0 (decodeRemotePortRange buffer descriptor) :=
  reading_check (reading_failOther _) <|
    reading_getLength_bind fun _ => reading_getLength_bind fun _ => reading_pure

theorem reading_includeIms_bind (reading : Reading buffer count (program ())) :
    Reading buffer count (includeIms ims >>= program) := by
  refine reading_modify_bind ?_ reading
  exact fun _ => rfl

theorem reading_decodeTrafficDescriptorDnn :
    Reading buffer 0 (decodeTrafficDescriptorDnn buffer descriptor) :=
  reading_decodeName.bind fun _ => reading_ite (fun _ => reading_failOther _) fun _ =>
    reading_includeIms_bind reading_pure

theorem reading_decodeConnectionCapabilities :
    Reading buffer 0 (decodeConnectionCapabilities buffer descriptor) := by
  refine reading_counted (reading_failOther _) fun stringLen => ?_
  refine (reading_takeBytes_bind stringLen.toNat fun capabilities => ?_).mono (Nat.zero_add _).le
  exact reading_includeIms_bind reading_pure

theorem reading_decodeSnssaiContents :
    Reading buffer len.toNat (decodeSnssaiContents buffer len) := by
  refine reading_ite ?_ fun _ => reading_ite ?_ fun _ => reading_ite ?_ fun _ =>
    reading_ite ?_ fun _ => reading_ite ?_ fun _ => reading_pure
  · rintro rfl
    exact reading_next_bind fun _ => reading_pure
  · rintro rfl
    exact reading_next_bind fun _ => reading_next_bind fun _ => reading_pure
  · rintro rfl
    exact reading_next_bind fun _ => reading_takeBytes_bind 3 fun _ => reading_pure
  · rintro rfl
    exact reading_next_bind fun _ => reading_takeBytes_bind 3 fun _ =>
      reading_next_bind fun _ => reading_pure
  · rintro rfl
    exact reading_next_bind fun _ => reading_takeBytes_bind 3 fun _ =>
      reading_next_bind fun _ => reading_takeBytes_bind 3 fun _ => reading_pure

variable (routeRule : RouteSelectionDescriptor)

theorem reading_decodeSscMode : Reading buffer 0 (decodeSscMode buffer routeRule) :=
  reading_check (reading_failOther _) <| reading_next_bind fun _ => reading_pure

theorem reading_decodeSnssai : Reading buffer 0 (decodeSnssai buffer routeRule) := by
  refine reading_counted (reading_failOther _) fun subLen => ?_
  refine reading_decodeSnssaiContents.bind fun contents => ?_
  cases contents with
  | none => exact reading_failOther _
  | some snssai => exact reading_pure

theorem reading_decodeDnn : Reading buffer 0 (decodeDnn buffer routeRule) :=
  reading_decodeName.bind fun _ => reading_ite (fun _ => reading_failOther _) fun _ =>
    reading_pure

theorem reading_decodePduSessionType : Reading buffer 0 (decodePduSessionType buffer routeRule) :=
  reading_check (reading_failOther _) <| reading_next_bind fun _ => reading_pure

end Components

end NetManager.Slice
