import NetManager.Slice.Reading

/-!
# Vectors that are decoded without a fault

The decoder faults at three places: `PlmnToString` of bytes that are not decimal, the
length of an application identifier behind the end of the vector, and a preferred access
type that ends its descriptor. Vectors without them are decoded without a fault.
-/

namespace NetManager.Slice

open Wire Wp

/-! ## Components -/

section Components

variable {buffer : Bytes} {len initBufferRemaining : Int} {stop : Nat} {cursor : Cursor} {δ : Type}

theorem ends_skipRest (place : len - initBufferRemaining + buffer.length = stop)
    (inside : stop ≤ buffer.length)
    (before : cursor.startIndex ≤ stop) :
    Ends (skipRest buffer len initBufferRemaining result) cursor
      fun _ => Advances buffer cursor := by
  have size : len - (initBufferRemaining - (buffer.length - cursor.startIndex)) =
      ((stop - cursor.startIndex : Nat) : Int) := by
    omega
  change Ends (skip buffer (len - (initBufferRemaining - (buffer.length - cursor.startIndex)))
    >>= fun _ => pure result) cursor _
  rw [size]
  exact (reading_skip.bind fun _ => reading_pure) cursor (by omega)

theorem ends_decodeFqdn (inside : cursor.startIndex ≤ buffer.length) :
    Ends (decodeFqdn buffer descriptor) cursor fun result after =>
      Advances buffer cursor after ∧ (result.1 = .failUnknownIdentifier → after = cursor) := by
  unfold decodeFqdn
  refine ends_ite (fun _ => ⟨.refl inside, fun _ => rfl⟩) fun _ => ?_
  rw [ends_bind]
  refine (reading_decodeName cursor inside).mono fun fqdn after advances => ?_
  exact ends_ite (fun _ => ⟨advances, DecodeResult.noConfusion⟩)
    fun _ => ⟨advances, DecodeResult.noConfusion⟩

variable {type : UInt8}

theorem ends_trafficDescriptorComponent (components : buffer.getLast? ≠ some 0xA0)
    (place : len - initBufferRemaining + buffer.length = stop) (inside : stop ≤ buffer.length)
    (before : cursor.startIndex ≤ stop) (isType : buffer[cursor.startIndex - 1]? = some type) :
    Ends (decodeTrafficDescriptorComponent buffer len type initBufferRemaining descriptor) cursor
      fun _ => Advances buffer cursor := by
  have here : cursor.startIndex ≤ buffer.length := before.trans inside
  refine ends_ite (fun _ => .refl here) fun _ =>
    ends_ite (fun _ => reading_decodeOsIdOsAppId _ _ here) fun _ =>
    ends_ite (fun _ => reading_decodeIpv4Addr _ _ here) fun _ =>
    ends_ite (fun _ => reading_decodeIpv6Addr _ _ here) fun _ =>
    ends_ite (fun _ => reading_decodeProtocolId _ _ here) fun _ => ?_
  refine ends_ite (fun _ => reading_decodeSingleRemotePort _ _ here) fun _ =>
    ends_ite (fun _ => reading_decodeRemotePortRange _ _ here) fun _ =>
    ends_ite (fun _ => reading_decodeTrafficDescriptorDnn _ _ here) fun _ =>
    ends_ite (fun _ => ?_) fun _ =>
    ends_ite (fun _ => reading_decodeConnectionCapabilities _ _ here) fun _ =>
    ends_ite (fun isAppId => ?_) fun _ => ends_skipRest place inside before
  · rw [ends_bind]
    refine (ends_decodeFqdn here).mono fun result after found => ?_
    refine ends_ite (fun unknown => ?_) fun _ => found.1
    rw [found.2 unknown]
    exact ends_skipRest place inside before
  · -- The length of the identifier is inside because its type is not the last byte.
    refine reading_decodeAppId cursor (Nat.lt_of_le_of_ne here fun atEnd => components ?_)
    rw [List.getLast?_eq_getElem?, ← atEnd, isType, isAppId]

/-- A preferred access type does not end the descriptor. -/
def Clear (buffer : Bytes) (stop : Nat) : Prop :=
  ¬ (buffer[stop - 1]? = some componentPreferredAccessType ∧
    buffer[stop]? = some preferredAccessTypeNon3gpp)
deriving Decidable

variable (routeRule : RouteSelectionDescriptor)

theorem ends_decodePreferredAccessType (inside : cursor.startIndex ≤ buffer.length) :
    Ends (decodePreferredAccessType buffer routeRule) cursor fun result after =>
      Advances buffer cursor after ∧ (result.1 = .failUnknownIdentifier →
        after.startIndex = cursor.startIndex + 1 ∧
          buffer[cursor.startIndex]? = some preferredAccessTypeNon3gpp) := by
  unfold decodePreferredAccessType
  refine ends_ite (fun _ => ⟨.refl inside, DecodeResult.noConfusion⟩) fun checked => ?_
  refine ends_next (by omega) fun byte isByte => ?_
  have advances : Advances buffer cursor
      { cursor with startIndex := cursor.startIndex + 1 } := ⟨Nat.le_succ _, by dsimp only; omega⟩
  refine ends_ite (fun non3gpp => ⟨advances, fun _ => ⟨rfl, non3gpp ▸ isByte⟩⟩) fun _ => ?_
  exact ⟨advances, DecodeResult.noConfusion⟩

theorem ends_routeRuleComponent (clear : Clear buffer stop)
    (place : len - initBufferRemaining + buffer.length = stop) (inside : stop ≤ buffer.length)
    (routeRule : RouteSelectionDescriptor)
    (before : cursor.startIndex ≤ stop) (isType : buffer[cursor.startIndex - 1]? = some type) :
    Ends (decodeRouteRuleComponent buffer len type initBufferRemaining routeRule) cursor
      fun _ => Advances buffer cursor := by
  have here : cursor.startIndex ≤ buffer.length := before.trans inside
  refine ends_ite (fun _ => reading_decodeSscMode _ _ here) fun _ =>
    ends_ite (fun _ => reading_decodeSnssai _ _ here) fun _ =>
    ends_ite (fun _ => reading_decodeDnn _ _ here) fun _ =>
    ends_ite (fun _ => reading_decodePduSessionType _ _ here) fun _ =>
    ends_ite (fun isPreferred => ?_) fun _ =>
    ends_ite (fun _ => .refl here) fun _ => ends_skipRest place inside before
  rw [ends_bind]
  refine (ends_decodePreferredAccessType routeRule here).mono fun result after found => ?_
  refine ends_ite (fun unknown => ?_) fun _ => found.1
  obtain ⟨isNext, non3gpp⟩ := found.2 unknown
  have notLast : cursor.startIndex ≠ stop := by
    rintro rfl
    exact clear ⟨isPreferred ▸ isType, non3gpp⟩
  refine (ends_skipRest place inside ?_).mono fun _ _ => found.1.trans
  omega

/-! ## Descriptors -/

theorem ends_decodeComponents (place : len - initBufferRemaining + buffer.length = stop)
    (inside : stop ≤ buffer.length)
    (each : ∀ (type : UInt8) (descriptor : δ) (cursor : Cursor), cursor.startIndex ≤ stop →
      buffer[cursor.startIndex - 1]? = some type →
        Ends (component len type initBufferRemaining descriptor) cursor
          fun _ => Advances buffer cursor) (positive : 0 < fuel) (descriptor : δ)
    (here : cursor.startIndex ≤ buffer.length) (enough : stop < cursor.startIndex + fuel) :
    Ends (decodeComponents buffer component len initBufferRemaining fuel descriptor) cursor
      fun _ => Advances buffer cursor := by
  -- Each round reads the type of a component, so the fuel lasts to the end.
  induction fuel generalizing descriptor cursor with
  | zero => exact absurd positive (Nat.lt_irrefl 0)
  | succ fuel ih =>
    refine ends_ite (fun goesOn => ?_) fun _ => .refl here
    have before : cursor.startIndex < stop := by omega
    refine ends_ite (fun _ => .refl here) fun _ => ?_
    refine ends_next (before.trans_le inside) fun type isType => ?_
    rw [ends_bind]
    refine (each type descriptor { cursor with startIndex := cursor.startIndex + 1 } before
      isType).mono fun result after advances => ?_
    have beyond : cursor.startIndex + 1 ≤ after.startIndex := advances.le
    have advancesHere : Advances buffer cursor after := ⟨by omega, advances.inside⟩
    refine ends_ite (fun _ => advancesHere) fun _ => ?_
    exact (ih (by omega) result.2 advances.inside (by omega)).mono fun _ _ => advancesHere.trans

variable {inputLen : Nat}

theorem reading_decodeTrafficDescriptor (components : buffer.getLast? ≠ some 0xA0) :
    Reading buffer inputLen (decodeTrafficDescriptor buffer inputLen descriptor) := by
  intro cursor enough
  have place : (inputLen : Int) - (buffer.length - cursor.startIndex) + buffer.length =
      ((cursor.startIndex + inputLen : Nat) : Int) := by
    omega
  refine ends_decodeComponents place enough ?_ (Nat.succ_pos _) _ (by omega) (by omega)
  exact fun type descriptor cursor before isType =>
    ends_trafficDescriptorComponent components place enough before isType

theorem ends_decodeRouteRule (enough : cursor.startIndex + inputLen ≤ buffer.length)
    (clear : Clear buffer (cursor.startIndex + inputLen)) :
    Ends (decodeRouteRule buffer inputLen routeRule) cursor
      fun _ => Advances buffer cursor := by
  have place : (inputLen : Int) - (buffer.length - cursor.startIndex) + buffer.length =
      ((cursor.startIndex + inputLen : Nat) : Int) := by
    omega
  refine ends_decodeComponents place enough ?_ (Nat.succ_pos _) _ (by omega) (by omega)
  exact fun type routeRule cursor before isType =>
    ends_routeRuleComponent clear place enough routeRule before isType

end Components

/-! ## Rules -/

/-- No route selection descriptor is ended by a preferred access type: where a length of
the version stands at a position, and the length of a descriptor behind the precedence
fits to it. -/
def DescriptorsClear (buffer : Bytes) : Prop :=
  ∀ pos < buffer.length, ∀ version ∈ [Version.v1510, .v1520],
    ∀ subLen ∈ readNumber buffer pos (getLenBytesByversion version),
      ∀ routeRuleLen ∈ readNumber buffer (pos + getLenBytesByversion version + 1) 2,
        subLen = 3 + routeRuleLen →
          Clear buffer (pos + getLenBytesByversion version + 3 + routeRuleLen)

instance decidableDescriptorsClear (buffer : Bytes) : Decidable (DescriptorsClear buffer) :=
  inferInstanceAs (Decidable (∀ _, _))

section Rules

variable {buffer : Bytes} {cursor : Cursor} (components : buffer.getLast? ≠ some 0xA0)
  (descriptors : DescriptorsClear buffer) (version : Version)

theorem ends_getSubLenByversion (inside : cursor.startIndex ≤ buffer.length) :
    Ends (getSubLenByversion buffer version) cursor fun result after =>
      Advances buffer cursor after ∧ ∀ subLen ∈ result,
        readNumber buffer cursor.startIndex (getLenBytesByversion version) = some subLen ∧
          after.startIndex = cursor.startIndex + getLenBytesByversion version := by
  unfold getSubLenByversion
  refine ends_ite (fun _ => ⟨.refl inside, fun _ none => ?_⟩) fun checked => ?_
  · cases none
  · cases version with
    | v1510 =>
      dsimp only [getLenBytesByversion] at checked ⊢
      refine ends_next (by omega) fun byte isByte => ⟨⟨Nat.le_succ _, ?_⟩, ?_⟩
      · dsimp only
        omega
      · rintro _ ⟨⟩
        have isRead : read buffer cursor.startIndex 1 = some [byte] :=
          read_eq_some_iff.mpr ⟨by omega, rfl, at_singleton_iff.mpr isByte⟩
        refine ⟨?_, rfl⟩
        rw [readNumber, isRead, Option.map_some, Option.some_inj]
        exact Nat.zero_add _
    | v1520 =>
      dsimp only [getLenBytesByversion] at checked ⊢
      refine ends_getLength (by omega) fun value isValue => ⟨⟨Nat.le_add_right _ _, ?_⟩, ?_⟩
      · dsimp only
        omega
      · rintro _ ⟨⟩
        exact ⟨isValue, rfl⟩

theorem ends_decodeRouteRuleListItem (inside : cursor.startIndex ≤ buffer.length)
    (clear : ∀ routeRuleLen ∈ readNumber buffer (cursor.startIndex + 1) 2,
      subLen = 3 + routeRuleLen → Clear buffer (cursor.startIndex + 3 + routeRuleLen)) :
    Ends (decodeRouteRuleListItem buffer subLen routeRules) cursor
      fun _ => Advances buffer cursor := by
  unfold decodeRouteRuleListItem
  refine ends_ite (fun _ => .refl inside) fun checked => ?_
  refine ends_next (by omega) fun precedence _ => ?_
  refine ends_getLength (by dsimp only; omega) fun routeRuleLen isLen => ?_
  rw [ends_bind]
  have advances : Advances buffer cursor { cursor with startIndex := cursor.startIndex + 1 + 2 } :=
    ⟨by dsimp only; omega, by dsimp only; omega⟩
  refine ends_ite (fun _ => advances) fun fits => ?_
  obtain ⟨enough, sameLen⟩ := not_or.mp fits
  rw [ends_bind]
  refine (ends_decodeRouteRule _ ?_ (clear routeRuleLen isLen (not_not.mp sameLen))).mono ?_
  · omega
  · intro result after more
    have both : Advances buffer cursor after := advances.trans more
    exact ends_ite (fun _ => both) fun _ => ends_ite (fun _ => both) fun _ => both

theorem reading_addUrspRule : Reading buffer 0 (addUrspRule urspRule urspRules) := by
  refine reading_modify_bind ?_ reading_pure
  intro cursor
  split <;> rfl

theorem reading_copyBytes (size : Nat) : Reading buffer size (copyBytes buffer size) := by
  intro cursor enough
  rw [copyBytes, ends_bind, ends_get, ends_bind]
  exact (reading_skip cursor enough).mono fun _ after _ =>
    ⟨Nat.le_refl _, Nat.le_of_add_right_le enough⟩

variable {α : Type} {program : Unit → Decode α}

theorem reading_setUrspVersion_bind (reading : Reading buffer 0 (program ())) :
    Reading buffer 0 (setUrspVersion version >>= program) :=
  reading_modify_bind (fun _ => rfl) reading

section Descriptors

include descriptors

theorem reading_decodeRouteRules (routeRules : List RouteSelectionDescriptor) :
    Reading buffer 0 (decodeRouteRules buffer version len routeRules) := by
  have positive : 0 < getLenBytesByversion version := by cases version <;> decide
  induction len using Nat.strongRecOn generalizing routeRules with
  | ind len ih =>
    intro cursor inside
    rw [decodeRouteRules]
    refine ends_ite (fun more => ?_) fun _ => .refl inside
    rw [ends_bind]
    refine (ends_getSubLenByversion version inside).mono ?_
    rintro (_ | subLen) after ⟨advances, isLen⟩
    · exact advances
    · obtain ⟨isSubLen, isAfter⟩ := isLen subLen rfl
      refine ends_ite (fun _ => advances) fun fits => ?_
      rw [ends_bind]
      refine (ends_decodeRouteRuleListItem advances.inside ?_).mono ?_
      · rw [isAfter]
        have here : cursor.startIndex < buffer.length := by
          omega
        exact descriptors _ here version (by cases version <;> decide) subLen isSubLen
      · intro result later more
        have both : Advances buffer cursor later := advances.trans more
        refine ends_ite (fun _ => both) fun _ => ?_
        refine (ih _ ?_ result.2 later more.inside).mono fun _ _ => both.trans
        omega

theorem reading_decodeRouteRuleList :
    Reading buffer 0 (decodeRouteRuleList buffer version inputLen urspRule) :=
  (reading_decodeRouteRules descriptors version _).bind fun _ =>
    reading_ite (fun _ => reading_failOther _) fun _ =>
      reading_ite (fun _ => reading_pure) fun _ => reading_pure

theorem reading_decodeUrspRuleRoutes :
    Reading buffer 0 (decodeUrspRuleRoutes buffer version len urspRule urspRules) := by
  refine reading_check reading_pure (reading_getLength_bind fun routeRuleListLen => ?_)
  intro cursor inside
  refine ends_ite (fun _ => .refl inside) fun _ => ?_
  refine ((reading_decodeRouteRuleList descriptors version).bind fun result => ?_)
    cursor inside
  refine reading_ite (fun _ => reading_pure) fun _ =>
    reading_ite (fun _ => reading_pure) fun _ => ?_
  exact reading_addUrspRule.bind fun _ => reading_pure

include components

section

variable (len : Nat) (inputLen : Nat) (urspRules : List UrspRule)

theorem reading_decodeUrspRuleExtra (urspRules : List UrspRule) :
    Reading buffer 2 (decodeUrspRuleExtra buffer version inputLen urspRule urspRules) := by
  refine reading_getLength_bind fun trafficDescriptorLen cursor inside => ?_
  refine ends_ite (fun _ => .refl inside) fun fits => ?_
  refine ((reading_decodeTrafficDescriptor components).bind
    fun result => ?_) cursor ?_
  · refine reading_ite (fun _ => reading_pure) fun _ => reading_ite (fun _ => ?_) fun _ => ?_
    · exact reading_check reading_pure ((reading_copyBytes _).bind fun _ => reading_pure)
    · exact reading_decodeUrspRuleRoutes descriptors version
  · omega

theorem reading_decodeUrspRule :
    Reading buffer 0 (decodeUrspRule buffer version inputLen urspRules) :=
  reading_check reading_pure <| reading_next_bind fun _ =>
    reading_decodeUrspRuleExtra components descriptors version inputLen urspRules

theorem reading_decodeUrspByVersion :
    Reading buffer 0 (decodeUrspByVersion buffer version len urspRules) := by
  induction len using Nat.strongRecOn generalizing urspRules with
  | ind len ih =>
    intro cursor inside
    rw [decodeUrspByVersion]
    refine ends_ite (fun more => ?_) fun _ => .refl inside
    rw [ends_bind]
    refine (ends_getSubLenByversion version inside).mono ?_
    rintro (_ | subLen) after ⟨advances, _⟩
    · exact advances
    · refine ends_ite (fun _ => advances) fun fits => ?_
      refine (((reading_decodeUrspRule components descriptors version subLen urspRules).bind
        fun result => ?_) after advances.inside).mono fun _ _ => advances.trans
      refine reading_ite (fun _ => ih _ ?_ _) fun _ =>
        reading_modify_bind (fun _ => rfl) reading_pure
      have positive : 0 < getLenBytesByversion version := by cases version <;> decide
      omega

theorem reading_decodeUrspRules : Reading buffer 0 (decodeUrspRules buffer inputLen urspRules) := by
  intro cursor inside
  rw [decodeUrspRules, ends_bind]
  refine reading_setUrspVersion_bind _ ?_ cursor inside
  refine (reading_decodeUrspByVersion components descriptors .v1520 inputLen urspRules).bind ?_
  intro result
  refine reading_ite (fun _ => reading_modify_bind (fun _ => rfl) reading_pure) fun _ => ?_
  -- The second attempt starts where the first one did, and its index is then forgotten.
  intro failed failedInside
  rw [ends_bind, ends_get, ends_bind, setStartIndex, ends_modify, ends_bind, setUrspVersion,
    ends_modify, ends_bind]
  refine (reading_decodeUrspByVersion components descriptors .v1510 inputLen result.2 _ ?_).mono
    fun again after _ => ?_
  · exact inside
  · exact ends_ite (fun _ => ⟨Nat.le_refl _, failedInside⟩) fun _ => ⟨Nat.le_refl _, failedInside⟩

end

end Descriptors

end Rules

/-! ## Policy sections -/

section Sections

variable {buffer : Bytes} {cursor : Cursor} {δ : Type} {len : Nat}

theorem ends_decodeItems_round (inside : cursor.startIndex ≤ buffer.length)
    (round : ∀ subLen, readNumber buffer cursor.startIndex 2 = some subLen →
      cursor.startIndex + 2 + subLen ≤ buffer.length → 2 + subLen ≤ len →
        Ends (item subLen result) { cursor with startIndex := cursor.startIndex + 2 }
          fun outcome after => Advances buffer cursor after ∧
            Ends (decodeItems buffer item (len - (2 + subLen)) outcome.2) after
              fun _ later => Advances buffer after later) :
    Ends (decodeItems buffer item len result) cursor
      fun _ => Advances buffer cursor := by
  rw [decodeItems]
  refine ends_ite (fun more => ?_) fun _ => .refl inside
  refine ends_ite (fun _ => .refl inside) fun checked => ?_
  refine ends_getLength (by omega) fun subLen isSubLen => ?_
  rw [ends_bind]
  refine ends_ite (fun _ => ⟨Nat.le_add_right _ _, by dsimp only; omega⟩) fun fits => ?_
  obtain ⟨enough, fitsLen⟩ := not_or.mp fits
  rw [ends_bind]
  refine (round subLen isSubLen ?_ (by omega)).mono fun outcome after goesOn => ?_
  · dsimp only at enough
    omega
  · exact ends_ite (fun _ => goesOn.2.mono fun _ _ => goesOn.1.trans) fun _ => goesOn.1

theorem ends_decodeItems (each : ∀ (pos subLen : Nat) (result : δ) (cursor : Cursor), lower ≤ pos →
      readNumber buffer pos 2 = some subLen → cursor.startIndex = pos + 2 →
        cursor.startIndex + subLen ≤ buffer.length → 2 + subLen ≤ bound →
          Ends (item subLen result) cursor fun _ => Advances buffer cursor)
    (small : len ≤ bound)
    (result : δ)
    (from_ : lower ≤ cursor.startIndex)
    (inside : cursor.startIndex ≤ buffer.length) :
    Ends (decodeItems buffer item len result) cursor
      fun _ => Advances buffer cursor := by
  induction len using Nat.strongRecOn generalizing result cursor with
  | ind len ih =>
    refine ends_decodeItems_round inside fun subLen isSubLen enough fitsLen => ?_
    refine (each cursor.startIndex subLen result _ from_ isSubLen rfl enough (by omega)).mono ?_
    intro outcome after advances
    have both : Advances buffer cursor after :=
      ⟨Nat.le_of_add_right_le advances.le, advances.inside⟩
    exact ⟨both, ih _ (by omega) (by omega) outcome.2 (from_.trans both.le) both.inside⟩

theorem reading_decodeItems (each : ∀ subLen result, Reading buffer subLen (item subLen result)) :
    Reading buffer 0 (decodeItems buffer item len result) :=
  fun _ inside => ends_decodeItems
    (fun _ subLen result cursor _ _ _ enough _ => each subLen result cursor enough)
    (Nat.le_refl _) result (Nat.zero_le _) inside

/-! ## Numbers of networks -/

theorem exists_ok_of_isOk {ε α : Type} {result : Except ε α} (isOk : result.isOk = true) :
    ∃ value, result = .ok value := by
  cases result with
  | ok value => exact ⟨value, rfl⟩
  | error fault => exact absurd isOk Bool.false_ne_true

/-- `std::stoi` reads the text of a byte with a decimal high half. -/
theorem exists_stoi (decimal : byte < 0xA0) : ∃ value, stoi (byteToHexStr byte) = .ok value := by
  have all : ∀ bits : BitVec 8, UInt8.ofBitVec bits < 0xA0 →
      (stoi (byteToHexStr (.ofBitVec bits))).isOk := by
    decide +kernel
  exact exists_ok_of_isOk (all byte.toBitVec decimal)

/-- The high half of the second byte may also stand for no digit. -/
theorem exists_stoi_second (decimal : byte < 0xA0 ∨ 0xF0 ≤ byte) :
    ∃ value, stoi (if (byteToHexStr byte).head? ≠ some 102 then byteToHexStr byte
      else 48 :: (byteToHexStr byte).drop 1) = .ok value := by
  have all : ∀ bits : BitVec 8, UInt8.ofBitVec bits < 0xA0 ∨ 0xF0 ≤ UInt8.ofBitVec bits →
      (stoi (if (byteToHexStr (.ofBitVec bits)).head? ≠ some 102 then byteToHexStr (.ofBitVec bits)
        else 48 :: (byteToHexStr (.ofBitVec bits)).drop 1)).isOk := by
    decide +kernel
  exact exists_ok_of_isOk (all byte.toBitVec decimal)

theorem exists_plmnToString (firstDecimal : first < 0xA0)
    (secondDecimal : second < 0xA0 ∨ 0xF0 ≤ second) (thirdDecimal : third < 0xA0) :
    ∃ plmn, plmnToString first second third = .ok plmn := by
  obtain ⟨firstByte, isFirst⟩ := exists_stoi firstDecimal
  obtain ⟨secondByte, isSecond⟩ := exists_stoi_second secondDecimal
  obtain ⟨thirdByte, isThird⟩ := exists_stoi thirdDecimal
  unfold plmnToString
  rw [isFirst, isThird]
  dsimp only [bind, Except.bind]
  rw [isSecond]
  exact ⟨_, rfl⟩

/-- The number of a network at a position is decimal. -/
def Legible (buffer : Bytes) (pos : Nat) : Prop :=
  ∀ first ∈ buffer[pos]?, ∀ second ∈ buffer[pos + 1]?, ∀ third ∈ buffer[pos + 2]?,
    first < 0xA0 ∧ (second < 0xA0 ∨ 0xF0 ≤ second) ∧ third < 0xA0
deriving Decidable

section Descriptors

variable (components : buffer.getLast? ≠ some 0xA0) (descriptors : DescriptorsClear buffer)
include components descriptors

theorem reading_decodeUePolicyPart (inputLen : Nat) (policyInstruction : PolicyInstruction) :
    Reading buffer inputLen (decodeUePolicyPart buffer inputLen policyInstruction) := by
  refine reading_ite (fun _ => reading_pure) fun nonempty => ?_
  obtain ⟨len, rfl⟩ := Nat.exists_eq_add_of_le' (Nat.not_lt.mp nonempty)
  refine reading_next_bind fun uePolicyType => reading_ite (fun _ => ?_) fun _ => ?_
  · exact reading_skip.bind fun _ => reading_pure
  · refine ((reading_decodeUrspRules components descriptors len _).mono (Nat.zero_le _)).bind ?_
    exact fun _ => reading_pure

theorem reading_decodeInstruction (inputLen : Nat) (ordered : Nat × UePolicy) :
    Reading buffer inputLen (decodeInstruction buffer leftInMemory inputLen ordered) := by
  refine reading_ite (fun _ => reading_pure) fun nonempty => ?_
  obtain ⟨len, rfl⟩ := Nat.exists_eq_add_of_le' (Nat.not_lt.mp nonempty)
  refine reading_remaining_bind fun left => reading_getShort_bind fun upsc => ?_
  refine Reading.bind ?_ fun result => reading_ite (fun _ => reading_pure) fun _ => reading_pure
  exact (reading_decodeItems (reading_decodeUePolicyPart components descriptors)).mono
    (Nat.zero_le _)

theorem ends_decodePolicySection (enough : cursor.startIndex + inputLen ≤ buffer.length)
    (legible : 3 ≤ inputLen → Legible buffer cursor.startIndex) :
    Ends (decodePolicySection buffer leftInMemory inputLen decodeUePolicyMap) cursor
      fun _ => Advances buffer cursor := by
  refine ends_ite (fun _ => ⟨Nat.le_refl _, by omega⟩) fun three => ?_
  refine ends_next (by omega) fun first isFirst => ?_
  refine ends_next (by dsimp only; omega) fun second isSecond => ?_
  refine ends_next (by dsimp only; omega) fun third isThird => ?_
  obtain ⟨firstDecimal, secondDecimal, thirdDecimal⟩ :=
    legible (Nat.not_lt.mp three) first isFirst second isSecond third isThird
  obtain ⟨plmn, isPlmn⟩ := exists_plmnToString firstDecimal secondDecimal thirdDecimal
  rw [ends_bind]
  refine ends_lift isPlmn ?_
  refine (((reading_decodeItems (reading_decodeInstruction components descriptors)).bind
    fun outcome => reading_ite (fun _ => reading_pure) fun _ => reading_pure) _ ?_).mono ?_
  · dsimp only
    omega
  · intro _ after advances
    have beyond : cursor.startIndex + 1 + 1 + 1 ≤ after.startIndex := advances.le
    exact ⟨by omega, advances.inside⟩

end Descriptors

/-- The message says that it is a command with policy sections to its end. -/
def Announced (buffer : Bytes) : Prop :=
  (∃ low ∈ buffer[3]?, ∃ high ∈ buffer[4]?,
      (versionOf (high.toUInt16 <<< 8 ||| low.toUInt16)).isSome) ∧
    buffer[6]? = some 1 ∧ readNumber buffer 7 2 = some (buffer.length - 9)
deriving Decidable

/-- A section at a position is the first one, or fits into what the first one leaves of the
list. -/
def FitsList (buffer : Bytes) (pos subLen : Nat) : Prop :=
  pos = 9 ∨ ∀ firstLen ∈ readNumber buffer 9 2, subLen + firstLen + 13 ≤ buffer.length
deriving Decidable

/-- A message without the three faults. -/
@[mk_iff]
structure Sound (buffer : Bytes) : Prop where
  sections : ∀ pos < buffer.length, 9 ≤ pos → ∀ subLen ∈ readNumber buffer pos 2,
    3 ≤ subLen → pos + 2 + subLen ≤ buffer.length → FitsList buffer pos subLen →
      Legible buffer (pos + 2)
  components : buffer.getLast? ≠ some 0xA0
  descriptors : DescriptorsClear buffer

instance decidableSound (buffer : Bytes) : Decidable (Sound buffer) :=
  decidable_of_iff _ (sound_iff buffer).symm

theorem ends_decodePolicySectionList
    (sound : readNumber buffer 7 2 = some (buffer.length - 9) → Sound buffer)
    (decodeUePolicyMap : UePolicyMap) (place : cursor.startIndex = 7) (long : 9 ≤ buffer.length) :
    Ends (decodePolicySectionList buffer leftInMemory (buffer.length - 7) decodeUePolicyMap) cursor
      fun _ => Advances buffer cursor := by
  unfold decodePolicySectionList
  refine ends_getLength (by omega) fun subLen isSubLen => ?_
  rw [place] at isSubLen
  have advances : Advances buffer cursor { cursor with startIndex := cursor.startIndex + 2 } :=
    ⟨Nat.le_add_right _ _, by dsimp only; omega⟩
  refine ends_ite (fun _ => advances) fun same => ?_
  obtain ⟨sections, components, descriptors⟩ := sound (isSubLen.trans (congrArg some (by omega)))
  refine (ends_decodeItems_round advances.inside ?_).mono fun _ _ => advances.trans
  rw [place]
  intro firstLen isFirstLen enough fits
  refine (ends_decodePolicySection components descriptors enough fun three =>
    sections 9 (by omega) (Nat.le_refl _) firstLen isFirstLen three enough (.inl rfl)).mono ?_
  intro outcome after first
  have beyond : 11 ≤ after.startIndex := first.le
  refine ⟨⟨by dsimp only; omega, first.inside⟩, ?_⟩
  -- A later section fits into what the first one has left of the list.
  refine ends_decodeItems ?_ (Nat.le_refl _) _
    beyond first.inside
  intro pos subLen result cursor later isLater here laterEnough laterFits
  refine ends_decodePolicySection components descriptors laterEnough fun three => ?_
  rw [here] at laterEnough ⊢
  refine sections pos (by omega) (by omega) subLen isLater three laterEnough (.inr ?_)
  intro otherLen isOtherLen
  obtain rfl := Option.some_inj.mp (isFirstLen.symm.trans isOtherLen)
  omega

theorem ends_decodeUrspFromUnsolData (sound : Announced buffer → Sound buffer)
    (long : 3 ≤ buffer.length) :
    Ends (decodeUrspFromUnsolData buffer leftInMemory) { startIndex := 3, config := config }
      fun _ after => after.startIndex ≤ buffer.length := by
  unfold decodeUrspFromUnsolData
  refine ends_ite (fun _ => long) fun enough => ?_
  have five : 5 ≤ buffer.length := by
    have left := (not_or.mp enough).2
    dsimp only at left
    omega
  refine ends_getShort five fun low high isLow isHigh => ?_
  rw [if_pos rfl]
  cases isVersion : versionOf (high.toUInt16 <<< 8 ||| low.toUInt16) with
  | none => exact five
  | some version =>
    dsimp only
    refine ends_ite (fun _ => five) fun enoughHeader => ?_
    refine ends_next (by dsimp only; omega) fun pti _ => ?_
    refine ends_next (by dsimp only; omega) fun type isType => ?_
    refine ends_ite (fun _ => ?_) fun command => ?_
    · rw [ends_pure]
      dsimp only
      omega
    rw [ends_bind]
    have inputLen : (buffer.length : Int) - (3 : Nat) - 4 = buffer.length - 7 := by omega
    rw [inputLen]
    refine (ends_decodePolicySectionList ?_ ∅ rfl (by omega)).mono fun outcome after advances =>
      advances.inside
    intro isLen
    refine sound ⟨⟨low, isLow, high, isHigh, ?_⟩, ?_, isLen⟩
    · rw [isVersion]
      rfl
    · rw [← not_not.mp command]
      exact isType

end Sections

end NetManager.Slice
