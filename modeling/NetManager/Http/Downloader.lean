import Mathlib.Data.List.Basic

/-!
# Download progress

The downloader of the Rust client hands each chunk of a body to an operator, which may take
only a part of what it is offered, and tells it how many bytes have been downloaded. An error
of the operator or of the body, or a time limit, ends a download early and changes nothing of
what has been shown; the model has the first downloads of a downloader, run to their end.
-/

namespace NetManager.Http

open List

/-- A `DownloadOperator` that takes a positive part of what it is offered. -/
structure DownloadOperator where
  /-- How much of the data the call of this number takes. -/
  download : Nat → List UInt8 → Nat
  part : ∀ call {data}, data ≠ [] → 0 < download call data ∧ download call data ≤ data.length

structure DownloadInfo where
  /-- The calls of `download` so far. -/
  calls : Nat := 0
  /-- The bytes the operator has taken. -/
  accepted : Nat := 0
  downloadedBytes : UInt64 := 0
  /-- The values passed to `progress`, with the bytes taken at that time. -/
  shown : List (UInt64 × Nat) := []

namespace DownloadInfo

def showProgress (info : DownloadInfo) : DownloadInfo :=
  { info with shown := info.shown ++ [(info.downloadedBytes, info.accepted)] }

/-- Each value passed to `progress` is the number of bytes taken so far. -/
def Right (info : DownloadInfo) : Prop := ∀ entry ∈ info.shown, entry.1.toNat = entry.2

theorem Right.of_prefix {info after : DownloadInfo} (right : Right after)
    (shown : info.shown <+: after.shown) : Right info :=
  fun entry member => right entry (shown.subset member)

theorem right_showProgress_iff {info : DownloadInfo} :
    info.showProgress.Right ↔ info.Right ∧ info.downloadedBytes.toNat = info.accepted := by
  simp [showProgress, Right, or_imp, forall_and]

end DownloadInfo

namespace Downloader

variable (operator : DownloadOperator)

/-- One round of the inner loop: `rest` of a chunk is offered. -/
def offer (data rest : List UInt8) (info : DownloadInfo) : DownloadInfo :=
  { info with
    calls := info.calls + 1
    accepted := info.accepted + operator.download info.calls rest
    downloadedBytes := info.downloadedBytes + UInt64.ofNat data.length }.showProgress

/-- The inner loop, for what is left of a chunk. -/
def writeRest (data rest : List UInt8) (info : DownloadInfo) : DownloadInfo :=
  if nonempty : rest = [] then info
  else
    have := operator.part info.calls nonempty
    writeRest data (rest.drop (operator.download info.calls rest)) (offer operator data rest info)
termination_by rest.length
decreasing_by
  rw [length_drop]
  omega

/-- The loop over the chunks. -/
def limitedDownload : List (List UInt8) → DownloadInfo → DownloadInfo
  | [], info => info.showProgress
  | data :: chunks, info => limitedDownload chunks (writeRest operator data data info)

variable (chunks : List (List UInt8))

def download : DownloadInfo :=
  limitedDownload operator chunks (DownloadInfo.showProgress {})

/-- All values are right, and the last one is the length of all chunks. -/
def ShowsProgress : Prop :=
  (download operator chunks).Right ∧
    (download operator chunks).shown.getLast?.map (·.1.toNat) = some chunks.flatten.length

theorem writeRest_spec (data rest : List UInt8) (info : DownloadInfo) :
    (writeRest operator data rest info).accepted = info.accepted + rest.length ∧
      info.shown <+: (writeRest operator data rest info).shown := by
  rw [writeRest]
  split
  next empty =>
    rw [empty]
    exact ⟨rfl, prefix_rfl⟩
  next nonempty =>
    have isPart := operator.part info.calls nonempty
    obtain ⟨accepted, shown⟩ := writeRest_spec data
      (rest.drop (operator.download info.calls rest)) (offer operator data rest info)
    refine ⟨?_, (prefix_append ..).trans shown⟩
    rw [accepted, length_drop]
    change info.accepted + operator.download info.calls rest + _ = _
    omega
termination_by rest.length
decreasing_by
  rw [length_drop]
  omega

theorem limitedDownload_spec (info : DownloadInfo) :
    info.shown <+: (limitedDownload operator chunks info).shown ∧
      ∃ value, (limitedDownload operator chunks info).shown.getLast? =
        some (value, info.accepted + chunks.flatten.length) := by
  induction chunks generalizing info with
  | nil => exact ⟨prefix_append .., info.downloadedBytes, getLast?_concat⟩
  | cons data chunks ih =>
    obtain ⟨accepted, shown⟩ := writeRest_spec operator data data info
    obtain ⟨later, value, last⟩ := ih (writeRest operator data data info)
    refine ⟨shown.trans later, value, last.trans ?_⟩
    rw [accepted, flatten_cons, length_append, Nat.add_assoc]

section

variable {info : DownloadInfo} (level : info.downloadedBytes.toNat = info.accepted)
include level

theorem toNat_add_length {data : List UInt8} (small : info.accepted + data.length < UInt64.size) :
    (info.downloadedBytes + UInt64.ofNat data.length).toNat = info.accepted + data.length := by
  rw [UInt64.toNat_add, UInt64.toNat_ofNat', level, Nat.add_mod_mod, Nat.mod_eq_of_lt small]

theorem right_offer_iff (small : info.accepted + data.length < UInt64.size) :
    (offer operator data data info).Right ↔
      info.Right ∧ operator.download info.calls data = data.length := by
  refine DownloadInfo.right_showProgress_iff.trans (and_congr_right fun _ => ?_)
  change (info.downloadedBytes + _).toNat = info.accepted + _ ↔ _
  rw [toNat_add_length level small]
  omega

theorem right_limitedDownload_iff (small : info.accepted + chunks.flatten.length < UInt64.size) :
    (limitedDownload operator chunks info).Right ↔
      info.Right ∧ ∀ call chunk, (chunks.filter (· ≠ []))[call]? = some chunk →
        operator.download (info.calls + call) chunk = chunk.length := by
  induction chunks generalizing info with
  | nil => simp [limitedDownload, DownloadInfo.right_showProgress_iff, level]
  | cons data chunks ih =>
    rw [flatten_cons, length_append, ← Nat.add_assoc] at small
    rw [limitedDownload, writeRest]
    split
    next empty =>
      rw [filter_cons_of_neg (by simpa using empty)]
      exact ih level (by omega)
    next nonempty =>
      have room : info.accepted + data.length < UInt64.size := by omega
      have offered := right_offer_iff operator level room
      rw [filter_cons_of_pos (by simpa using nonempty), ← Nat.and_forall_add_one]
      simp only [getElem?_cons_zero, getElem?_cons_succ, Option.some.injEq, forall_eq']
      rw [← and_assoc, Nat.add_zero, ← offered]
      by_cases whole : operator.download info.calls data = data.length
      · have accepted : (offer operator data data info).accepted = info.accepted + data.length :=
          congrArg _ whole
        have next := (toNat_add_length level room).trans accepted.symm
        rw [whole, drop_length, writeRest, dif_pos rfl, ih next (accepted ▸ small)]
        refine and_congr_right fun _ => forall_congr' fun call => ?_
        rw [← Nat.add_assoc, Nat.add_right_comm]
        rfl
      · refine iff_of_false (fun right => whole (offered.mp ?_).2) fun both =>
          whole (offered.mp both.1).2
        have middle := right.of_prefix (limitedDownload_spec operator chunks _).1
        exact middle.of_prefix (writeRest_spec operator data _ _).2

end

/-- Progress is right for the bodies whose chunks are all taken whole and whose length fits into
the counter, and for no others. -/
theorem showsProgress_iff :
    ShowsProgress operator chunks ↔
      chunks.flatten.length < UInt64.size ∧
        ∀ call chunk, (chunks.filter (· ≠ []))[call]? = some chunk →
          operator.download call chunk = chunk.length := by
  have first : (DownloadInfo.showProgress {}).Right :=
    DownloadInfo.right_showProgress_iff.mpr ⟨fun _ member => absurd member not_mem_nil, rfl⟩
  obtain ⟨-, value, last⟩ := limitedDownload_spec operator chunks (DownloadInfo.showProgress {})
  have total (right : (download operator chunks).Right) : value.toNat = chunks.flatten.length :=
    (right _ (mem_of_getLast? last)).trans (Nat.zero_add _)
  have right (small : chunks.flatten.length < UInt64.size) : (download operator chunks).Right ↔ _ :=
    right_limitedDownload_iff operator chunks rfl ((Nat.zero_add _).symm ▸ small)
  constructor
  · rintro ⟨rights, -⟩
    have small : chunks.flatten.length < UInt64.size := total rights ▸ value.toNat_lt
    exact ⟨small, by simpa [DownloadInfo.showProgress] using ((right small).mp rights).2⟩
  · rintro ⟨small, whole⟩
    have rights : (download operator chunks).Right :=
      (right small).mpr ⟨first, by simpa [DownloadInfo.showProgress] using whole⟩
    exact ⟨rights, (congrArg (Option.map (·.1.toNat)) last).trans (congrArg some (total rights))⟩

/-- An operator that takes one byte at a time. -/
def bytewise : DownloadOperator where
  download _ _ := 1
  part _ _ nonempty := ⟨Nat.one_pos, length_pos_iff.mpr nonempty⟩

/-- A chunk that is taken in two parts is counted twice. -/
theorem not_showsProgress_bytewise :
    (download bytewise [[1, 2]]).shown = [(0, 0), (2, 1), (4, 2), (4, 2)] ∧
      ¬ ShowsProgress bytewise [[1, 2]] := by
  have shown : (download bytewise [[1, 2]]).shown = [(0, 0), (2, 1), (4, 2), (4, 2)] := by
    decide +kernel
  refine ⟨shown, fun shows => ?_⟩
  have right := shows.1 (2, 1) (by simp [shown])
  cases right

end Downloader

end NetManager.Http
