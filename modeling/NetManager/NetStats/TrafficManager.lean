import Mathlib.Algebra.GroupWithZero.Nat
import Mathlib.Data.List.Induction
import NetManager.Library.Numeral

/-!
# The counters of the interfaces

`TrafficManager` adds up and returns the counters under `/sys/class/net`. It reads
`sizeof(long)` bytes of each of them, so what it returns is exact where each counter has
at most eight digits or only zeros.
-/

namespace NetManager.NetStats

open List

/-- `/sys/class/net`, as a process with a `long` of eight bytes sees it. -/
structure ClassNet where
  /-- The entries, where the directory is opened. -/
  dir : Option (List String)
  /-- The text at a path, where it is opened and read. -/
  text : String → Option (List Char)
  ifNametoindex : String → UInt32

inductive CounterType
  | rxBytes
  | rxPackets
  | txBytes
  | txPackets

def CounterType.file : CounterType → String
  | .rxBytes => "rx_bytes"
  | .rxPackets => "rx_packets"
  | .txBytes => "tx_bytes"
  | .txPackets => "tx_packets"

structure TrafficStatsParcel where
  iface : String
  ifIndex : UInt32
  rxBytes : Int
  rxPackets : Int
  txBytes : Int
  txPackets : Int

/-- `atol` of a text whose number is a `long`. -/
def atol (text : List Char) : Int :=
  let magnitude (digits : List Char) : Int := (Numeral.readDigits 10 digits).getD 0
  match text.dropWhile Numeral.isSpace with
  | '-' :: digits => -magnitude digits
  | '+' :: digits => magnitude digits
  | digits => magnitude digits

/-- The directory of the counters of an interface. -/
def baseTrafficPath (name : String) : String := "/sys/class/net/" ++ name ++ "/statistics/"

namespace ClassNet

variable (net : ClassNet)

def getInterfaceList : List String :=
  (net.dir.getD []).filter fun name => name ≠ "." ∧ name ≠ ".."

def getInterfaceTrafficByType (path : String) (type : CounterType) : Int :=
  if path = "" then -1
  else match net.text (path ++ type.file) with
    | none => -1
    | some text => atol (text.take 8)

/-- The loop of `GetAllRxTraffic` and `GetAllTxTraffic`. -/
def getAllTraffic (type : CounterType) : Int :=
  net.getInterfaceList.foldl (fun allBytes name =>
    if name ≠ "lo" then
      let bytes := net.getInterfaceTrafficByType (baseTrafficPath name) type
      if 0 ≤ bytes then (allBytes + bytes).bmod (2 ^ 64) else allBytes
    else allBytes) 0

def getAllRxTraffic : Int := net.getAllTraffic .rxBytes

def getAllTxTraffic : Int := net.getAllTraffic .txBytes

/-- A counter of an interface, or zero where there is none. -/
def counter (name : String) (type : CounterType) : Int :=
  let value := net.getInterfaceTrafficByType (baseTrafficPath name) type
  if value = -1 then 0 else value

def getInterfaceTraffic (ifName : String) : TrafficStatsParcel :=
  net.getInterfaceList.foldl (fun parcel name =>
    if ifName ≠ name then parcel
    else ⟨ifName, net.ifNametoindex ifName, net.counter name .rxBytes,
      net.counter name .rxPackets, net.counter name .txBytes, net.counter name .txPackets⟩)
    ⟨"", 0, 0, 0, 0, 0⟩

/-- What the numbers of all interfaces but `lo` add up to. -/
def total (number : String → Nat) : Nat :=
  ((net.getInterfaceList.filter (· ≠ "lo")).map number).sum

end ClassNet

/-- Counters whose texts are decimal numbers, each followed by a newline. -/
structure Counters extends ClassNet where
  digits : String → CounterType → List Char
  allDigits : ∀ name type, ∀ digit ∈ digits name type, digit.isDigit
  text_eq : ∀ name ∈ toClassNet.getInterfaceList, ∀ type,
    text (baseTrafficPath name ++ type.file) = some (digits name type ++ ['\n'])
  total_lt : ∀ type ∈ [.rxBytes, .txBytes],
    toClassNet.total (fun name => Nat.ofDigitChars 10 (digits name type) 0) < 2 ^ 63

namespace Counters

variable (net : Counters) (name : String) (type : CounterType)

def value : Nat := Nat.ofDigitChars 10 (net.digits name type) 0

/-- The number in the first eight bytes of a text. -/
def read : Nat := Nat.ofDigitChars 10 ((net.digits name type).take 8) 0

/-- The functions return the totals and the counters. -/
structure Exact : Prop where
  allRx : net.getAllRxTraffic = net.total (net.value · .rxBytes)
  allTx : net.getAllTxTraffic = net.total (net.value · .txBytes)
  interface : ∀ name ∈ net.getInterfaceList, net.getInterfaceTraffic name =
    ⟨name, net.ifNametoindex name, net.value name .rxBytes, net.value name .rxPackets,
      net.value name .txBytes, net.value name .txPackets⟩

end Counters

theorem atol_append (allDigits : ∀ digit ∈ digits, digit.isDigit = true) :
    atol (digits ++ ['\n'].take room) = Nat.ofDigitChars 10 digits 0 := by
  have ends : (['\n'].take room).takeWhile (Numeral.isDigitOf 10) = [] := by
    cases room <;> rfl
  have number := Numeral.readDigits_append allDigits ends
  cases digits with
  | nil => cases room <;> simp [atol, Numeral.isSpace, Numeral.readDigits]
  | cons first rest =>
    have isDigit := allDigits first (by simp)
    rw [atol, cons_append, dropWhile_cons_of_neg (Numeral.not_isSpace_of_isDigit isDigit)]
    split <;> simp_all

/-- A loop that adds in a `long` ends with the remainder of the sum. -/
theorem foldl_add_bmod (number : String → Nat) (names : List String) :
    names.foldl (fun allBytes name => Int.bmod (allBytes + number name) size) 0 =
      Int.bmod (names.map number).sum size := by
  induction names using reverseRecOn with
  | nil => simp
  | append_singleton names name ih => simp [ih]

namespace Counters

variable {net : Counters} {name : String} {type : CounterType}

/-- What is read is the counter unless a digit that counts is left out. -/
theorem read_eq_value_iff : net.read name type = net.value name type ↔
    (net.digits name type).length ≤ 8 ∨ net.value name type = 0 := by
  have whole : net.value name type =
      10 ^ ((net.digits name type).drop 8).length * net.read name type +
        Nat.ofDigitChars 10 ((net.digits name type).drop 8) 0 := by
    rw [← Nat.ofDigitChars_eq_ofDigitChars_zero, read, ← Nat.ofDigitChars_append,
      take_append_drop, value]
  by_cases short : (net.digits name type).length ≤ 8
  · simp [whole, drop_eq_nil_of_le short, short]
  · have large : 10 ≤ 10 ^ ((net.digits name type).drop 8).length :=
      Nat.le_self_pow (by simp; omega) 10
    have := Nat.mul_le_mul_right (net.read name type) large
    omega

theorem getInterfaceTrafficByType_eq (member : name ∈ net.getInterfaceList) :
    net.getInterfaceTrafficByType (baseTrafficPath name) type = net.read name type := by
  have path : baseTrafficPath name ≠ "" := by simp [baseTrafficPath]
  rw [ClassNet.getInterfaceTrafficByType, if_neg path, net.text_eq name member type]
  simp only [take_append]
  exact atol_append fun digit taken => net.allDigits name type digit (mem_of_mem_take taken)

theorem getAllTraffic_eq :
    net.getAllTraffic type = (net.total (net.read · type) : Int).bmod (2 ^ 64) := by
  have loop : net.getAllTraffic type = (net.getInterfaceList.filter (· ≠ "lo")).foldl
      (fun allBytes name => Int.bmod (allBytes + net.read name type) (2 ^ 64)) 0 := by
    rw [foldl_filter]
    apply foldl_ext
    intro allBytes name member
    simp [getInterfaceTrafficByType_eq member]
  rw [loop, foldl_add_bmod, ClassNet.total]

theorem getInterfaceTraffic_eq (member : name ∈ net.getInterfaceList) :
    net.getInterfaceTraffic name =
      ⟨name, net.ifNametoindex name, net.read name .rxBytes, net.read name .rxPackets,
        net.read name .txBytes, net.read name .txPackets⟩ := by
  have counter type : net.counter name type = net.read name type := by
    rw [ClassNet.counter, getInterfaceTrafficByType_eq member]
    exact if_neg (by omega)
  unfold ClassNet.getInterfaceTraffic
  generalize net.getInterfaceList = names at member ⊢
  induction names using reverseRecOn with
  | nil => simp at member
  | append_singleton names last ih =>
    by_cases same : name = last
    · simp [← same, counter]
    · simp_all

theorem exact_iff_digits : net.Exact ↔ ∀ name ∈ net.getInterfaceList, ∀ type,
    (net.digits name type).length ≤ 8 ∨ net.value name type = 0 := by
  simp only [← read_eq_value_iff]
  constructor
  · intro exact name member type
    have same := exact.interface name member
    rw [getInterfaceTraffic_eq member] at same
    simp only [TrafficStatsParcel.mk.injEq] at same
    cases type <;> omega
  · intro same
    have total type (bytes : type ∈ [.rxBytes, .txBytes]) :
        net.getAllTraffic type = net.total (net.value · type) := by
      have below : net.total (net.value · type) < 2 ^ 63 := net.total_lt type bytes
      have equal : net.total (net.read · type) = net.total (net.value · type) := by
        rw [ClassNet.total, ClassNet.total, map_congr_left]
        exact fun name member => same name (mem_of_mem_filter member) type
      rw [getAllTraffic_eq, equal]
      exact Int.bmod_eq_of_le_mul_two (by omega) (by omega)
    refine ⟨total _ (by simp), total _ (by simp), fun name member => ?_⟩
    simp only [getInterfaceTraffic_eq member, same name member]

/-- An interface whose counters are all a hundred million. -/
def hundredMillion : Counters where
  dir := some ["eth0"]
  text _ := some "100000000\n".toList
  ifNametoindex _ := 2
  digits _ _ := "100000000".toList
  allDigits _ _ := by simp
  text_eq _ _ _ := rfl
  total_lt := by decide

theorem not_exact_hundredMillion : ¬ hundredMillion.Exact := by
  intro exact
  have same : (10000000 : Int) = 100000000 := exact.allRx
  omega

end Counters

end NetManager.NetStats
