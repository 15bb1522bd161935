import Mathlib.Data.BitVec
import Mathlib.Data.Rat.Floor
import Mathlib.Tactic.Linarith
import Mathlib.Tactic.Ring

/-!
# Timespecs and NTP Timestamps

The functions of `util.c` on `struct timespec`, and the conversion of NTP timestamps to
them. An NTP timestamp in host order is a 64-bit number of units of `2 ^ -32` seconds.
The fields of a timespec are integers without overflow.
-/

namespace Chrony

/-- `struct timespec`. -/
structure Timespec where
  sec : ℤ
  nsec : ℤ
  deriving DecidableEq, Repr, Inhabited

/-- `NTP_Timestamp_Source`. -/
inductive TimestampSource
  | daemon
  | kernel
  | hardware
  deriving DecidableEq, Repr

/-- `NSEC_PER_SEC`. -/
def nsecPerSec : ℤ := 1000000000

/-- `UTI_CompareNtp64`. The difference of the seconds is converted to `int32_t`. -/
def compareNtp64 (a b : BitVec 64) : ℤ :=
  if a = b then 0
  else
    let diff := (a.extractLsb' 32 32 - b.extractLsb' 32 32).toInt
    if diff < 0 then -1
    else if diff > 0 then 1
    else if a.extractLsb' 0 32 < b.extractLsb' 0 32 then -1 else 1

namespace Timespec

/-- The time in nanoseconds. -/
def toNsec (ts : Timespec) : ℤ :=
  ts.sec * nsecPerSec + ts.nsec

/-- The nanoseconds are less than a second. -/
def Normal (ts : Timespec) : Prop :=
  0 ≤ ts.nsec ∧ ts.nsec < nsecPerSec

/-- `UTI_ZeroTimespec`. -/
def zero : Timespec := ⟨0, 0⟩

/-- `UTI_CompareTimespecs`. -/
def compare (a b : Timespec) : ℤ :=
  if a.sec < b.sec then -1
  else if a.sec > b.sec then 1
  else if a.nsec < b.nsec then -1
  else if a.nsec > b.nsec then 1
  else 0

/-- `UTI_NormaliseTimespec`. The division of the source truncates. -/
def normalise (ts : Timespec) : Timespec :=
  if ts.nsec ≥ nsecPerSec ∨ ts.nsec < 0 then
    let sec := ts.sec + ts.nsec.tdiv nsecPerSec
    let nsec := ts.nsec.tmod nsecPerSec
    if nsec < 0 then ⟨sec - 1, nsec + nsecPerSec⟩ else ⟨sec, nsec⟩
  else ts

/-- `UTI_DiffTimespecs`. -/
def diff (a b : Timespec) : Timespec :=
  normalise ⟨a.sec - b.sec, a.nsec - b.nsec⟩

/-- The conversion of a real number to an integer. -/
def trunc (x : ℚ) : ℤ :=
  if x < 0 then ⌈x⌉ else ⌊x⌋

/-- `UTI_AddDoubleToTimespec`. -/
def addDouble (start : Timespec) (increment : ℚ) : Timespec :=
  let intPart := trunc increment
  normalise ⟨start.sec + intPart, trunc (start.nsec + 1000000000 * (increment - intPart))⟩

/-- `UTI_DiffTimespecsToDouble`. -/
def diffToDouble (a b : Timespec) : ℚ :=
  (a.toNsec - b.toNsec : ℤ) / 1000000000

/-- `UTI_AdjustTimespec`. -/
def adjust (old cooked : Timespec) (dfreq doffset : ℚ) : Timespec :=
  old.addDouble (cooked.diffToDouble old * dfreq - doffset)

/-- `JAN_1970`. -/
def jan1970 : ℤ := 0x83aa7e80

/-- `UTI_Ntp64ToTimespec`, with `NTP_ERA_SPLIT`. -/
def ofNtp64 (eraSplit : ℤ) (src : BitVec 64) : Timespec :=
  if src = 0 then zero
  else
    let ntpSec : BitVec 32 := (src >>> 32).setWidth 32
    let ntpFrac : BitVec 32 := src.setWidth 32
    ⟨(ntpSec - BitVec.ofInt 32 (eraSplit + jan1970)).toNat + eraSplit,
      ntpFrac.toNat * nsecPerSec / 2 ^ 32⟩

theorem normalise_normal (ts : Timespec) : (normalise ts).Normal := by
  have h1 := Int.tmod_add_mul_tdiv ts.nsec nsecPerSec
  have h2 : ts.nsec.tmod nsecPerSec < nsecPerSec := Int.tmod_lt_of_pos _ (by decide)
  have h3 : -nsecPerSec < ts.nsec.tmod nsecPerSec := by
    have := Int.lt_tmod_of_pos ts.nsec (show (0 : ℤ) < nsecPerSec by decide)
    omega
  rw [normalise]
  unfold Normal
  split
  · dsimp only
    split
    · dsimp only
      omega
    · dsimp only
      omega
  · omega

theorem toNsec_normalise (ts : Timespec) : (normalise ts).toNsec = ts.toNsec := by
  have h1 := Int.tmod_add_mul_tdiv ts.nsec nsecPerSec
  have h2 : ∀ a b : ℤ, (a + b) * nsecPerSec = a * nsecPerSec + nsecPerSec * b := by
    intro a b
    rw [Int.add_mul, Int.mul_comm b]
  have h3 : ∀ a b : ℤ, (a + b - 1) * nsecPerSec =
      a * nsecPerSec + nsecPerSec * b - nsecPerSec := by
    intro a b
    rw [Int.sub_mul, h2, Int.one_mul]
  rw [normalise]
  unfold toNsec
  split
  · dsimp only
    split
    · dsimp only
      rw [h3]
      omega
    · dsimp only
      rw [h2]
      omega
  · rfl

theorem diff_normal (a b : Timespec) : (diff a b).Normal :=
  normalise_normal _

theorem toNsec_diff (a b : Timespec) : (diff a b).toNsec = a.toNsec - b.toNsec := by
  rw [diff, toNsec_normalise]
  unfold toNsec
  dsimp only
  rw [Int.sub_mul]
  omega

/-- A normal timespec is determined by its time. -/
theorem Normal.eq {a b : Timespec} (ha : a.Normal) (hb : b.Normal)
    (h : a.toNsec = b.toNsec) : a = b := by
  obtain ⟨as, an⟩ := a
  obtain ⟨bs, bn⟩ := b
  unfold Normal nsecPerSec at ha hb
  unfold toNsec nsecPerSec at h
  dsimp only at ha hb h
  obtain ⟨rfl, rfl⟩ : as = bs ∧ an = bn := by omega
  rfl

/-- The order of normal timespecs is that of their times. -/
theorem compare_neg_iff {a b : Timespec} (ha : a.Normal) (hb : b.Normal) :
    a.compare b < 0 ↔ a.toNsec < b.toNsec := by
  unfold Normal nsecPerSec at ha hb
  unfold compare toNsec nsecPerSec
  split_ifs <;> omega

theorem ofNtp64_normal (eraSplit : ℤ) (src : BitVec 64) : (ofNtp64 eraSplit src).Normal := by
  rw [ofNtp64]
  split
  · exact ⟨by decide, by decide⟩
  · have hlt := (src.setWidth 32 : BitVec 32).isLt
    unfold Normal nsecPerSec
    dsimp only
    omega

end Timespec

end Chrony
