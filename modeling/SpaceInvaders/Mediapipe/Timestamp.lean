import Mathlib.Order.Basic
import Mathlib.Algebra.Order.BigOperators.Group.List
import Mathlib.Algebra.Order.Ring.Int
import SpaceInvaders.Library.Decimal

namespace SpaceInvaders.Mediapipe

-- A result of int64 arithmetic, none where it does not fit.
def int64 (value : Int) : Option Int :=
  if -9223372036854775808 ≤ value ∧ value ≤ 9223372036854775807 then some value else none

-- mediapipe::TimestampDiff
@[ext] structure TimestampDiff where
  value : Int
  hmin : -9223372036854775808 ≤ value
  hmax : value ≤ 9223372036854775807
  deriving DecidableEq

-- mediapipe::Timestamp. The special values lie at the two ends of the range.
@[ext] structure Timestamp where
  value : Int
  hmin : -9223372036854775808 ≤ value
  hmax : value ≤ 9223372036854775807
  deriving DecidableEq

-- The safe integer type stops the program where a value does not fit.
def TimestampDiff.ofInt (value : Int) : Option TimestampDiff :=
  if h : -9223372036854775808 ≤ value ∧ value ≤ 9223372036854775807 then
    some ⟨value, h.1, h.2⟩
  else
    none

namespace Timestamp

instance : LinearOrder Timestamp := LinearOrder.lift' value fun _ _ => Timestamp.ext

theorem le_iff (a b : Timestamp) : a ≤ b ↔ a.value ≤ b.value := Iff.rfl

theorem lt_iff (a b : Timestamp) : a < b ↔ a.value < b.value := Iff.rfl

def unset : Timestamp := ⟨-9223372036854775808, by omega, by omega⟩

def unstarted : Timestamp := ⟨-9223372036854775807, by omega, by omega⟩

def preStream : Timestamp := ⟨-9223372036854775806, by omega, by omega⟩

protected def min : Timestamp := ⟨-9223372036854775805, by omega, by omega⟩

protected def max : Timestamp := ⟨9223372036854775804, by omega, by omega⟩

def postStream : Timestamp := ⟨9223372036854775805, by omega, by omega⟩

def oneOverPostStream : Timestamp := ⟨9223372036854775806, by omega, by omega⟩

def done : Timestamp := ⟨9223372036854775807, by omega, by omega⟩

@[simp] theorem value_unset : unset.value = -9223372036854775808 := rfl

@[simp] theorem value_unstarted : unstarted.value = -9223372036854775807 := rfl

@[simp] theorem value_preStream : preStream.value = -9223372036854775806 := rfl

@[simp] theorem value_min : Timestamp.min.value = -9223372036854775805 := rfl

@[simp] theorem value_max : Timestamp.max.value = 9223372036854775804 := rfl

@[simp] theorem value_postStream : postStream.value = 9223372036854775805 := rfl

@[simp] theorem value_oneOverPostStream : oneOverPostStream.value = 9223372036854775806 := rfl

@[simp] theorem value_done : done.value = 9223372036854775807 := rfl

abbrev IsSpecialValue (timestamp : Timestamp) : Prop :=
  timestamp ≤ Timestamp.min ∨ Timestamp.max ≤ timestamp

abbrev IsRangeValue (timestamp : Timestamp) : Prop :=
  Timestamp.min ≤ timestamp ∧ timestamp ≤ Timestamp.max

abbrev IsAllowedInStream (timestamp : Timestamp) : Prop :=
  preStream ≤ timestamp ∧ timestamp ≤ postStream

-- The constructor CHECKs that the value is not special.
def ofInt64 (value : Int) : Option Timestamp :=
  if h : -9223372036854775808 ≤ value ∧ value ≤ 9223372036854775807 then
    if IsSpecialValue ⟨value, h.1, h.2⟩ then none else some ⟨value, h.1, h.2⟩
  else
    none

-- The differences in these two are of plain int64 values.
def reachesMax (timestamp : Timestamp) (offset : TimestampDiff) : Option Bool :=
  if 0 ≤ offset.value then
    (int64 (Timestamp.max.value - offset.value)).map (decide <| · ≤ timestamp.value)
  else
    some false

def reachesMin (timestamp : Timestamp) (offset : TimestampDiff) : Option Bool :=
  if offset.value ≤ 0 then
    (int64 (Timestamp.min.value - offset.value)).map (decide <| timestamp.value ≤ ·)
  else
    some false

def add (timestamp : Timestamp) (offset : TimestampDiff) : Option Timestamp :=
  if timestamp.IsRangeValue then do
    if ← timestamp.reachesMax offset then
      return Timestamp.max
    else if ← timestamp.reachesMin offset then
      return Timestamp.min
    else
      ofInt64 (timestamp.value + offset.value)
  else
    none

-- The safe integer type also checks the negation.
def sub (timestamp : Timestamp) (offset : TimestampDiff) : Option Timestamp :=
  (TimestampDiff.ofInt (-offset.value)).bind timestamp.add

-- The difference of two timestamps.
def diff (timestamp other : Timestamp) : Option TimestampDiff :=
  if timestamp.IsRangeValue ∧ other.IsRangeValue then
    TimestampDiff.ofInt (timestamp.value - other.value)
  else
    none

theorem int64_eq_some (value : Int)
    (h : -9223372036854775808 ≤ value ∧ value ≤ 9223372036854775807) : int64 value = some value :=
  if_pos h

theorem ofInt64_eq_some (timestamp : Timestamp) (hmin : Timestamp.min < timestamp)
    (hmax : timestamp < Timestamp.max) : ofInt64 timestamp.value = some timestamp := by
  rw [ofInt64, dif_pos ⟨timestamp.hmin, timestamp.hmax⟩, if_neg]
  exact not_or.mpr ⟨not_le.mpr hmin, not_le.mpr hmax⟩

-- The plain differences never overflow, since each is taken on one side of zero only.
theorem reachesMax_eq (timestamp : Timestamp) (offset : TimestampDiff) :
    timestamp.reachesMax offset =
      some (decide (0 ≤ offset.value ∧ Timestamp.max.value ≤ timestamp.value + offset.value)) := by
  have hoffset := offset.hmax
  by_cases h : 0 ≤ offset.value
  · rw [reachesMax, if_pos h, int64_eq_some _ (by simp; omega), Option.map_some]
    exact congrArg some (decide_eq_decide.mpr (by omega))
  · rw [reachesMax, if_neg h]
    simp [h]

theorem reachesMin_eq (timestamp : Timestamp) (offset : TimestampDiff) :
    timestamp.reachesMin offset =
      some (decide (offset.value ≤ 0 ∧ timestamp.value + offset.value ≤ Timestamp.min.value)) := by
  have hoffset := offset.hmin
  by_cases h : offset.value ≤ 0
  · rw [reachesMin, if_pos h, int64_eq_some _ (by simp; omega), Option.map_some]
    exact congrArg some (decide_eq_decide.mpr (by omega))
  · rw [reachesMin, if_neg h]
    simp [h]

-- The range value that is nearest to the given one.
def clamp (value : Int) : Timestamp :=
  ⟨max (-9223372036854775805) (min 9223372036854775804 value), by omega, by omega⟩

theorem clamp_value (value : Int) :
    (clamp value).value = max (-9223372036854775805) (min 9223372036854775804 value) := rfl

theorem clamp_isRangeValue (value : Int) : (clamp value).IsRangeValue := by
  simp only [IsRangeValue, le_iff, clamp_value, value_min, value_max]
  omega

theorem add_eq_clamp (timestamp : Timestamp) (offset : TimestampDiff)
    (hrange : timestamp.IsRangeValue) :
    timestamp.add offset = some (clamp (timestamp.value + offset.value)) := by
  have hlow : -9223372036854775805 ≤ timestamp.value := hrange.1
  have hhigh : timestamp.value ≤ 9223372036854775804 := hrange.2
  rw [add, if_pos hrange, reachesMax_eq, reachesMin_eq]
  by_cases hup : 0 ≤ offset.value ∧ Timestamp.max.value ≤ timestamp.value + offset.value
  · have hvalue : clamp (timestamp.value + offset.value) = Timestamp.max := by
      rw [value_max] at hup
      exact Timestamp.ext (by rw [clamp_value, value_max]; omega)
    rw [decide_eq_true hup, hvalue]
    rfl
  by_cases hdown : offset.value ≤ 0 ∧ timestamp.value + offset.value ≤ Timestamp.min.value
  · have hvalue : clamp (timestamp.value + offset.value) = Timestamp.min := by
      rw [value_min] at hdown
      exact Timestamp.ext (by rw [clamp_value, value_min]; omega)
    rw [decide_eq_false hup, decide_eq_true hdown, hvalue]
    rfl
  · -- The sum lies strictly between the two ends, so the constructor takes it.
    have hvalue : (clamp (timestamp.value + offset.value)).value = timestamp.value + offset.value := by
      rw [value_max] at hup
      rw [value_min] at hdown
      rw [clamp_value]
      omega
    have hsum := ofInt64_eq_some (clamp (timestamp.value + offset.value))
      (by rw [lt_iff, hvalue, value_min]; rw [value_min] at hdown; omega)
      (by rw [lt_iff, hvalue, value_max]; rw [value_max] at hup; omega)
    rw [hvalue] at hsum
    rw [decide_eq_false hup, decide_eq_false hdown]
    exact hsum

theorem clamp_of_isRangeValue (timestamp : Timestamp) (hrange : timestamp.IsRangeValue) :
    clamp timestamp.value = timestamp := by
  have hlow : -9223372036854775805 ≤ timestamp.value := hrange.1
  have hhigh : timestamp.value ≤ 9223372036854775804 := hrange.2
  apply Timestamp.ext
  rw [clamp_value]
  omega

theorem sub_eq_clamp (timestamp : Timestamp) (offset : TimestampDiff)
    (hrange : timestamp.IsRangeValue) :
    timestamp.sub offset =
      if offset.value = -9223372036854775808 then none
      else some (clamp (timestamp.value - offset.value)) := by
  have hlow := offset.hmin
  have hhigh := offset.hmax
  by_cases hnegate : offset.value = -9223372036854775808
  · rw [if_pos hnegate, sub, TimestampDiff.ofInt, dif_neg (by omega)]
    rfl
  · rw [if_neg hnegate, sub, TimestampDiff.ofInt, dif_pos (by omega), Option.bind_some,
      add_eq_clamp _ _ hrange]
    exact congrArg (some ∘ clamp) (Int.sub_eq_add_neg.symm)

-- Offsets of one sign may be added one by one.
theorem foldlM_add (offsets : List TimestampDiff) (timestamp : Timestamp)
    (hrange : timestamp.IsRangeValue) (hsign : ∀ offset ∈ offsets, 0 ≤ offset.value) :
    offsets.foldlM add timestamp =
      some (clamp (timestamp.value + (offsets.map TimestampDiff.value).sum)) := by
  induction offsets generalizing timestamp with
  | nil =>
      rw [List.map_nil, List.sum_nil, Int.add_zero, clamp_of_isRangeValue _ hrange]
      rfl
  | cons offset rest ih =>
      have hoffset := hsign offset (List.mem_cons_self ..)
      have hrest : ∀ other ∈ rest, 0 ≤ other.value :=
        fun other hother => hsign other (List.mem_cons_of_mem _ hother)
      have hsum : 0 ≤ (rest.map TimestampDiff.value).sum := by
        apply List.sum_nonneg
        intro value hvalue
        obtain ⟨other, hother, rfl⟩ := List.mem_map.mp hvalue
        exact hrest other hother
      have hlow : -9223372036854775805 ≤ timestamp.value := hrange.1
      rw [List.foldlM_cons, add_eq_clamp _ _ hrange, Option.bind_eq_bind, Option.bind_some,
        ih _ (clamp_isRangeValue _) hrest, List.map_cons, List.sum_cons]
      apply congrArg some
      apply Timestamp.ext
      simp only [clamp_value]
      omega

-- Once the sum is at the upper end it stays there, and no step of the arithmetic fails.
theorem arithmetic_clamps (timestamp : Timestamp) (hrange : timestamp.IsRangeValue) :
    (∀ offset, timestamp.add offset = some (clamp (timestamp.value + offset.value))) ∧
      (∀ offset, timestamp.sub offset =
        if offset.value = -9223372036854775808 then none
        else some (clamp (timestamp.value - offset.value))) ∧
      (∀ offsets : List TimestampDiff, (∀ offset ∈ offsets, 0 ≤ offset.value) →
        offsets.foldlM add timestamp =
          some (clamp (timestamp.value + (offsets.map TimestampDiff.value).sum))) ∧
      ∀ other, other.IsRangeValue → ∀ difference, timestamp.diff other = some difference →
        other.add difference = some timestamp := by
  refine ⟨fun offset => add_eq_clamp timestamp offset hrange,
    fun offset => sub_eq_clamp timestamp offset hrange,
    fun offsets hsign => foldlM_add offsets timestamp hrange hsign, ?_⟩
  intro other hother difference hdiff
  rw [diff, if_pos ⟨hrange, hother⟩, TimestampDiff.ofInt] at hdiff
  split at hdiff
  · cases hdiff
    rw [add_eq_clamp _ _ hother]
    apply congrArg some
    show clamp (other.value + (timestamp.value - other.value)) = timestamp
    rw [add_sub_cancel]
    exact clamp_of_isRangeValue timestamp hrange
  · cases hdiff

def one : TimestampDiff := ⟨1, by omega, by omega⟩

-- The sum exists, since only a range value gets there.
def nextAllowedInStream (timestamp : Timestamp) : Timestamp :=
  if hlast : Timestamp.max ≤ timestamp ∨ timestamp = preStream then
    oneOverPostStream
  else if hfirst : timestamp < Timestamp.min then
    Timestamp.min
  else
    (timestamp.add one).get
      (by rw [add_eq_clamp _ _ ⟨not_lt.mp hfirst, (not_le.mp (not_or.mp hlast).1).le⟩]; rfl)

def previousAllowedInStream (timestamp : Timestamp) : Timestamp :=
  if hfirst : timestamp ≤ Timestamp.min ∨ timestamp = postStream then
    unstarted
  else if hlast : Timestamp.max < timestamp then
    Timestamp.max
  else
    (timestamp.sub one).get
      (by rw [sub_eq_clamp _ _ ⟨(not_le.mp (not_or.mp hfirst).1).le, not_lt.mp hlast⟩]; rfl)

theorem next_value (timestamp : Timestamp) :
    timestamp.nextAllowedInStream.value =
      if 9223372036854775804 ≤ timestamp.value ∨ timestamp.value = -9223372036854775806 then
        9223372036854775806
      else if timestamp.value < -9223372036854775805 then -9223372036854775805
      else timestamp.value + 1 := by
  have hpre : timestamp = preStream ↔ timestamp.value = -9223372036854775806 := Timestamp.ext_iff
  simp only [nextAllowedInStream, le_iff, lt_iff, value_max, value_min, hpre]
  split
  · rfl
  split
  · next hfirst => exact (if_pos hfirst).symm
  · next hlast hfirst =>
    have hvalue : ¬timestamp.value < -9223372036854775805 := hfirst
    simp only [add_eq_clamp timestamp one ⟨not_lt.mp hfirst, (not_le.mp (not_or.mp hlast).1).le⟩,
      Option.get_some, clamp_value]
    rw [if_neg hvalue, show one.value = 1 from rfl]
    omega

theorem previous_value (timestamp : Timestamp) :
    timestamp.previousAllowedInStream.value =
      if timestamp.value ≤ -9223372036854775805 ∨ timestamp.value = 9223372036854775805 then
        -9223372036854775807
      else if 9223372036854775804 < timestamp.value then 9223372036854775804
      else timestamp.value - 1 := by
  have hpost : timestamp = postStream ↔ timestamp.value = 9223372036854775805 := Timestamp.ext_iff
  simp only [previousAllowedInStream, le_iff, lt_iff, value_max, value_min, hpost]
  split
  · rfl
  split
  · next hlast => exact (if_pos hlast).symm
  · next hfirst hlast =>
    have hvalue : ¬9223372036854775804 < timestamp.value := hlast
    have hone : one.value ≠ -9223372036854775808 := by decide
    simp only [sub_eq_clamp timestamp one ⟨(not_le.mp (not_or.mp hfirst).1).le, not_lt.mp hlast⟩,
      if_neg hone, Option.get_some, clamp_value]
    rw [if_neg hvalue, show one.value = 1 from rfl]
    omega

-- Nothing that a stream allows lies between a timestamp and the next one.
theorem lt_of_next_le (timestamp other : Timestamp) (hallowed : other.IsAllowedInStream)
    (h : timestamp.nextAllowedInStream ≤ other) : timestamp < other := by
  have hother : other.value ≤ 9223372036854775805 := hallowed.2
  rw [le_iff, next_value] at h
  rw [lt_iff]
  split_ifs at h <;> omega

theorem lt_next (timestamp : Timestamp) (hallowed : timestamp.IsAllowedInStream) :
    timestamp < timestamp.nextAllowedInStream := by
  have hlow : -9223372036854775806 ≤ timestamp.value := hallowed.1
  have hhigh : timestamp.value ≤ 9223372036854775805 := hallowed.2
  rw [lt_iff, next_value]
  split_ifs <;> omega

-- The two steps are adjoint, away from the summaries of a whole stream.
theorem next_le_iff_le_previous (first second : Timestamp) (hfirst : first ≤ Timestamp.max)
    (hpre : first ≠ preStream) (hsecond : Timestamp.min ≤ second) (hpost : second ≠ postStream) :
    first.nextAllowedInStream ≤ second ↔ first ≤ second.previousAllowedInStream := by
  have hpre' : first.value ≠ -9223372036854775806 := fun h => hpre (Timestamp.ext h)
  have hpost' : second.value ≠ 9223372036854775805 := fun h => hpost (Timestamp.ext h)
  rw [le_iff, value_max] at hfirst
  rw [le_iff, value_min] at hsecond
  rw [le_iff, le_iff, next_value, previous_value]
  split_ifs <;> omega

theorem next_previous_iff (timestamp : Timestamp) :
    timestamp.previousAllowedInStream.nextAllowedInStream = timestamp ↔
      timestamp.IsRangeValue ∨ timestamp = oneOverPostStream := by
  rw [Timestamp.ext_iff, Timestamp.ext_iff, next_value, previous_value, value_oneOverPostStream]
  simp only [IsRangeValue, le_iff, value_min, value_max]
  split_ifs <;> omega

theorem previous_next_iff (timestamp : Timestamp) :
    timestamp.nextAllowedInStream.previousAllowedInStream = timestamp ↔
      timestamp.IsRangeValue ∨ timestamp = unstarted := by
  rw [Timestamp.ext_iff, Timestamp.ext_iff, previous_value, next_value, value_unstarted]
  simp only [IsRangeValue, le_iff, value_min, value_max]
  split_ifs <;> omega

theorem next_previous_adjoint :
    (∀ first second : Timestamp, first ≤ Timestamp.max → first ≠ preStream →
      Timestamp.min ≤ second → second ≠ postStream →
        (first.nextAllowedInStream ≤ second ↔ first ≤ second.previousAllowedInStream)) ∧
      ∀ timestamp : Timestamp,
        (timestamp.previousAllowedInStream.nextAllowedInStream = timestamp ↔
          timestamp.IsRangeValue ∨ timestamp = oneOverPostStream) ∧
        (timestamp.nextAllowedInStream.previousAllowedInStream = timestamp ↔
          timestamp.IsRangeValue ∨ timestamp = unstarted) :=
  ⟨next_le_iff_le_previous, fun timestamp => ⟨next_previous_iff timestamp, previous_next_iff timestamp⟩⟩

theorem arithmetic_clamps_max : Timestamp.max.add one = some Timestamp.max :=
  (arithmetic_clamps Timestamp.max (by decide)).1 one

-- None is the special value that the code does not know.
def debugString (timestamp : Timestamp) : Option String :=
  if timestamp.IsSpecialValue then
    if timestamp = unset then some "Timestamp::Unset()"
    else if timestamp = unstarted then some "Timestamp::Unstarted()"
    else if timestamp = preStream then some "Timestamp::PreStream()"
    else if timestamp = Timestamp.min then some "Timestamp::Min()"
    else if timestamp = Timestamp.max then some "Timestamp::Max()"
    else if timestamp = postStream then some "Timestamp::PostStream()"
    else if timestamp = oneOverPostStream then some "Timestamp::OneOverPostStream()"
    else if timestamp = done then some "Timestamp::Done()"
    else none
  else
    some (toString timestamp.value)

def specialNames : List (Timestamp × String) :=
  [(unset, "Timestamp::Unset()"), (unstarted, "Timestamp::Unstarted()"),
    (preStream, "Timestamp::PreStream()"), (Timestamp.min, "Timestamp::Min()"),
    (Timestamp.max, "Timestamp::Max()"), (postStream, "Timestamp::PostStream()"),
    (oneOverPostStream, "Timestamp::OneOverPostStream()"), (done, "Timestamp::Done()")]

theorem debugString_special (timestamp : Timestamp) (hspecial : timestamp.IsSpecialValue) :
    ∃ name, (timestamp, name) ∈ specialNames ∧ timestamp.debugString = some name := by
  have hlow := timestamp.hmin
  have hhigh := timestamp.hmax
  rw [debugString, if_pos hspecial]
  split_ifs with h₁ h₂ h₃ h₄ h₅ h₆ h₇ h₈
  · exact ⟨_, by simp [specialNames, h₁], rfl⟩
  · exact ⟨_, by simp [specialNames, h₂], rfl⟩
  · exact ⟨_, by simp [specialNames, h₃], rfl⟩
  · exact ⟨_, by simp [specialNames, h₄], rfl⟩
  · exact ⟨_, by simp [specialNames, h₅], rfl⟩
  · exact ⟨_, by simp [specialNames, h₆], rfl⟩
  · exact ⟨_, by simp [specialNames, h₇], rfl⟩
  · exact ⟨_, by simp [specialNames, h₈], rfl⟩
  · -- Eight values are special, four at each end.
    simp only [IsSpecialValue, le_iff, value_min, value_max] at hspecial
    simp only [Timestamp.ext_iff, value_unset, value_unstarted, value_preStream, value_min, value_max,
      value_postStream, value_oneOverPostStream, value_done] at h₁ h₂ h₃ h₄ h₅ h₆ h₇ h₈
    omega

theorem specialNames_inj (first second : Timestamp) (name : String)
    (hfirst : (first, name) ∈ specialNames) (hsecond : (second, name) ∈ specialNames) :
    second = first := by
  simp only [specialNames, List.mem_cons, Prod.mk.injEq, List.not_mem_nil, or_false] at hfirst hsecond
  rcases hfirst with ⟨rfl, rfl⟩ | ⟨rfl, rfl⟩ | ⟨rfl, rfl⟩ | ⟨rfl, rfl⟩ | ⟨rfl, rfl⟩ | ⟨rfl, rfl⟩ |
    ⟨rfl, rfl⟩ | ⟨rfl, rfl⟩ <;> simpa using hsecond

theorem specialNames_not_numeral (timestamp : Timestamp) (name : String)
    (h : (timestamp, name) ∈ specialNames) (number : Int) : name ≠ toString number := by
  have hhead : ∀ entry ∈ specialNames, 'T' ∈ entry.2.toList := by decide
  intro hname
  have hnumeral := Decimal.isNumeral_toString number 'T' (hname ▸ hhead _ h)
  exact absurd hnumeral (by decide)

-- Every timestamp prints, and no two print the same.
theorem debugString_injective (timestamp : Timestamp) :
    ∃ text, timestamp.debugString = some text ∧
      ∀ other : Timestamp, other.debugString = some text → other = timestamp := by
  by_cases hspecial : timestamp.IsSpecialValue
  · obtain ⟨name, hname, htext⟩ := debugString_special timestamp hspecial
    refine ⟨name, htext, fun other hother => ?_⟩
    by_cases hspecial' : other.IsSpecialValue
    · obtain ⟨found, hfound, htext'⟩ := debugString_special other hspecial'
      cases htext'.symm.trans hother
      exact specialNames_inj timestamp other name hname hfound
    · rw [debugString, if_neg hspecial'] at hother
      cases hother
      exact absurd rfl (specialNames_not_numeral timestamp _ hname other.value)
  · refine ⟨toString timestamp.value, if_neg hspecial, fun other hother => ?_⟩
    by_cases hspecial' : other.IsSpecialValue
    · obtain ⟨found, hfound, htext'⟩ := debugString_special other hspecial'
      cases htext'.symm.trans hother
      exact absurd rfl (specialNames_not_numeral other _ hfound timestamp.value)
    · rw [debugString, if_neg hspecial'] at hother
      exact Timestamp.ext (Decimal.toString_inj _ _ (Option.some.inj hother))

end Timestamp

end SpaceInvaders.Mediapipe
