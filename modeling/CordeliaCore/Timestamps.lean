import CordeliaCore.CivilTime

set_option autoImplicit false

/-!
# The two clocks of an item

Local writes are stamped by SQLite, pushes by `chrono`. Both read the system
clock, in nanoseconds since the Unix epoch, and write it in UTC.
-/
namespace CordeliaCore.Timestamps
open CivilTime

def unixEpoch : Date :=
  ⟨1970, 1, 1, Nat.le_refl 1, Nat.le_of_ble_eq_true rfl, Nat.le_refl 1, one_le_daysIn 1970 1⟩

def nanosPerSec : ℕ := 1000000000

def secsPerDay : ℕ := 86400

/-- A reading of the system clock in the years both formats write with four digits. -/
structure Instant where
  nanos : ℕ
  year_le : (dateOf unixEpoch (nanos / nanosPerSec / secsPerDay)).year ≤ 9999

namespace Instant

def second (i : Instant) : ℕ := i.nanos / nanosPerSec

def day (i : Instant) : ℕ := i.second / secsPerDay

def date (i : Instant) : Date := dateOf unixEpoch i.day

def timeText (i : Instant) : List Char :=
  let second := i.second % secsPerDay
  pad 2 (second / 3600) ++ ':' :: (pad 2 (second / 60 % 60) ++ ':' :: pad 2 (second % 60))

/-- `SecondsFormat::AutoSi`: as many groups of three digits as the fraction needs. -/
def fractionText (i : Instant) : List Char :=
  let fraction := i.nanos % nanosPerSec
  if fraction = 0 then []
  else if fraction % 1000000 = 0 then '.' :: pad 3 (fraction / 1000000)
  else if fraction % 1000 = 0 then '.' :: pad 6 (fraction / 1000)
  else '.' :: pad 9 fraction

def datetime (i : Instant) : String := String.ofList (i.date.text ++ ' ' :: i.timeText)

def utcOffset : List Char := "+00:00".toList

def toRfc3339 (i : Instant) : String :=
  String.ofList (i.date.text ++ 'T' :: (i.timeText ++ i.fractionText ++ utcOffset))

/-- Whole seconds, up to a day in the year 9910. -/
def ofUnix (secs : ℕ) (h : secs / secsPerDay ≤ 2900000) : Instant where
  nanos := secs * nanosPerSec
  year_le := by
    have hyear := dateOf_year_le unixEpoch (secs / secsPerDay)
    have hepoch : unixEpoch.commonDays = 719051 := by decide
    rw [Nat.mul_div_cancel secs (by decide : 0 < nanosPerSec)]
    omega

theorem day_ofUnix (secs : ℕ) (h : secs / secsPerDay ≤ 2900000) :
    (ofUnix secs h).day = secs / secsPerDay := by
  unfold day second ofUnix
  rw [Nat.mul_div_cancel secs (by decide : 0 < nanosPerSec)]

variable (s t : Instant)

theorem year_lt : (dateOf unixEpoch s.day).year < 10000 := Nat.lt_succ_of_le s.year_le

/-- A blank sorts before a `T`, whatever follows. -/
theorem datetime_lt_toRfc3339_iff : s.datetime < t.toRfc3339 ↔ s.day ≤ t.day := by
  unfold datetime toRfc3339 date
  rw [String.lt_iff_toList_lt, String.toList_ofList, String.toList_ofList,
    dated_lt_dated_iff s.year_lt t.year_lt (by decide)]
  have hblank : ' ' < 'T' := by decide
  simp only [hblank, and_true]
  omega

theorem toRfc3339_lt_datetime_iff : s.toRfc3339 < t.datetime ↔ s.day < t.day := by
  unfold datetime toRfc3339 date
  rw [String.lt_iff_toList_lt, String.toList_ofList, String.toList_ofList,
    dated_lt_dated_iff s.year_lt t.year_lt (by decide)]
  have hblank : ¬ 'T' < ' ' := by decide
  simp only [hblank, and_false, or_false]

theorem datetime_ne_toRfc3339 : s.datetime ≠ t.toRfc3339 := by
  intro h
  have hlt := s.datetime_lt_toRfc3339_iff t
  have hgt := t.toRfc3339_lt_datetime_iff s
  rw [h] at hlt hgt
  have hone := hlt.not.mp (lt_irrefl _)
  have htwo := hgt.not.mp (lt_irrefl _)
  omega

theorem timeText_lt_iff :
    s.timeText < t.timeText ↔ s.second % secsPerDay < t.second % secsPerDay := by
  have hs : s.second % secsPerDay < 86400 := Nat.mod_lt _ (by decide)
  have ht : t.second % secsPerDay < 86400 := Nat.mod_lt _ (by decide)
  unfold timeText
  rw [append_lt_append_iff (by simp), List.cons_lt_cons_iff, append_lt_append_iff (by simp),
    List.cons_lt_cons_iff]
  simp only [pad_lt_pad_iff, pad_eq_pad_iff, lt_irrefl, false_or, true_and]
  omega

theorem length_timeText : s.timeText.length = t.timeText.length := by
  simp [timeText]

theorem timeText_eq_iff :
    s.timeText = t.timeText ↔ s.second % secsPerDay = t.second % secsPerDay :=
  eq_iff_of_lt_iff (s.timeText_lt_iff t) (t.timeText_lt_iff s)

/-- The fraction in its groups, up to the offset that ends the text. -/
theorem fractionText_append : s.fractionText ++ utcOffset =
    if s.nanos % nanosPerSec = 0 then utcOffset
    else '.' :: grouped utcOffset 3 (s.nanos % nanosPerSec) := by
  unfold fractionText nanosPerSec
  have hlt : s.nanos % 1000000000 < 1000000000 := Nat.mod_lt _ (by decide)
  generalize s.nanos % 1000000000 = fraction at hlt
  have hsix : pad 6 (fraction / 1000) = pad 3 (fraction / 1000000) ++ pad 3 (fraction / 1000) := by
    simp [pad_add 3 3, Nat.div_div_eq_div_mul]
  have hnine : pad 9 fraction =
      pad 3 (fraction / 1000000) ++ (pad 3 (fraction / 1000) ++ pad 3 fraction) := by
    simp [pad_add 3 6, pad_add 3 3]
  have hall : fraction % 1000000000 = fraction := Nat.mod_eq_of_lt hlt
  simp only [grouped, Nat.reduceAdd, Nat.reducePow, Nat.div_one, hall, hsix, hnine]
  split_ifs <;> simp

theorem fractionText_lt_iff : s.fractionText ++ utcOffset < t.fractionText ++ utcOffset ↔
    s.nanos % nanosPerSec < t.nanos % nanosPerSec := by
  have hoffset : utcOffset = '+' :: "00:00".toList := by decide
  have hs : s.nanos % nanosPerSec < 1000 ^ 3 := Nat.mod_lt _ (by decide)
  have ht : t.nanos % nanosPerSec < 1000 ^ 3 := Nat.mod_lt _ (by decide)
  have hgrouped := grouped_lt_grouped_iff (by decide : '+' < '0') "00:00".toList 3
    (s.nanos % nanosPerSec) (t.nanos % nanosPerSec)
  rw [← hoffset, Nat.mod_eq_of_lt hs, Nat.mod_eq_of_lt ht] at hgrouped
  rw [fractionText_append, fractionText_append]
  split_ifs with hzero hzero' hzero'
  · simp [hzero, hzero']
  · rw [hoffset, List.cons_lt_cons_iff]
    exact iff_of_true (.inl (by decide)) (by omega)
  · rw [hoffset, List.cons_lt_cons_iff]
    exact iff_of_false (by simp) (by omega)
  · rw [List.cons_lt_cons_iff, hgrouped]
    simp

/-- The stamps of `chrono` compare as the nanoseconds they stand for. -/
theorem toRfc3339_lt_iff : s.toRfc3339 < t.toRfc3339 ↔ s.nanos < t.nanos := by
  unfold toRfc3339 date
  rw [String.lt_iff_toList_lt, String.toList_ofList, String.toList_ofList,
    dated_append_lt_iff s.year_lt t.year_lt, List.cons_lt_cons_iff, List.append_assoc,
    List.append_assoc, append_lt_append_iff (s.length_timeText t), timeText_lt_iff,
    timeText_eq_iff, fractionText_lt_iff]
  simp only [lt_irrefl, false_or, true_and]
  unfold day second secsPerDay nanosPerSec
  omega

/-- The stamps of SQLite compare as the seconds they stand for. -/
theorem datetime_lt_iff : s.datetime < t.datetime ↔ s.second < t.second := by
  unfold datetime date
  rw [String.lt_iff_toList_lt, String.toList_ofList, String.toList_ofList,
    dated_append_lt_iff s.year_lt t.year_lt, List.cons_lt_cons_iff, timeText_lt_iff]
  simp only [lt_irrefl, false_or, true_and]
  unfold day secsPerDay
  omega

theorem epoch_year_le : 1970 ≤ (dateOf unixEpoch s.day).year :=
  dateOf_year_mono unixEpoch (Nat.zero_le s.day)

/-- Every stamp since the epoch sorts after the year it starts with. -/
theorem epoch_lt_datetime : "1970" < s.datetime := by
  have hyear := s.epoch_year_le
  have hlt := s.year_lt
  unfold datetime date Date.text
  rw [String.lt_iff_toList_lt, String.toList_ofList, String.toList_ofList, List.append_assoc]
  change pad 4 1970 ++ [] < _
  rw [append_lt_append_iff (by simp), pad_lt_pad_iff, pad_eq_pad_iff]
  simp only [List.cons_append, List.nil_lt_cons, and_true]
  omega

def back (seconds : ℕ) : Instant where
  nanos := s.nanos - seconds * nanosPerSec
  year_le := by
    refine (dateOf_year_mono unixEpoch ?_).trans s.year_le
    exact Nat.div_le_div_right (Nat.div_le_div_right (Nat.sub_le _ _))

theorem second_back (seconds : ℕ) : (s.back seconds).second = s.second - seconds := by
  change (s.nanos - seconds * nanosPerSec) / nanosPerSec = s.nanos / nanosPerSec - seconds
  rw [Nat.mul_comm, Nat.sub_mul_div]

def tenOClock : Instant := .ofUnix 1769940000 (by decide)

def eightDaysLater : Instant := .ofUnix 1770631200 (by decide)

end Instant

section Modifiers

/-- What SQLite writes for moments before 1970, by their distance in seconds: an earlier
    or negative year, or `NULL`, below which no text sorts, as none does below `""`. -/
class EarlyDates where
  text : ℕ → String
  text_lt : ∀ seconds, text seconds < "1970"

@[reducible] def nullDates : EarlyDates := ⟨fun _ => "", fun _ => by decide⟩

variable [EarlyDates]

/-- `datetime('now', '-N days')`. -/
def daysAgo (now : Instant) (days : ℕ) : String :=
  if days * secsPerDay ≤ now.second then (now.back (days * secsPerDay)).datetime
  else EarlyDates.text (days * secsPerDay - now.second)

theorem datetime_lt_daysAgo_iff (i now : Instant) (days : ℕ) :
    i.datetime < daysAgo now days ↔ i.second + days * secsPerDay < now.second := by
  unfold daysAgo
  split_ifs with h
  · rw [Instant.datetime_lt_iff, Instant.second_back]
    omega
  · refine iff_of_false (fun hlt => ?_) (by omega)
    exact lt_irrefl _ ((i.epoch_lt_datetime.trans hlt).trans (EarlyDates.text_lt _))

end Modifiers
end CordeliaCore.Timestamps
