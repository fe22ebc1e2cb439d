import Mathlib.Data.Nat.Find
import Mathlib.Data.String.Basic
import Mathlib.Tactic.IntervalCases

/-!
# Dates in UTC and their texts

A date of the Gregorian calendar with a time of day stands for an instant, and has a text in which every
number has a fixed number of digits, the largest unit first, but for the microseconds, which are left out
when there are none. Both orders, of the instants and of the texts, are the order by year, month, day,
hour, minute, second and microsecond (`UtcDatetime.Earlier`): a year is over before the next one begins,
and so is a month, and the sign of the offset comes before the point of the microseconds.
-/

set_option autoImplicit false

namespace Shea.Computation

/-! ## The calendar -/

/-- A decimal digit. -/
def digitLetter (d : ℕ) : Char := Char.ofNat (48 + d)

/-- The last decimal digits of a number, so many of them. -/
def padded : ℕ → ℕ → List Char
  | 0, _ => []
  | width + 1, n => padded width (n / 10) ++ [digitLetter (n % 10)]

/-- A padded number has its width. -/
@[simp] theorem length_padded (width n : ℕ) : (padded width n).length = width := by
  induction width generalizing n with
  | zero => rfl
  | succ width ih => rw [padded, List.length_append, ih, List.length_singleton]

/-- INTERNAL: of two texts of one length the smaller one stays smaller, whatever comes after them. -/
theorem append_lt_append {a b : List Char} (h : a < b) (hlength : a.length = b.length) (s t : List Char) :
    a ++ s < b ++ t := by
  induction a generalizing b with
  | nil =>
    cases b with
    | nil => exact absurd h (List.lt_irrefl _)
    | cons c b => cases hlength
  | cons c a ih =>
    cases b with
    | nil => cases hlength
    | cons d b =>
      rcases List.cons_lt_cons_iff.mp h with hlt | ⟨rfl, hrest⟩
      · exact List.cons_lt_cons_iff.mpr (.inl hlt)
      · exact List.cons_lt_cons_iff.mpr (.inr ⟨rfl, ih hrest (Nat.succ.inj hlength)⟩)

/-- Digits are ordered as their letters are. -/
theorem digitLetter_lt {a b : ℕ} (h : a < b) (hb : b < 10) : digitLetter a < digitLetter b := by
  have hall : ∀ b < 10, ∀ a < b, digitLetter a < digitLetter b := by decide
  exact hall b hb a h

/-- Numbers with so many digits are in the order of their texts. -/
theorem padded_lt {width m n : ℕ} (h : m < n) (hn : n < 10 ^ width) : padded width m < padded width n := by
  induction width generalizing m n with
  | zero => omega
  | succ width ih =>
    rw [padded, padded]
    rcases Nat.lt_or_ge (m / 10) (n / 10) with hlt | hge
    · have hquotient : n / 10 < 10 ^ width := by
        rw [Nat.pow_succ] at hn
        omega
      exact append_lt_append (ih hlt hquotient) (by simp) _ _
    · have heq : m / 10 = n / 10 := by omega
      rw [heq]
      exact List.append_left_lt
        (List.cons_lt_cons_iff.mpr (.inl (digitLetter_lt (by omega) (Nat.mod_lt n (by decide)))))

/-- A number and what comes after it, before a larger number or the same one. -/
theorem padded_append_lt {width m n : ℕ} (hn : n < 10 ^ width) {s t : List Char}
    (h : m < n ∨ m = n ∧ s < t) : padded width m ++ s < padded width n ++ t := by
  rcases h with hlt | ⟨rfl, hrest⟩
  · exact append_lt_append (padded_lt hlt hn) (by simp) s t
  · exact List.append_left_lt hrest

def isLeap (year : ℕ) : Bool := year % 4 = 0 && (year % 100 ≠ 0 || year % 400 = 0)

/-- The days of a common year before a month. -/
def commonDaysBefore : ℕ → ℕ
  | 2 => 31
  | 3 => 59
  | 4 => 90
  | 5 => 120
  | 6 => 151
  | 7 => 181
  | 8 => 212
  | 9 => 243
  | 10 => 273
  | 11 => 304
  | 12 => 334
  | _ => 0

/-- The days of a year before a month. -/
def daysBeforeMonth (leap : Bool) (month : ℕ) : ℕ :=
  commonDaysBefore month + if 2 < month ∧ leap = true then 1 else 0

def daysInMonth (leap : Bool) (month : ℕ) : ℕ :=
  if month = 2 then (if leap then 29 else 28)
  else if month = 4 ∨ month = 6 ∨ month = 9 ∨ month = 11 then 30
  else 31

def daysInYear (leap : Bool) : ℕ := if leap then 366 else 365

/-- The days before a year, from the year 1 on. -/
def daysBeforeYear (year : ℕ) : ℕ :=
  (year - 1) * 365 + (year - 1) / 4 - (year - 1) / 100 + (year - 1) / 400

/-- A month is over before a later one begins. -/
theorem daysBeforeMonth_add_le (leap : Bool) {m n : ℕ} (hm : 1 ≤ m) (hmn : m < n) (hn : n ≤ 12) :
    daysBeforeMonth leap m + daysInMonth leap m ≤ daysBeforeMonth leap n := by
  have hall : ∀ leap : Bool, ∀ n ≤ 12, ∀ m < n, 1 ≤ m →
      daysBeforeMonth leap m + daysInMonth leap m ≤ daysBeforeMonth leap n := by decide
  exact hall leap n hn m hmn hm

/-- A month is over before the year is. -/
theorem daysBeforeMonth_add_le_year (leap : Bool) {m : ℕ} (hm : 1 ≤ m) (hm' : m ≤ 12) :
    daysBeforeMonth leap m + daysInMonth leap m ≤ daysInYear leap := by
  have hall : ∀ leap : Bool, ∀ m ≤ 12, 1 ≤ m →
      daysBeforeMonth leap m + daysInMonth leap m ≤ daysInYear leap := by decide
  exact hall leap m hm' hm

/-- The leap years of the Gregorian calendar. -/
theorem isLeap_iff (year : ℕ) : isLeap year = true ↔ 4 ∣ year ∧ (¬ 100 ∣ year ∨ 400 ∣ year) := by
  simp [isLeap, Nat.dvd_iff_mod_eq_zero]

/-- A year adds its days to those before it. -/
theorem daysBeforeYear_succ {year : ℕ} (h : 1 ≤ year) :
    daysBeforeYear (year + 1) = daysBeforeYear year + daysInYear (isLeap year) := by
  obtain ⟨y, rfl⟩ := Nat.exists_eq_add_of_le' h
  have hcentury : y / 100 ≤ y / 4 := Nat.div_le_div_left (by decide) (by decide)
  have hleap := isLeap_iff (y + 1)
  unfold daysBeforeYear daysInYear
  rw [Nat.add_sub_cancel, Nat.add_sub_cancel, Nat.succ_div, Nat.succ_div, Nat.succ_div]
  by_cases h4 : 4 ∣ y + 1
  · by_cases h100 : 100 ∣ y + 1
    · by_cases h400 : 400 ∣ y + 1
      · rw [if_pos h4, if_pos h100, if_pos h400, if_pos (hleap.mpr ⟨h4, .inr h400⟩)]
        omega
      · have hcommon : ¬ isLeap (y + 1) = true := fun h =>
          h400 ((hleap.mp h).2.resolve_left (not_not.mpr h100))
        rw [if_pos h4, if_pos h100, if_neg h400, if_neg hcommon]
        omega
    · have h400 : ¬ 400 ∣ y + 1 := fun h => h100 (Nat.dvd_trans (by decide) h)
      rw [if_pos h4, if_neg h100, if_neg h400, if_pos (hleap.mpr ⟨h4, .inl h100⟩)]
      omega
  · have h100 : ¬ 100 ∣ y + 1 := fun h => h4 (Nat.dvd_trans (by decide) h)
    have h400 : ¬ 400 ∣ y + 1 := fun h => h4 (Nat.dvd_trans (by decide) h)
    rw [if_neg h4, if_neg h100, if_neg h400, if_neg fun h => h4 (hleap.mp h).1]
    omega

/-- A year is over before a later one begins. -/
theorem daysBeforeYear_add_le {m n : ℕ} (hm : 1 ≤ m) (hmn : m < n) :
    daysBeforeYear m + daysInYear (isLeap m) ≤ daysBeforeYear n := by
  induction n, hmn using Nat.le_induction with
  | base => exact le_of_eq (daysBeforeYear_succ hm).symm
  | succ n hle ih =>
    rw [daysBeforeYear_succ (by omega)]
    exact Nat.le_add_right_of_le ih

/-! ## Dates with a time of day -/

/-- A date and a time of day in UTC. -/
structure UtcDatetime where
  year : ℕ
  month : ℕ
  day : ℕ
  hour : ℕ
  minute : ℕ
  second : ℕ
  microsecond : ℕ
  year_range : 1 ≤ year ∧ year ≤ 9999
  month_range : 1 ≤ month ∧ month ≤ 12
  day_range : 1 ≤ day ∧ day ≤ daysInMonth (isLeap year) month
  hour_lt : hour < 24
  minute_lt : minute < 60
  second_lt : second < 60
  microsecond_lt : microsecond < 1000000
  deriving DecidableEq

namespace UtcDatetime

/-- The number of the day, from the first day of the year 1 on. -/
def ordinal (d : UtcDatetime) : ℕ :=
  daysBeforeYear d.year + daysBeforeMonth (isLeap d.year) d.month + d.day

/-- The microseconds of the day. -/
def timeOfDay (d : UtcDatetime) : ℕ :=
  ((d.hour * 60 + d.minute) * 60 + d.second) * 1000000 + d.microsecond

/-- The microseconds from the first instant of 1970 on. -/
def instant (d : UtcDatetime) : ℤ := ((d.ordinal : ℤ) - 719163) * 86400000000 + d.timeOfDay

/-- The microseconds and the offset. -/
def fraction (microsecond : ℕ) : List Char :=
  if microsecond = 0 then "+00:00".toList else '.' :: (padded 6 microsecond ++ "+00:00".toList)

/-- `YYYY-MM-DDTHH:MM:SS+00:00`, with `.ffffff` before the offset when there are microseconds. -/
def isoText (year month day hour minute second microsecond : ℕ) : String :=
  String.ofList (padded 4 year ++ '-' :: (padded 2 month ++ '-' :: (padded 2 day ++ 'T' ::
    (padded 2 hour ++ ':' :: (padded 2 minute ++ ':' :: (padded 2 second ++ fraction microsecond))))))

def isoformat (d : UtcDatetime) : String :=
  isoText d.year d.month d.day d.hour d.minute d.second d.microsecond

/-- The order by the units, the largest first. -/
def Earlier (a b : UtcDatetime) : Prop :=
  a.year < b.year ∨ a.year = b.year ∧ (a.month < b.month ∨ a.month = b.month ∧ (a.day < b.day ∨
    a.day = b.day ∧ (a.hour < b.hour ∨ a.hour = b.hour ∧ (a.minute < b.minute ∨ a.minute = b.minute ∧
      (a.second < b.second ∨ a.second = b.second ∧ a.microsecond < b.microsecond)))))

/-- Two dates are the same, or one of them is earlier. -/
theorem earlier_trichotomy (a b : UtcDatetime) : a.Earlier b ∨ a = b ∨ b.Earlier a := by
  have hcases : a.Earlier b ∨ (a.year = b.year ∧ a.month = b.month ∧ a.day = b.day ∧ a.hour = b.hour ∧
      a.minute = b.minute ∧ a.second = b.second ∧ a.microsecond = b.microsecond) ∨ b.Earlier a := by
    unfold Earlier
    omega
  rcases hcases with h | ⟨h1, h2, h3, h4, h5, h6, h7⟩ | h
  · exact .inl h
  · refine .inr (.inl ?_)
    cases a
    cases b
    simp_all
  · exact .inr (.inr h)

/-! ## Orders -/

/-- INTERNAL: one letter more at the beginning of both. -/
theorem cons_lt_cons_self {c : Char} {s t : List Char} (h : s < t) : c :: s < c :: t :=
  List.cons_lt_cons_iff.mpr (.inr ⟨rfl, h⟩)

/-- INTERNAL: a text without microseconds comes before one with them. -/
theorem fraction_lt {m n : ℕ} (h : m < n) (hn : n < 1000000) : fraction m < fraction n := by
  have hpos : n ≠ 0 := by omega
  unfold fraction
  rw [if_neg hpos]
  split
  · exact List.cons_lt_cons_iff.mpr (.inl (by decide))
  · exact cons_lt_cons_self (padded_append_lt hn (.inl h))

/-- The text of an earlier date comes first. -/
theorem Earlier.isoformat_lt {a b : UtcDatetime} (h : a.Earlier b) : a.isoformat < b.isoformat := by
  obtain ⟨-, hyear⟩ := b.year_range
  obtain ⟨-, hmonth⟩ := b.month_range
  have hday : b.day ≤ 31 := by
    refine b.day_range.2.trans ?_
    unfold daysInMonth
    split_ifs <;> decide
  have hhour := b.hour_lt
  have hminute := b.minute_lt
  have hsecond := b.second_lt
  unfold isoformat isoText
  rw [String.lt_iff, String.toList_ofList, String.toList_ofList]
  refine padded_append_lt (by omega) (h.imp_right (And.imp_right fun h => cons_lt_cons_self ?_))
  refine padded_append_lt (by omega) (h.imp_right (And.imp_right fun h => cons_lt_cons_self ?_))
  refine padded_append_lt (by omega) (h.imp_right (And.imp_right fun h => cons_lt_cons_self ?_))
  refine padded_append_lt (by omega) (h.imp_right (And.imp_right fun h => cons_lt_cons_self ?_))
  refine padded_append_lt (by omega) (h.imp_right (And.imp_right fun h => cons_lt_cons_self ?_))
  exact padded_append_lt (by omega) (h.imp_right (And.imp_right fun h => fraction_lt h b.microsecond_lt))

/-- INTERNAL: a time of day is shorter than a day. -/
theorem timeOfDay_lt (d : UtcDatetime) : d.timeOfDay < 86400000000 := by
  have hhour := d.hour_lt
  have hminute := d.minute_lt
  have hsecond := d.second_lt
  have hmicrosecond := d.microsecond_lt
  unfold timeOfDay
  omega

/-- INTERNAL: the day lies before the end of its month, and of its year. -/
theorem ordinal_le (d : UtcDatetime) :
    d.ordinal ≤ daysBeforeYear d.year + (daysBeforeMonth (isLeap d.year) d.month +
        daysInMonth (isLeap d.year) d.month) ∧
      d.ordinal ≤ daysBeforeYear d.year + daysInYear (isLeap d.year) := by
  have hmonth := daysBeforeMonth_add_le_year (isLeap d.year) d.month_range.1 d.month_range.2
  have hday := d.day_range.2
  unfold ordinal
  omega

/-- INTERNAL: a day of an earlier year has a smaller number. -/
theorem ordinal_lt_of_year_lt {a b : UtcDatetime} (h : a.year < b.year) : a.ordinal < b.ordinal := by
  have hyear := daysBeforeYear_add_le a.year_range.1 h
  have hend := (ordinal_le a).2
  have hday := b.day_range.1
  have hb : b.ordinal = daysBeforeYear b.year + daysBeforeMonth (isLeap b.year) b.month + b.day := rfl
  omega

/-- INTERNAL: so has a day of an earlier month of the year. -/
theorem ordinal_lt_of_month_lt {a b : UtcDatetime} (hyear : a.year = b.year) (h : a.month < b.month) :
    a.ordinal < b.ordinal := by
  have hmonth := daysBeforeMonth_add_le (isLeap b.year) a.month_range.1 h b.month_range.2
  have hend := (ordinal_le a).1
  rw [hyear] at hend
  have hday := b.day_range.1
  have hb : b.ordinal = daysBeforeYear b.year + daysBeforeMonth (isLeap b.year) b.month + b.day := rfl
  omega

/-- INTERNAL: and an earlier day of the month. -/
theorem ordinal_lt_of_day_lt {a b : UtcDatetime} (hyear : a.year = b.year) (hmonth : a.month = b.month)
    (h : a.day < b.day) : a.ordinal < b.ordinal := by
  unfold ordinal
  rw [hyear, hmonth]
  omega

/-- INTERNAL: an instant of an earlier day is earlier. -/
theorem instant_lt_of_ordinal_lt {a b : UtcDatetime} (h : a.ordinal < b.ordinal) :
    a.instant < b.instant := by
  have htime := timeOfDay_lt a
  unfold instant
  omega

/-- The instant of an earlier date is smaller. -/
theorem Earlier.instant_lt {a b : UtcDatetime} (h : a.Earlier b) : a.instant < b.instant := by
  rcases h with hyear | ⟨hyear, hmonth | ⟨hmonth, hday | ⟨hday, htime⟩⟩⟩
  · exact instant_lt_of_ordinal_lt (ordinal_lt_of_year_lt hyear)
  · exact instant_lt_of_ordinal_lt (ordinal_lt_of_month_lt hyear hmonth)
  · exact instant_lt_of_ordinal_lt (ordinal_lt_of_day_lt hyear hmonth hday)
  · have hordinal : a.ordinal = b.ordinal := by
      unfold ordinal
      rw [hyear, hmonth, hday]
    have hlater : a.timeOfDay < b.timeOfDay := by
      have haminute := a.minute_lt
      have hasecond := a.second_lt
      have hamicrosecond := a.microsecond_lt
      unfold timeOfDay
      omega
    unfold instant
    omega

/-- Texts of dates are ordered as their instants are. -/
theorem isoformat_lt_iff (a b : UtcDatetime) : a.isoformat < b.isoformat ↔ a.instant < b.instant := by
  rcases earlier_trichotomy a b with h | rfl | h
  · exact iff_of_true h.isoformat_lt h.instant_lt
  · exact iff_of_false (lt_irrefl _) (lt_irrefl _)
  · exact iff_of_false (lt_asymm h.isoformat_lt) (lt_asymm h.instant_lt)

/-- The texts are in the order of the instants. -/
theorem isoformat_le_iff (a b : UtcDatetime) : a.isoformat ≤ b.isoformat ↔ a.instant ≤ b.instant := by
  rw [← not_lt, ← not_lt]
  exact not_congr (isoformat_lt_iff b a)

/-! ## Texts of instants -/

/-- The year of a day. -/
def yearOf (ordinal : ℕ) : ℕ := Nat.findGreatest (fun year => daysBeforeYear year < ordinal) 9999

/-- The month of a day of a year. -/
def monthOf (leap : Bool) (day : ℕ) : ℕ := Nat.findGreatest (fun month => daysBeforeMonth leap month < day) 12

/-- The text of the date and the time of day at an instant. -/
def isoOfInstant (t : ℤ) : String :=
  let ordinal := (t / 86400000000 + 719163).toNat
  let time := (t % 86400000000).toNat
  let year := yearOf ordinal
  let day := ordinal - daysBeforeYear year
  let month := monthOf (isLeap year) day
  isoText year month (day - daysBeforeMonth (isLeap year) month) (time / 3600000000) (time / 60000000 % 60)
    (time / 1000000 % 60) (time % 1000000)

/-- The year of a date is read off the number of its day. -/
theorem yearOf_ordinal (d : UtcDatetime) : yearOf d.ordinal = d.year := by
  refine Nat.findGreatest_eq_iff.mpr ⟨d.year_range.2, fun _ => ?_, fun year hlater _ hbefore => ?_⟩
  · have hday := d.day_range.1
    unfold ordinal
    omega
  · have hyear := daysBeforeYear_add_le d.year_range.1 hlater
    have hend := (ordinal_le d).2
    omega

/-- And its month off the number of the day in the year. -/
theorem monthOf_day (d : UtcDatetime) :
    monthOf (isLeap d.year) (daysBeforeMonth (isLeap d.year) d.month + d.day) = d.month := by
  obtain ⟨hday, hday'⟩ := d.day_range
  refine Nat.findGreatest_eq_iff.mpr ⟨d.month_range.2, fun _ => by omega, fun month hlater hle hbefore => ?_⟩
  have hmonth := daysBeforeMonth_add_le (isLeap d.year) d.month_range.1 hlater hle
  omega

/-- The instant of a date gives its text back. -/
theorem isoOfInstant_instant (d : UtcDatetime) : isoOfInstant d.instant = d.isoformat := by
  have htime := timeOfDay_lt d
  have hordinal : (d.instant / 86400000000 + 719163).toNat = d.ordinal := by
    unfold instant
    omega
  have hrest : (d.instant % 86400000000).toNat = d.timeOfDay := by
    unfold instant
    omega
  have hday : d.ordinal - daysBeforeYear d.year = daysBeforeMonth (isLeap d.year) d.month + d.day := by
    unfold ordinal
    omega
  have hhour : d.timeOfDay / 3600000000 = d.hour ∧ d.timeOfDay / 60000000 % 60 = d.minute ∧
      d.timeOfDay / 1000000 % 60 = d.second ∧ d.timeOfDay % 1000000 = d.microsecond := by
    have hminute := d.minute_lt
    have hsecond := d.second_lt
    have hmicrosecond := d.microsecond_lt
    unfold timeOfDay
    omega
  unfold isoOfInstant isoformat
  simp only [hordinal, hrest, yearOf_ordinal, hday, monthOf_day, Nat.add_sub_cancel_left, hhour]

/-- The number that digits stand for. -/
def numberOf (digits : List Char) : ℕ := digits.foldl (fun n c => 10 * n + (c.toNat - 48)) 0

/-- A padded number is read as the number. -/
theorem numberOf_padded {width n : ℕ} (h : n < 10 ^ width) : numberOf (padded width n) = n := by
  have hdigit : ∀ d < 10, (digitLetter d).toNat - 48 = d := by decide
  induction width generalizing n with
  | zero => exact (Nat.lt_one_iff.mp h).symm
  | succ width ih =>
    have hquotient : n / 10 < 10 ^ width := by
      rw [Nat.pow_succ] at h
      omega
    have hrest := ih hquotient
    unfold numberOf at hrest ⊢
    rw [padded, List.foldl_append, hrest, List.foldl_cons, List.foldl_nil,
      hdigit _ (Nat.mod_lt n (by decide))]
    omega

/-- A number with so many digits, and what comes after the letter behind it. -/
def takeNumber (width : ℕ) (letters : List Char) : ℕ × List Char :=
  (numberOf (letters.take width), letters.drop (width + 1))

/-- INTERNAL: and leaves what stands after it. -/
theorem takeNumber_padded {width n : ℕ} (h : n < 10 ^ width) (c : Char) (rest : List Char) :
    takeNumber width (padded width n ++ c :: rest) = (n, rest) := by
  have htake : (padded width n ++ c :: rest).take width = padded width n := by
    rw [List.take_append_of_le_length (by simp), List.take_of_length_le (by simp)]
  have hdrop : (padded width n ++ c :: rest).drop (width + 1) = rest := by
    rw [List.drop_append, List.drop_of_length_le (by simp), length_padded, Nat.add_sub_cancel_left]
    rfl
  rw [takeNumber, htake, hdrop, numberOf_padded h]

/-- The microseconds before the offset. -/
def microsecondOf : List Char → ℕ
  | '.' :: letters => numberOf (letters.take 6)
  | _ => 0

/-- INTERNAL: microseconds are read off their fraction. -/
theorem microsecondOf_fraction {microsecond : ℕ} (h : microsecond < 1000000) :
    microsecondOf (fraction microsecond) = microsecond := by
  unfold fraction
  split
  · next heq => exact heq.symm
  · have htake := congrArg Prod.fst (takeNumber_padded (show microsecond < 10 ^ 6 from h) '+' "00:00".toList)
    exact htake

/-- The instant of a text `YYYY-MM-DDTHH:MM:SS`, with or without microseconds, and an offset of zero. -/
def instantOfIso (text : String) : ℤ :=
  let year := takeNumber 4 text.toList
  let month := takeNumber 2 year.2
  let day := takeNumber 2 month.2
  let hour := takeNumber 2 day.2
  let minute := takeNumber 2 hour.2
  let second := numberOf (minute.2.take 2)
  let ordinal := daysBeforeYear year.1 + daysBeforeMonth (isLeap year.1) month.1 + day.1
  let time := ((hour.1 * 60 + minute.1) * 60 + second) * 1000000 + microsecondOf (minute.2.drop 2)
  ((ordinal : ℤ) - 719163) * 86400000000 + (time : ℕ)

/-- The text of a date gives its instant back. -/
theorem instantOfIso_isoformat (d : UtcDatetime) : instantOfIso d.isoformat = d.instant := by
  obtain ⟨-, hyear⟩ := d.year_range
  obtain ⟨-, hmonth⟩ := d.month_range
  have hday : d.day < 10 ^ 2 := by
    have hend := d.day_range.2
    unfold daysInMonth at hend
    split_ifs at hend <;> omega
  have hhour := d.hour_lt
  have hminute := d.minute_lt
  have hsecond : numberOf ((padded 2 d.second ++ fraction d.microsecond).take 2) = d.second := by
    rw [List.take_append_of_le_length (by simp), List.take_of_length_le (by simp)]
    exact numberOf_padded (d.second_lt.trans (by decide))
  have hdrop : (padded 2 d.second ++ fraction d.microsecond).drop 2 = fraction d.microsecond :=
    List.drop_left' (by simp)
  unfold instantOfIso isoformat isoText instant timeOfDay ordinal
  simp only [String.toList_ofList, takeNumber_padded (show d.year < 10 ^ 4 by omega),
    takeNumber_padded (show d.month < 10 ^ 2 by omega), takeNumber_padded hday,
    takeNumber_padded (show d.hour < 10 ^ 2 by omega), takeNumber_padded (show d.minute < 10 ^ 2 by omega),
    hsecond, hdrop, microsecondOf_fraction d.microsecond_lt]

end UtcDatetime

end Shea.Computation
