import DocSchema.Builtin.Type
import Mathlib

/-!
The texts that are dates and date-times.

A date is written for a day of the library's Gregorian calendar, a date-time for a date, a time of
day, a fraction and a zone. The types accept what is written so and nothing else (`WritesDate`,
`WritesDateTime`). A zone is `Z` or an offset. The offsets of the standard have at most 59 minutes
(`StandardZone`); accepted are also those with up to 99 minutes that still come to less than a day
(`LongZone`), such as `+00:60`. Main statement: `accepts_iff_written`.
-/

namespace DocSchema.Calendar

open Std.Time (PlainDate)

/-! ### Writing -/

/-- The last `width` decimal digits of a number. -/
def padded : Nat → Nat → List Char
  | 0, _ => []
  | width + 1, n => padded width (n / 10) ++ [Nat.digitChar (n % 10)]

/-- The text is a day of the Gregorian calendar in one of the years 1 to 9999, as `YYYY-MM-DD`. -/
inductive WritesDate : List Char → Prop
  | intro (date : PlainDate) (hfirst : 1 ≤ date.year.toInt) (hlast : date.year.toInt ≤ 9999) :
    WritesDate (padded 4 date.year.toInt.toNat ++ '-' ::
      (padded 2 date.month.val.toNat ++ '-' :: padded 2 date.day.val.toNat))

/-- The text is a time of day, as `hh:mm:ss`. -/
inductive WritesTime : List Char → Prop
  | intro {hour minute second : Nat} (hhour : hour ≤ 23) (hminute : minute ≤ 59)
      (hsecond : second ≤ 59) :
    WritesTime (padded 2 hour ++ ':' :: (padded 2 minute ++ ':' :: padded 2 second))

/-- The text is a point and one to six digits, or nothing. -/
inductive WritesFraction : List Char → Prop
  | none : WritesFraction []
  | digits {ds : List Char} (hdigits : ∀ d ∈ ds, isAsciiDigit d = true) (hfirst : 1 ≤ ds.length)
      (hlast : ds.length ≤ 6) : WritesFraction ('.' :: ds)

/-- The text is a sign and an offset that is allowed, as `hh:mm`. -/
inductive WritesOffset (allowed : Nat → Nat → Prop) : List Char → Prop
  | intro {sign : Char} {hours minutes : Nat} (hsign : sign = '+' ∨ sign = '-')
      (hhours : hours < 100) (hminutes : minutes < 100) (hallowed : allowed hours minutes) :
    WritesOffset allowed (sign :: (padded 2 hours ++ ':' :: padded 2 minutes))

/-- The text is a date, `T`, a time of day, perhaps a fraction, and a zone. -/
inductive WritesDateTime (Zone : List Char → Prop) : List Char → Prop
  | intro {date time fraction zone : List Char} (hdate : WritesDate date) (htime : WritesTime time)
      (hfraction : WritesFraction fraction) (hzone : Zone zone) :
    WritesDateTime Zone (date ++ 'T' :: (time ++ (fraction ++ zone)))

/-- The text is a zone of the standard: `Z`, or at most 23 hours and at most 59 minutes. -/
def StandardZone (cs : List Char) : Prop :=
  cs = ['Z'] ∨ WritesOffset (fun hours minutes => hours ≤ 23 ∧ minutes ≤ 59) cs

/-- The text is an offset of less than a day with more minutes than an hour has. -/
def LongZone : List Char → Prop :=
  WritesOffset fun hours minutes => 60 ≤ minutes ∧ hours * 60 + minutes < 24 * 60

/-! ### Digits -/

section Digits

variable {ds : List Char} {d : Char} {n k : Nat}

theorem digitChar_toNat : ∀ k < 10, '0' ≤ Nat.digitChar k ∧ Nat.digitChar k ≤ '9' ∧
    (Nat.digitChar k).toNat - '0'.toNat = k := by decide

theorem digitChar_of_le (hfirst : '0' ≤ d) (hlast : d ≤ '9') :
    d.toNat - '0'.toNat < 10 ∧ Nat.digitChar (d.toNat - '0'.toNat) = d := by
  have hlow : 48 ≤ d.toNat := UInt32.le_iff_toNat_le.mp (Char.le_def.mp hfirst)
  have hhigh : d.toNat ≤ 57 := UInt32.le_iff_toNat_le.mp (Char.le_def.mp hlast)
  have hchars : ∀ k < 10, Nat.digitChar k = Char.ofNat (48 + k) := by decide
  have hzero : '0'.toNat = 48 := rfl
  rw [hzero]
  refine ⟨by omega, ?_⟩
  rw [hchars _ (by omega), Nat.add_sub_cancel' hlow, Char.ofNat_toNat]

@[simp] theorem length_padded (width n : Nat) : (padded width n).length = width := by
  induction width generalizing n with
  | zero => rfl
  | succ width ih => simp [padded, ih]

theorem digits?_concat (ds : List Char) (d : Char) : digits? (ds ++ [d]) =
    (digits? ds).bind fun n =>
      if '0' ≤ d ∧ d ≤ '9' then some (n * 10 + (d.toNat - '0'.toNat)) else none := by
  rw [digits?, digits?, List.foldlM_append]
  simp only [List.foldlM_cons, List.foldlM_nil, bind_pure]
  rfl

/-- Digits stand for the number that they are written for. -/
theorem digits?_eq_some : digits? ds = some n ↔ ds = padded ds.length n ∧ n < 10 ^ ds.length := by
  -- the last digit is what is left of the number after division by ten
  induction ds using List.reverseRecOn generalizing n with
  | nil => simp [digits?, padded, eq_comm]
  | append_singleton ds d ih =>
    rw [digits?_concat, List.length_append, List.length_singleton, padded, Option.bind_eq_some_iff]
    constructor
    · rintro ⟨m, hm, hn⟩
      split at hn
      · next hd =>
        obtain ⟨hds, hlt⟩ := ih.mp hm
        obtain ⟨hk, hchar⟩ := digitChar_of_le hd.1 hd.2
        cases hn
        rw [Nat.add_mod, Nat.mul_mod_left, Nat.zero_add, Nat.mod_mod, Nat.mod_eq_of_lt hk, hchar,
          Nat.add_comm, Nat.add_mul_div_right _ _ (by decide), Nat.div_eq_of_lt hk, Nat.zero_add,
          ← hds, Nat.pow_succ]
        exact ⟨rfl, by omega⟩
      · cases hn
    · rintro ⟨htext, hlt⟩
      obtain ⟨hds, hd⟩ := List.append_inj' htext rfl
      obtain ⟨hfirst, hlast, hvalue⟩ := digitChar_toNat (n % 10) (Nat.mod_lt n (by decide))
      rw [← List.singleton_inj.mp hd] at hfirst hlast hvalue
      refine ⟨n / 10, ih.mpr ⟨hds, ?_⟩, ?_⟩
      · rw [Nat.pow_succ] at hlt
        omega
      · rw [if_pos ⟨hfirst, hlast⟩, hvalue, Option.some.injEq]
        omega

theorem digits?_padded {width : Nat} (hn : n < 10 ^ width) : digits? (padded width n) = some n :=
  digits?_eq_some.mpr (by simpa using hn)

theorem padded_inj {width m : Nat} (hn : n < 10 ^ width) (hm : m < 10 ^ width)
    (h : padded width n = padded width m) : n = m :=
  Option.some.inj ((digits?_padded hn).symm.trans (h ▸ digits?_padded hm))

end Digits

/-! ### Days -/

section Days

open Std.Time

theorem isLeap_offset (n : Nat) : Year.Offset.isLeap (n : Int) = isLeap n := by
  have hmod (k : Nat) : ((n : Int).tmod k = 0) ↔ n % k = 0 := by
    rw [Int.tmod_eq_emod_of_nonneg (Int.natCast_nonneg n)]
    omega
  have h4 := hmod 4
  have h100 := hmod 100
  have h400 := hmod 400
  rw [Bool.eq_iff_iff, isLeap, Year.Offset.isLeap, Year.Offset.toInt]
  simp only [decide_eq_true_eq, Bool.and_eq_true, Bool.or_eq_true]
  exact and_congr h4 (or_congr (not_congr h100) h400)

theorem days_eq (year : Nat) (month : Month.Ordinal) :
    (Month.Ordinal.days (isLeap year) month).val = daysIn year month.val.toNat := by
  obtain ⟨m, hfirst, hlast⟩ := month
  interval_cases m
  case «2» => cases h : isLeap year <;> simp only [Month.Ordinal.days, daysIn, h] <;> rfl
  all_goals rfl

theorem daysIn_le (year month : Nat) : daysIn year month ≤ 31 := by
  unfold daysIn
  split
  case h_12 => split <;> decide
  all_goals decide

theorem month_of_daysIn {year month : Nat} (h : daysIn year month ≠ 0) :
    1 ≤ month ∧ month ≤ 12 := by
  unfold daysIn at h
  split at h
  case h_13 => exact absurd rfl h
  all_goals decide

/-- Numbers name a day exactly if the library's calendar has it, from the year 1 on. -/
theorem isDay_iff {year month day : Nat} : isDay year month day = true ↔
    1 ≤ year ∧ ∃ date : PlainDate, date.year.toInt = year ∧ date.month.val = month ∧
      date.day.val = day := by
  simp only [isDay, Bool.and_eq_true, decide_eq_true_eq]
  constructor
  · rintro ⟨⟨hyear, hfirst⟩, hlast⟩
    have hdays : daysIn year month ≠ 0 := by omega
    obtain ⟨hmonth, hmonth'⟩ := month_of_daysIn hdays
    have hday := daysIn_le year month
    let m : Month.Ordinal := ⟨month, by omega, by omega⟩
    let d : Day.Ordinal := ⟨day, by omega, by omega⟩
    have hvalid : Year.Offset.Valid (year : Int) m d := by
      have hdays : (m.days (isLeap year)).val = daysIn year month := days_eq year m
      show (day : Int) ≤ (m.days (Year.Offset.isLeap (year : Int))).val
      rw [isLeap_offset, hdays]
      omega
    exact ⟨hyear, ⟨(year : Int), m, d, hvalid⟩, rfl, rfl, rfl⟩
  · rintro ⟨hyear, ⟨y, m, d, hvalid⟩, hy, hm, hd⟩
    have hfirst : 1 ≤ d.val := d.property.1
    have hlast : d.val ≤ (m.days (Year.Offset.isLeap y)).val := hvalid
    rw [show y = (year : Int) from hy, isLeap_offset, days_eq, show m.val = month from hm,
      Int.toNat_natCast] at hlast
    have hday : d.val = day := hd
    omega

end Days

/-! ### Reading -/

section Reading

variable {cs rest : List Char} {year month day hour minute second : Nat}

theorem afterDate?_padded (hyear : year < 10 ^ 4) (hmonth : month < 10 ^ 2) (hday : day < 10 ^ 2)
    (rest : List Char) :
    afterDate? (padded 4 year ++ '-' :: (padded 2 month ++ '-' :: padded 2 day) ++ rest) =
      if isDay year month day then some rest else none := by
  have hread : afterDate?
      (padded 4 year ++ '-' :: (padded 2 month ++ '-' :: padded 2 day) ++ rest) =
      (digits? (padded 4 year)).bind fun year => (digits? (padded 2 month)).bind fun month =>
        (digits? (padded 2 day)).bind fun day =>
          if isDay year month day then some rest else none := rfl
  rw [hread, digits?_padded hyear, digits?_padded hmonth, digits?_padded hday]
  rfl

/-- What follows a date is what is behind a text that is written for one. -/
theorem afterDate?_eq_some :
    afterDate? cs = some rest ↔ ∃ text, WritesDate text ∧ cs = text ++ rest := by
  constructor
  · intro h
    unfold afterDate? at h
    split at h
    · next a b c d e f g i tail =>
      simp only [Option.bind_eq_bind, Option.bind_eq_some_iff] at h
      obtain ⟨year, hyear, month, hmonth, day, hday, h⟩ := h
      split at h
      · next hisDay =>
        cases h
        obtain ⟨hyear, hlast⟩ := digits?_eq_some.mp hyear
        obtain ⟨hfirst, date, hy, hm, hd⟩ := isDay_iff.mp hisDay
        have htext := WritesDate.intro date (by omega) (by simp at hlast; omega)
        rw [hy, hm, hd, Int.toNat_natCast, Int.toNat_natCast, Int.toNat_natCast] at htext
        refine ⟨_, htext, ?_⟩
        have hsplit : a :: b :: c :: d :: '-' :: e :: f :: '-' :: g :: i :: rest =
            [a, b, c, d] ++ '-' :: ([e, f] ++ '-' :: [g, i]) ++ rest := rfl
        rw [hsplit, hyear, (digits?_eq_some.mp hmonth).1, (digits?_eq_some.mp hday).1]
        rfl
      · cases h
    · cases h
  · rintro ⟨_, ⟨date, hfirst, hlast⟩, rfl⟩
    have hmonth := date.month.property.2
    have hday := date.day.property.2
    have hisDay : isDay date.year.toInt.toNat date.month.val.toNat date.day.val.toNat = true := by
      have := date.month.property.1
      have := date.day.property.1
      refine isDay_iff.mpr ⟨by omega, date, ?_, ?_, ?_⟩ <;> omega
    rw [afterDate?_padded, if_pos hisDay] <;> omega

theorem afterTime?_padded (hhour : hour < 10 ^ 2) (hminute : minute < 10 ^ 2)
    (hsecond : second < 10 ^ 2) (rest : List Char) :
    afterTime? (padded 2 hour ++ ':' :: (padded 2 minute ++ ':' :: padded 2 second) ++ rest) =
      if hour < 24 ∧ minute < 60 ∧ second < 60 then some rest else none := by
  have hread : afterTime?
      (padded 2 hour ++ ':' :: (padded 2 minute ++ ':' :: padded 2 second) ++ rest) =
      (digits? (padded 2 hour)).bind fun hour => (digits? (padded 2 minute)).bind fun minute =>
        (digits? (padded 2 second)).bind fun second =>
          if hour < 24 ∧ minute < 60 ∧ second < 60 then some rest else none := rfl
  rw [hread, digits?_padded hhour, digits?_padded hminute, digits?_padded hsecond]
  rfl

/-- What follows a time of day is what is behind a text that is written for one. -/
theorem afterTime?_eq_some :
    afterTime? cs = some rest ↔ ∃ text, WritesTime text ∧ cs = text ++ rest := by
  constructor
  · intro h
    unfold afterTime? at h
    split at h
    · next a b c d e f tail =>
      simp only [Option.bind_eq_bind, Option.bind_eq_some_iff] at h
      obtain ⟨hour, hhour, minute, hminute, second, hsecond, h⟩ := h
      split at h
      · next hbounds =>
        cases h
        obtain ⟨hhours, hminutes, hseconds⟩ := hbounds
        refine ⟨_, .intro (Nat.le_of_lt_succ hhours) (Nat.le_of_lt_succ hminutes)
          (Nat.le_of_lt_succ hseconds), ?_⟩
        have hsplit : a :: b :: ':' :: c :: d :: ':' :: e :: f :: rest =
            [a, b] ++ ':' :: ([c, d] ++ ':' :: [e, f]) ++ rest := rfl
        rw [hsplit, (digits?_eq_some.mp hhour).1, (digits?_eq_some.mp hminute).1,
          (digits?_eq_some.mp hsecond).1]
        rfl
      · cases h
    · cases h
  · rintro ⟨_, ⟨hhour, hminute, hsecond⟩, rfl⟩
    rw [afterTime?_padded, if_pos ⟨by omega, by omega, by omega⟩] <;> omega

theorem afterSeparator?_eq_some : afterSeparator? cs = some rest ↔ cs = 'T' :: rest := by
  unfold afterSeparator?
  split
  · simp
  · next h =>
    refine iff_of_false (by simp) ?_
    rintro rfl
    exact h rest rfl

/-- What follows a fraction is what is behind a text that is written for one. -/
theorem exists_of_afterFraction? (h : afterFraction? cs = some rest) :
    ∃ text, WritesFraction text ∧ cs = text ++ rest := by
  unfold afterFraction? at h
  split at h
  · next tail =>
    dsimp only at h
    split at h
    · next hlength =>
      cases h
      refine ⟨_, .digits (fun d hd => List.mem_takeWhile_imp hd) hlength.1 hlength.2, ?_⟩
      rw [List.cons_append, List.takeWhile_append_dropWhile]
    · cases h
  · cases h
    exact ⟨[], .none, rfl⟩

/-- A fraction ends where no digit follows, and can be left out where no point follows. -/
theorem afterFraction?_append {text : List Char} (h : WritesFraction text)
    (hrest : ∀ c ∈ rest.head?, isAsciiDigit c = false ∧ c ≠ '.') :
    afterFraction? (text ++ rest) = some rest := by
  cases h with
  | none =>
    rw [List.nil_append]
    unfold afterFraction?
    split
    · next tail => exact absurd rfl (hrest '.' rfl).2
    · rfl
  | digits hdigits hfirst hlast =>
    have hstop : rest.takeWhile isAsciiDigit = [] ∧ rest.dropWhile isAsciiDigit = rest := by
      cases rest with
      | nil => exact ⟨rfl, rfl⟩
      | cons c rest => simp [(hrest c rfl).1]
    rw [List.cons_append, afterFraction?, List.takeWhile_append_of_pos hdigits,
      List.dropWhile_append_of_pos hdigits, hstop.1, hstop.2, List.append_nil]
    exact if_pos ⟨hfirst, hlast⟩

end Reading

/-! ### Zones -/

section Zones

variable {allowed allowed' : Nat → Nat → Prop} {cs : List Char}

theorem WritesOffset.imp (h : WritesOffset allowed cs)
    (himp : ∀ hours minutes, allowed hours minutes → allowed' hours minutes) :
    WritesOffset allowed' cs := by
  obtain ⟨hsign, hhours, hminutes, hallowed⟩ := h
  exact .intro hsign hhours hminutes (himp _ _ hallowed)

/-- A text is written for one offset. -/
theorem WritesOffset.and (h : WritesOffset allowed cs) (h' : WritesOffset allowed' cs) :
    ∃ hours minutes, allowed hours minutes ∧ allowed' hours minutes := by
  obtain @⟨sign, hours, minutes, hsign, hhours, hminutes, hallowed⟩ := h
  -- both are writings of one text; they are compared field by field
  generalize htext : sign :: (padded 2 hours ++ ':' :: padded 2 minutes) = text at h'
  obtain @⟨sign', hours', minutes', hsign', hhours', hminutes', hallowed'⟩ := h'
  obtain ⟨hhoursText, hrest⟩ := List.append_inj (List.cons.inj htext).2 (by simp)
  rw [padded_inj hhours hhours' hhoursText,
    padded_inj hminutes hminutes' (List.cons.inj hrest).2] at hallowed
  exact ⟨hours', minutes', hallowed, hallowed'⟩

/-- A zone is `Z` or an offset of less than a day. -/
theorem isZone_iff_offset : isZone cs = true ↔
    cs = ['Z'] ∨ WritesOffset (fun hours minutes => hours * 60 + minutes < 24 * 60) cs := by
  constructor
  · intro h
    unfold isZone at h
    split at h
    · exact .inl rfl
    · next sign a b c d =>
      rw [Bool.and_eq_true, Bool.or_eq_true, decide_eq_true_eq, decide_eq_true_eq] at h
      obtain ⟨hsign, h⟩ := h
      split at h
      · next hours minutes hhours hminutes =>
        obtain ⟨hhoursText, hhours⟩ := digits?_eq_some.mp hhours
        obtain ⟨hminutesText, hminutes⟩ := digits?_eq_some.mp hminutes
        have hsplit : [sign, a, b, ':', c, d] = sign :: ([a, b] ++ ':' :: [c, d]) := rfl
        rw [hsplit, hhoursText, hminutesText]
        exact .inr (.intro hsign hhours hminutes (of_decide_eq_true h))
      · cases h
    · cases h
  · rintro (rfl | @⟨sign, hours, minutes, hsign, hhours, hminutes, hallowed⟩)
    · rfl
    · obtain ⟨a, b, hab⟩ : ∃ a b, padded 2 hours = [a, b] := ⟨_, _, rfl⟩
      obtain ⟨c, d, hcd⟩ : ∃ c d, padded 2 minutes = [c, d] := ⟨_, _, rfl⟩
      have hhours : digits? (padded 2 hours) = some hours := digits?_padded hhours
      have hminutes : digits? (padded 2 minutes) = some minutes := digits?_padded hminutes
      rw [hab] at hhours ⊢
      rw [hcd] at hminutes ⊢
      show isZone [sign, a, b, ':', c, d] = true
      rw [isZone, hhours, hminutes, Bool.and_eq_true, Bool.or_eq_true]
      exact ⟨hsign.imp decide_eq_true decide_eq_true, decide_eq_true hallowed⟩

/-- The zones are those of the standard and the offsets with long minutes. -/
theorem isZone_iff : isZone cs = true ↔ StandardZone cs ∨ LongZone cs := by
  rw [isZone_iff_offset, StandardZone, LongZone, or_assoc]
  refine or_congr_right ⟨?_, ?_⟩
  · rintro @⟨sign, hours, minutes, hsign, hhours, hminutes, hallowed⟩
    by_cases hlong : 60 ≤ minutes
    · exact .inr (.intro hsign hhours hminutes ⟨hlong, hallowed⟩)
    · exact .inl (.intro hsign hhours hminutes ⟨by omega, by omega⟩)
  · rintro (h | h)
    · exact h.imp fun hours minutes hallowed => by omega
    · exact h.imp fun hours minutes hallowed => hallowed.2

theorem not_longZone (h : StandardZone cs) : ¬ LongZone cs := by
  intro hlong
  rcases h with rfl | h
  · generalize htext : ['Z'] = text at hlong
    obtain ⟨hsign⟩ := hlong
    simp [padded] at htext
  · obtain ⟨hours, minutes, hshort, hlong⟩ := h.and hlong
    omega

theorem head_of_isZone (h : isZone cs = true) :
    ∀ c ∈ cs.head?, isAsciiDigit c = false ∧ c ≠ '.' := by
  rcases isZone_iff_offset.mp h with rfl | hoffset
  · rintro c ⟨⟩
    decide
  · obtain ⟨hsign⟩ := hoffset
    rintro c ⟨⟩
    rcases hsign with rfl | rfl <;> decide

end Zones

/-! ### Date-times -/

section DateTimes

variable {Zone : List Char → Prop} {cs zone : List Char}

/-- What follows a date, the separator, a time of day and a fraction. -/
def afterClock? (cs : List Char) : Option (List Char) :=
  afterDate? cs >>= afterSeparator? >>= afterTime? >>= afterFraction?

theorem exists_of_afterClock? (h : afterClock? cs = some zone) : ∃ date time fraction,
    WritesDate date ∧ WritesTime time ∧ WritesFraction fraction ∧
      cs = date ++ 'T' :: (time ++ (fraction ++ zone)) := by
  simp only [afterClock?, Option.bind_eq_bind, Option.bind_eq_some_iff] at h
  obtain ⟨rest, ⟨clock, ⟨tail, htail, hclock⟩, hrest⟩, hzone⟩ := h
  obtain ⟨date, hdate, rfl⟩ := afterDate?_eq_some.mp htail
  obtain rfl := afterSeparator?_eq_some.mp hclock
  obtain ⟨time, htime, rfl⟩ := afterTime?_eq_some.mp hrest
  obtain ⟨fraction, hfraction, rfl⟩ := exists_of_afterFraction? hzone
  exact ⟨date, time, fraction, hdate, htime, hfraction, rfl⟩

theorem afterClock?_append {date time fraction : List Char} (hdate : WritesDate date)
    (htime : WritesTime time) (hfraction : WritesFraction fraction) (hzone : isZone zone = true) :
    afterClock? (date ++ 'T' :: (time ++ (fraction ++ zone))) = some zone := by
  rw [afterClock?, afterDate?_eq_some.mpr ⟨date, hdate, rfl⟩]
  show (afterTime? (time ++ (fraction ++ zone)) >>= afterFraction?) = some zone
  rw [afterTime?_eq_some.mpr ⟨time, htime, rfl⟩]
  exact afterFraction?_append hfraction (head_of_isZone hzone)

/-- A date-time with a zone of some kind is a front with such a zone behind it. -/
theorem writesDateTime_iff (hZone : ∀ zone, Zone zone → isZone zone = true) :
    WritesDateTime Zone cs ↔ ∃ zone, afterClock? cs = some zone ∧ Zone zone := by
  constructor
  · rintro ⟨hdate, htime, hfraction, hzone⟩
    exact ⟨_, afterClock?_append hdate htime hfraction (hZone _ hzone), hzone⟩
  · rintro ⟨zone, hclock, hzone⟩
    obtain ⟨date, time, fraction, hdate, htime, hfraction, rfl⟩ := exists_of_afterClock? hclock
    exact .intro hdate htime hfraction hzone

theorem isDate_iff {s : String} : isDate s = true ↔ WritesDate s.toList := by
  rw [isDate, decide_eq_true_eq, afterDate?_eq_some]
  simp

theorem isDateTime_iff {s : String} : isDateTime s = true ↔
    WritesDateTime StandardZone s.toList ∨ WritesDateTime LongZone s.toList := by
  have hread : isDateTime s = true ↔ ∃ zone, afterClock? s.toList = some zone ∧
      isZone zone = true := by
    rw [isDateTime, ← afterClock?]
    cases afterClock? s.toList <;> simp
  have hstandard (zone : List Char) (h : StandardZone zone) : isZone zone = true :=
    isZone_iff.mpr (.inl h)
  have hlong (zone : List Char) (h : LongZone zone) : isZone zone = true :=
    isZone_iff.mpr (.inr h)
  rw [hread, writesDateTime_iff hstandard, writesDateTime_iff hlong, ← exists_or]
  simp only [isZone_iff, and_or_left]

/-- A text is written with one zone. -/
theorem not_writesDateTime_longZone (h : WritesDateTime StandardZone cs) :
    ¬ WritesDateTime LongZone cs := by
  rw [writesDateTime_iff fun zone h => isZone_iff.mpr (.inl h)] at h
  rw [writesDateTime_iff fun zone h => isZone_iff.mpr (.inr h)]
  obtain ⟨zone, hclock, hstandard⟩ := h
  rintro ⟨zone', hclock', hlong⟩
  obtain rfl : zone = zone' := Option.some.inj (hclock.symm.trans hclock')
  exact not_longZone hstandard hlong

end DateTimes

/-- The date type accepts exactly the texts that are written for a day of the calendar. The
date-time type accepts exactly those that are written with a zone of the standard and, apart from
these, those whose offset has 60 to 99 minutes and comes to less than a day. -/
theorem accepts_iff_written (s : String) :
    (∃ answer, BuiltinType.date.accepts (some (.string s)) = .ok answer ∧
      (answer = true ↔ WritesDate s.toList)) ∧
    (∃ answer, BuiltinType.dateTime.accepts (some (.string s)) = .ok answer ∧
      (answer = true ↔
        WritesDateTime StandardZone s.toList ∨ WritesDateTime LongZone s.toList)) ∧
    ¬ (WritesDateTime StandardZone s.toList ∧ WritesDateTime LongZone s.toList) :=
  ⟨⟨isDate s, rfl, isDate_iff⟩, ⟨isDateTime s, rfl, isDateTime_iff⟩,
    fun h => not_writesDateTime_longZone h.1 h.2⟩

/-- Midnight with an offset of sixty minutes is accepted, and is no date-time of the standard. -/
theorem accepts_sixtyMinutes :
    BuiltinType.dateTime.accepts (some (.string "2020-01-01T00:00:00+00:60")) = .ok true ∧
      ¬ WritesDateTime StandardZone "2020-01-01T00:00:00+00:60".toList := by
  refine ⟨rfl, fun h => ?_⟩
  rw [writesDateTime_iff fun zone h => isZone_iff.mpr (.inl h)] at h
  obtain ⟨zone, hclock, hzone⟩ := h
  obtain rfl : "+00:60".toList = zone := Option.some.inj hclock
  have hlong : LongZone ('+' :: (padded 2 0 ++ ':' :: padded 2 60)) :=
    .intro (.inl rfl) (by decide) (by decide) ⟨by decide, by decide⟩
  exact not_longZone hzone hlong

end DocSchema.Calendar
