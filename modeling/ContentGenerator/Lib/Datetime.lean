import Mathlib.Algebra.Group.Nat.Defs
import Mathlib.Data.Char
import Mathlib.Data.List.Lex

/-!
# Datetimes and their text

A `datetime` without a time zone: a date of the calendar and a time of day. Its texts are the fields with
leading zeros, so comparing two texts as texts is comparing the moments: `clockText_lt_iff` and
`clockText_eq_iff`, for the text up to the second. `isoformat` is read back by `ofIsoformat`
(`ofIsoformat_isoformat`).
-/

namespace ContentGenerator.Lib

open List Option Nat

variable {a b value width : ℕ}

/-! ### Digits -/

def digitChar (digit : ℕ) : Char := Char.ofNat (48 + digit)

/-- The last digits of a number, with leading zeros. -/
def padded : ℕ → ℕ → List Char
  | 0, _ => []
  | width + 1, value => digitChar (value / 10 ^ width) :: padded width (value % 10 ^ width)

/-- A number of so many digits at the front of a text, and what follows. -/
def readPadded : ℕ → List Char → Option (ℕ × List Char)
  | 0, text => some (0, text)
  | width + 1, c :: text =>
    if c.isDigit then
      (readPadded width text).map fun (value, rest) ↦ ((c.toNat - 48) * 10 ^ width + value, rest)
    else none
  | _ + 1, [] => none

theorem digitChar_lt_iff (ha : a < 10) (hb : b < 10) : digitChar a < digitChar b ↔ a < b := by
  have hall : ∀ a b : Fin 10, digitChar a.val < digitChar b.val ↔ a.val < b.val := by decide
  exact hall ⟨a, ha⟩ ⟨b, hb⟩

theorem digitChar_digit (ha : a < 10) : (digitChar a).isDigit = true ∧ (digitChar a).toNat - 48 = a := by
  have hall : ∀ a : Fin 10, (digitChar a.val).isDigit = true ∧ (digitChar a.val).toNat - 48 = a.val := by decide
  exact hall ⟨a, ha⟩

theorem digitChar_inj (ha : a < 10) (hb : b < 10) (h : digitChar a = digitChar b) : a = b := by
  have hvalue := congrArg (fun c : Char ↦ c.toNat - 48) h
  simp only [(digitChar_digit ha).2, (digitChar_digit hb).2] at hvalue
  exact hvalue

theorem length_padded (width value : ℕ) : (padded width value).length = width := by
  induction width generalizing value with
  | zero => rfl
  | succ width ih => rw [padded, length_cons, ih]

theorem div_pow_lt (h : value < 10 ^ (width + 1)) : value / 10 ^ width < 10 := by
  refine Nat.div_lt_of_lt_mul ?_
  rwa [Nat.pow_succ] at h

theorem readPadded_padded (h : value < 10 ^ width) (rest : List Char) :
    readPadded width (padded width value ++ rest) = some (value, rest) := by
  induction width generalizing value with
  | zero =>
    have hzero : value = 0 := by simpa using h
    rw [hzero]
    rfl
  | succ width ih =>
    obtain ⟨hdigit, hvalue⟩ := digitChar_digit (div_pow_lt h)
    rw [padded, cons_append, readPadded, if_pos hdigit, ih (mod_lt _ (Nat.pow_pos (by decide))), hvalue]
    simp only [map_some]
    rw [Nat.mul_comm, div_add_mod]

theorem padded_inj (ha : a < 10 ^ width) (hb : b < 10 ^ width) :
    padded width a = padded width b ↔ a = b := by
  refine ⟨fun h ↦ ?_, fun h ↦ h ▸ rfl⟩
  have hread := (readPadded_padded ha []).symm.trans (h ▸ readPadded_padded hb [])
  exact (Prod.mk.inj (Option.some.inj hread)).1

/-- Numbers with leading zeros are compared as texts. -/
theorem padded_lt_iff (ha : a < 10 ^ width) (hb : b < 10 ^ width) :
    padded width a < padded width b ↔ a < b := by
  induction width generalizing a b with
  | zero =>
    have hzero : a = 0 ∧ b = 0 := by simpa using And.intro ha hb
    rw [hzero.1, hzero.2]
    exact iff_of_false (List.lt_irrefl _) (Nat.lt_irrefl _)
  | succ width ih =>
    have hpow : 0 < 10 ^ width := Nat.pow_pos (by decide)
    rw [padded, padded, cons_lt_cons_iff, digitChar_lt_iff (div_pow_lt ha) (div_pow_lt hb),
      ih (mod_lt _ hpow) (mod_lt _ hpow)]
    have hdiv : digitChar (a / 10 ^ width) = digitChar (b / 10 ^ width) ↔ a / 10 ^ width = b / 10 ^ width :=
      ⟨digitChar_inj (div_pow_lt ha) (div_pow_lt hb), fun h ↦ h ▸ rfl⟩
    rw [hdiv]
    have haeq := div_add_mod a (10 ^ width)
    have hbeq := div_add_mod b (10 ^ width)
    constructor
    · rintro (hlt | ⟨heq, hlt⟩)
      · exact lt_of_not_ge fun hle ↦ absurd (Nat.div_le_div_right hle) (Nat.not_le.mpr hlt)
      · rw [heq] at haeq
        omega
    · intro hlt
      rcases Nat.lt_or_ge (a / 10 ^ width) (b / 10 ^ width) with hquot | hquot
      · exact .inl hquot
      · have heq := Nat.le_antisymm (Nat.div_le_div_right (Nat.le_of_lt hlt)) hquot
        rw [heq] at haeq
        exact .inr ⟨heq, by omega⟩

theorem isDigit_of_mem_padded (h : value < 10 ^ width) {c : Char} (hc : c ∈ padded width value) :
    c.isDigit = true := by
  induction width generalizing value with
  | zero => exact absurd hc not_mem_nil
  | succ width ih =>
    rcases mem_cons.mp hc with rfl | hrest
    · exact (digitChar_digit (div_pow_lt h)).1
    · exact ih (mod_lt _ (Nat.pow_pos (by decide))) hrest

/-- Texts whose first parts have one length are compared part by part. -/
theorem append_lt_append_iff {a a' b b' : List Char} (h : a.length = a'.length) :
    a ++ b < a' ++ b' ↔ a < a' ∨ a = a' ∧ b < b' := by
  induction a generalizing a' with
  | nil =>
    obtain rfl := eq_nil_of_length_eq_zero h.symm
    simp
  | cons c a ih =>
    cases a' with
    | nil => simp at h
    | cons c' a' =>
      rw [cons_append, cons_append, cons_lt_cons_iff, cons_lt_cons_iff,
        ih (Nat.succ.inj h), List.cons.injEq]
      tauto

theorem cons_same_lt_iff (c : Char) (a b : List Char) : c :: a < c :: b ↔ a < b := by
  rw [cons_lt_cons_iff]
  simp

/-! ### Datetimes -/

def daysInMonth (year month : ℕ) : ℕ :=
  if month = 2 then if year % 4 = 0 ∧ (year % 100 ≠ 0 ∨ year % 400 = 0) then 29 else 28
  else if month = 4 ∨ month = 6 ∨ month = 9 ∨ month = 11 then 30
  else 31

/-- The fields are a date of the calendar and a time of day. -/
def IsDatetime (year month day hour minute second microsecond : ℕ) : Prop :=
  (1 ≤ year ∧ year ≤ 9999) ∧ (1 ≤ month ∧ month ≤ 12) ∧ (1 ≤ day ∧ day ≤ daysInMonth year month) ∧
    hour < 24 ∧ minute < 60 ∧ second < 60 ∧ microsecond < 1000000

instance (year month day hour minute second microsecond : ℕ) :
    Decidable (IsDatetime year month day hour minute second microsecond) := by
  unfold IsDatetime
  infer_instance

/-- A `datetime` without a time zone. -/
structure Datetime where
  year : ℕ
  month : ℕ
  day : ℕ
  hour : ℕ
  minute : ℕ
  second : ℕ
  microsecond : ℕ
  valid : IsDatetime year month day hour minute second microsecond

namespace Datetime

theorem day_le (d : Datetime) : d.day ≤ 31 := by
  have h := d.valid.2.2.1.2
  unfold daysInMonth at h
  split_ifs at h <;> omega

/-- `moment.replace(microsecond=0)`. -/
def wholeSecond (d : Datetime) : Datetime where
  year := d.year
  month := d.month
  day := d.day
  hour := d.hour
  minute := d.minute
  second := d.second
  microsecond := 0
  valid := by
    obtain ⟨hyear, hmonth, hday, hhour, hminute, hsecond, -⟩ := d.valid
    exact ⟨hyear, hmonth, hday, hhour, hminute, hsecond, by decide⟩

/-- The place of the second of a moment in the order of time. -/
def seconds (d : Datetime) : ℕ :=
  ((((d.year * 13 + d.month) * 32 + d.day) * 24 + d.hour) * 60 + d.minute) * 60 + d.second

/-- The place of a moment in the order of time. -/
def ticks (d : Datetime) : ℕ := d.seconds * 1000000 + d.microsecond

theorem seconds_eq (d : Datetime) : d.seconds = d.ticks / 1000000 := by
  have h := d.valid.2.2.2.2.2.2
  unfold ticks
  omega

@[simp] theorem seconds_wholeSecond (d : Datetime) : d.wholeSecond.seconds = d.seconds := rfl

/-- The date and the time of day up to the second, with the separator between them. -/
def clockText (separator : Char) (d : Datetime) : List Char :=
  padded 4 d.year ++ '-' :: padded 2 d.month ++ '-' :: padded 2 d.day ++
    separator :: padded 2 d.hour ++ ':' :: padded 2 d.minute ++ ':' :: padded 2 d.second

/-- Comparing texts is comparing moments, up to the second. -/
theorem clockText_lt_iff (separator : Char) (d e : Datetime) :
    clockText separator d < clockText separator e ↔ d.seconds < e.seconds := by
  obtain ⟨hyear, hmonth, -, hhour, hminute, hsecond, -⟩ := d.valid
  obtain ⟨hyear', hmonth', -, hhour', hminute', hsecond', -⟩ := e.valid
  have hday := d.day_le
  have hday' := e.day_le
  unfold clockText
  simp only [append_assoc, cons_append]
  rw [append_lt_append_iff (by simp only [length_padded]), padded_lt_iff (by omega) (by omega),
    padded_inj (by omega) (by omega), cons_same_lt_iff,
    append_lt_append_iff (by simp only [length_padded]), padded_lt_iff (by omega) (by omega),
    padded_inj (by omega) (by omega), cons_same_lt_iff,
    append_lt_append_iff (by simp only [length_padded]), padded_lt_iff (by omega) (by omega),
    padded_inj (by omega) (by omega), cons_same_lt_iff,
    append_lt_append_iff (by simp only [length_padded]), padded_lt_iff (by omega) (by omega),
    padded_inj (by omega) (by omega), cons_same_lt_iff,
    append_lt_append_iff (by simp only [length_padded]), padded_lt_iff (by omega) (by omega),
    padded_inj (by omega) (by omega), cons_same_lt_iff, padded_lt_iff (by omega) (by omega)]
  unfold seconds
  omega

theorem clockText_eq_iff (separator : Char) (d e : Datetime) :
    clockText separator d = clockText separator e ↔ d.seconds = e.seconds := by
  have hlt := clockText_lt_iff separator d e
  have hgt := clockText_lt_iff separator e d
  constructor
  · intro h
    rw [h] at hlt hgt
    have hirrefl := List.lt_irrefl (clockText separator e)
    exact Nat.le_antisymm (Nat.not_lt.mp fun hless ↦ hirrefl (hgt.mpr hless))
      (Nat.not_lt.mp fun hless ↦ hirrefl (hlt.mpr hless))
  · intro h
    refine le_antisymm (not_lt.mp fun hless ↦ ?_) (not_lt.mp fun hless ↦ ?_)
    · have := hgt.mp hless
      omega
    · have := hlt.mp hless
      omega

def isoformat (d : Datetime) : List Char :=
  clockText 'T' d ++ if d.microsecond = 0 then [] else '.' :: padded 6 d.microsecond

/-- The text of a datetime holds nothing but digits and separators. -/
theorem notMem_isoformat (d : Datetime) {c : Char} (hdigit : c.isDigit = false)
    (hseparator : c ∉ ['-', 'T', ':', '.']) : c ∉ d.isoformat := by
  obtain ⟨hyear, hmonth, -, hhour, hminute, hsecond, hmicrosecond⟩ := d.valid
  have hday := d.day_le
  have hpadded : ∀ width value, value < 10 ^ width → c ∉ padded width value := by
    intro width value hvalue hc
    rw [isDigit_of_mem_padded hvalue hc] at hdigit
    cases hdigit
  simp only [mem_cons, not_mem_nil, or_false, not_or] at hseparator
  obtain ⟨hdash, hT, hcolon, hdot⟩ := hseparator
  have hfraction : c ∉ if d.microsecond = 0 then [] else '.' :: padded 6 d.microsecond := by
    split_ifs
    · exact not_mem_nil
    · exact not_mem_cons_of_ne_of_not_mem hdot (hpadded _ _ hmicrosecond)
  simp only [isoformat, clockText, mem_append, mem_cons, not_or]
  exact ⟨⟨⟨⟨⟨⟨hpadded _ _ (by omega), hdash, hpadded _ _ (by omega)⟩, hdash, hpadded _ _ (by omega)⟩, hT,
    hpadded _ _ (by omega)⟩, hcolon, hpadded _ _ (by omega)⟩, hcolon, hpadded _ _ (by omega)⟩, hfraction⟩

def dropChar (c : Char) : List Char → Option (List Char)
  | first :: rest => if first = c then some rest else none
  | [] => none

/-- The fraction at the end of a text in the format of `isoformat`. -/
def readFraction (text : List Char) : Option ℕ :=
  match text with
  | [] => some 0
  | _ => (dropChar '.' text).bind fun rest ↦ (readPadded 6 rest).bind fun (value, more) ↦
    if more = [] then some value else none

/-- `datetime.fromisoformat` on a text in the format of `isoformat`. -/
def ofIsoformat (text : List Char) : Option Datetime := do
  let (year, text) ← readPadded 4 text
  let text ← dropChar '-' text
  let (month, text) ← readPadded 2 text
  let text ← dropChar '-' text
  let (day, text) ← readPadded 2 text
  let text ← dropChar 'T' text
  let (hour, text) ← readPadded 2 text
  let text ← dropChar ':' text
  let (minute, text) ← readPadded 2 text
  let text ← dropChar ':' text
  let (second, text) ← readPadded 2 text
  let microsecond ← readFraction text
  if h : IsDatetime year month day hour minute second microsecond then
    some ⟨year, month, day, hour, minute, second, microsecond, h⟩
  else none

theorem dropChar_cons (c : Char) (rest : List Char) : dropChar c (c :: rest) = some rest := if_pos rfl

theorem readFraction_isoformat {microsecond : ℕ} (h : microsecond < 1000000) :
    readFraction (if microsecond = 0 then [] else '.' :: padded 6 microsecond) = some microsecond := by
  split_ifs with hzero
  · rw [hzero]
    rfl
  · have hread := readPadded_padded (show microsecond < 10 ^ 6 from h) []
    rw [append_nil] at hread
    unfold readFraction
    rw [dropChar_cons]
    simp [hread]

/-- A datetime is read back from its text. -/
@[simp] theorem ofIsoformat_isoformat (d : Datetime) : ofIsoformat d.isoformat = some d := by
  obtain ⟨year, month, day, hour, minute, second, microsecond, hvalid⟩ := d
  obtain ⟨hyear, hmonth, -, hhour, hminute, hsecond, hmicrosecond⟩ := id hvalid
  have hday := day_le ⟨year, month, day, hour, minute, second, microsecond, hvalid⟩
  dsimp only at hday
  unfold isoformat clockText ofIsoformat
  simp only [append_assoc, cons_append]
  rw [readPadded_padded (by omega)]
  simp only [bind_eq_bind, bind_some, dropChar_cons]
  rw [readPadded_padded (by omega)]
  simp only [bind_some, dropChar_cons]
  rw [readPadded_padded (by omega)]
  simp only [bind_some, dropChar_cons]
  rw [readPadded_padded (by omega)]
  simp only [bind_some, dropChar_cons]
  rw [readPadded_padded (by omega)]
  simp only [bind_some, dropChar_cons]
  rw [readPadded_padded (by omega)]
  simp only [bind_some, readFraction_isoformat hmicrosecond, dif_pos hvalid]

end Datetime

end ContentGenerator.Lib
