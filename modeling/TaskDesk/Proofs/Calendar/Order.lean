import Mathlib.Order.Monotone.Basic
import TaskDesk.Calendar.Iso
import TaskDesk.Proofs.Text.Order

/-!
# Dates in order

A date comes before another one if its year is smaller, or its month in the same
year, or its day in the same month. Years, months and days are written with a fixed
number of digits, so written dates are ordered as texts just as the dates are in
time, whatever stands behind them. The reader of due dates finds the date again at
the start of such a text.

Results:
* `precedes_toIso`: texts that begin with written dates are ordered by the dates.
* `ofDue?_toIso_append`: what begins with a written date is read as that date.
-/

namespace TaskDesk

/-! ## Digits -/

theorem digitChar_mod (n : Nat) : digitChar (n % 10) = digitChar n := by
  simp [digitChar]

/-- What ten characters have, the character of every digit has. -/
theorem forall_digitChar {p : CodePoint → Prop} (h : ∀ m < 10, p (digitChar m)) (n : Nat) :
    p (digitChar n) := by
  rw [← digitChar_mod]
  exact h _ (Nat.mod_lt _ (by decide))

theorem toNat_digitChar (n : Nat) : (digitChar n).toNat = 48 + n % 10 := by
  have key : ∀ m < 10, (digitChar m).toNat = 48 + m := by decide
  rw [← digitChar_mod]
  exact key _ (Nat.mod_lt _ (by decide))

namespace Text

/-- Numbers with the same number of digits are ordered as texts by what they stand
    for, and only where they are the same by what stands behind them. -/
theorem precedes_digits (width : Nat) {m n : Nat} (hm : m < Nat.pow 10 width)
    (hn : n < Nat.pow 10 width) (s t : Text) :
    precedes (digits width m ++ s) (digits width n ++ t) =
      if m = n then precedes s t else decide (m < n) := by
  induction width generalizing m n s t with
  | zero =>
    have hmn : m = n := by
      have hm' : m < 1 := hm
      have hn' : n < 1 := hn
      omega
    rw [if_pos hmn]
    rfl
  | succ width ih =>
    have hm' : m / 10 < Nat.pow 10 width := (Nat.div_lt_iff_lt_mul (by decide)).2 hm
    have hn' : n / 10 < Nat.pow 10 width := (Nat.div_lt_iff_lt_mul (by decide)).2 hn
    have hsame : digitChar m = digitChar n ↔ m % 10 = n % 10 := by
      constructor
      · intro h
        have hvalue := congrArg digitValue? h
        rw [digitValue?_digitChar, digitValue?_digitChar] at hvalue
        exact Option.some.inj hvalue
      · intro h
        rw [← digitChar_mod m, ← digitChar_mod n, h]
    have hlast : precedes (digitChar m :: s) (digitChar n :: t) =
        if m % 10 = n % 10 then precedes s t else decide (m % 10 < n % 10) := by
      show (if digitChar m = digitChar n then precedes s t
        else decide ((digitChar m).toNat < (digitChar n).toNat)) = _
      simp only [hsame, toNat_digitChar, Nat.add_lt_add_iff_left]
    rw [digits, digits, List.append_assoc, List.append_assoc, ih hm' hn']
    show (if m / 10 = n / 10 then precedes (digitChar m :: s) (digitChar n :: t) else _) = _
    rw [hlast]
    by_cases hfront : m / 10 = n / 10
    · rw [if_pos hfront]
      by_cases hback : m % 10 = n % 10
      · rw [if_pos hback, if_pos (by omega)]
      · rw [if_neg hback, if_neg (by omega), decide_eq_decide]
        omega
    · rw [if_neg hfront, if_neg (by omega), decide_eq_decide]
      omega

theorem forall_mem_digits {p : CodePoint → Prop} (h : ∀ m < 10, p (digitChar m))
    (width n : Nat) : ∀ c ∈ digits width n, p c := by
  induction width generalizing n with
  | zero => simp [digits]
  | succ width ih =>
    intro c hc
    rw [digits, List.mem_append, List.mem_singleton] at hc
    rcases hc with hc | rfl
    · exact ih _ c hc
    · exact forall_digitChar h n

theorem utf8Size_eq_length {t : Text} (h : ∀ c ∈ t, c.utf8Size = 1) : utf8Size t = t.length := by
  suffices hfold : ∀ n, t.foldl (fun n c => n + c.utf8Size) n = n + t.length by
    simpa [utf8Size] using hfold 0
  induction t with
  | nil => simp
  | cons c t ih =>
    intro n
    have hc : c.utf8Size = 1 := h c (by simp)
    rw [List.foldl_cons, ih (fun d hd => h d (by simp [hd])), hc, List.length_cons]
    omega

end Text

namespace Date

/-! ## Order in time -/

theorem monotone_daysBeforeMonth (year : Nat) : Monotone (daysBeforeMonth year) := by
  refine monotone_nat_of_le_succ fun month => ?_
  cases month with
  | zero => exact Nat.le_refl 0
  | succ month => exact Nat.le_add_right _ _

theorem monotone_daysBeforeYear : Monotone daysBeforeYear := by
  refine monotone_nat_of_le_succ fun year => ?_
  unfold daysBeforeYear
  omega

/-- A date lies before the first day of every later month of its year. -/
theorem daysBeforeMonth_add_day_le (d : Date) {month : Nat} (h : d.month < month) :
    daysBeforeMonth d.year d.month + d.day ≤ daysBeforeMonth d.year month := by
  have hnext := daysBeforeMonth_succ d.year d.month d.month_pos
  have hmono := monotone_daysBeforeMonth d.year (show d.month + 1 ≤ month from h)
  have hday := d.day_le
  omega

variable {d e : Date}

theorem lt_of_year_lt (h : d.year < e.year) : d < e := by
  have hwithin : d.month < 13 := Nat.lt_succ_of_le d.month_le
  have hmonth := daysBeforeMonth_add_day_le d hwithin
  have hnext := daysBeforeYear_succ d.year d.year_pos
  have hmono := monotone_daysBeforeYear (show d.year + 1 ≤ e.year from h)
  have hday := e.day_pos
  rw [lt_iff, number, number]
  omega

theorem lt_of_month_lt (hyear : d.year = e.year) (h : d.month < e.month) : d < e := by
  have hmonth := daysBeforeMonth_add_day_le d h
  have hday := e.day_pos
  rw [lt_iff, number, number, ← hyear]
  omega

theorem lt_of_day_lt (hyear : d.year = e.year) (hmonth : d.month = e.month) (h : d.day < e.day) :
    d < e := by
  rw [lt_iff, number, number, ← hyear, ← hmonth]
  omega

theorem eq_of_parts (hyear : d.year = e.year) (hmonth : d.month = e.month) (hday : d.day = e.day) :
    d = e := by
  cases d
  cases e
  cases hyear
  cases hmonth
  cases hday
  rfl

theorem lt_asymm (h : d < e) : ¬ e < d := by
  rw [lt_iff] at h ⊢
  omega

theorem le_antisymm (h : d ≤ e) (h' : e ≤ d) : d = e := by
  rw [le_iff] at h h'
  have hnot : ¬ d < e ∧ ¬ e < d := by
    rw [lt_iff, lt_iff]
    omega
  have hyear : d.year = e.year :=
    Nat.le_antisymm (Nat.not_lt.1 (mt lt_of_year_lt hnot.2)) (Nat.not_lt.1 (mt lt_of_year_lt hnot.1))
  have hmonth : d.month = e.month :=
    Nat.le_antisymm (Nat.not_lt.1 (mt (lt_of_month_lt hyear.symm) hnot.2))
      (Nat.not_lt.1 (mt (lt_of_month_lt hyear) hnot.1))
  exact eq_of_parts hyear hmonth <|
    Nat.le_antisymm (Nat.not_lt.1 (mt (lt_of_day_lt hyear.symm hmonth.symm) hnot.2))
      (Nat.not_lt.1 (mt (lt_of_day_lt hyear hmonth) hnot.1))

/-! ## Order of written dates -/

theorem year_lt_pow (d : Date) : d.year < Nat.pow 10 4 := by
  have h := d.year_le
  show d.year < 10000
  omega

theorem month_lt_pow (d : Date) : d.month < Nat.pow 10 2 := by
  have h := d.month_le
  show d.month < 100
  omega

theorem day_lt_pow (d : Date) : d.day < Nat.pow 10 2 := by
  have h : d.day ≤ monthLength d.year d.month := d.day_le
  have hlength : monthLength d.year d.month ≤ 31 := by unfold monthLength; split_ifs <;> omega
  show d.day < 100
  omega

/-- **Written dates are ordered as the dates are.** Texts that begin with two different
    dates are ordered by them, whatever stands behind the dates. -/
theorem precedes_toIso (d e : Date) (s t : Text) :
    Text.precedes (d.toIso ++ s) (e.toIso ++ t) =
      if d = e then Text.precedes s t else decide (d < e) := by
  simp only [toIso, List.append_assoc]
  rw [Text.precedes_digits 4 d.year_lt_pow e.year_lt_pow]
  by_cases hyear : d.year = e.year
  · rw [if_pos hyear, Text.precedes_append_left,
      Text.precedes_digits 2 d.month_lt_pow e.month_lt_pow]
    by_cases hmonth : d.month = e.month
    · rw [if_pos hmonth, Text.precedes_append_left,
        Text.precedes_digits 2 d.day_lt_pow e.day_lt_pow]
      by_cases hday : d.day = e.day
      · rw [if_pos hday, if_pos (eq_of_parts hyear hmonth hday)]
      · rw [if_neg hday, if_neg (fun h => hday (congrArg day h)), decide_eq_decide]
        refine ⟨lt_of_day_lt hyear hmonth, fun h => ?_⟩
        by_contra hge
        exact lt_asymm h (lt_of_day_lt hyear.symm hmonth.symm (by omega))
    · rw [if_neg hmonth, if_neg (fun h => hmonth (congrArg month h)), decide_eq_decide]
      refine ⟨lt_of_month_lt hyear, fun h => ?_⟩
      by_contra hge
      exact lt_asymm h (lt_of_month_lt hyear.symm (by omega))
  · rw [if_neg hyear, if_neg (fun h => hyear (congrArg year h)), decide_eq_decide]
    refine ⟨lt_of_year_lt, fun h => ?_⟩
    by_contra hge
    exact lt_asymm h (lt_of_year_lt (by omega))

/-! ## Written dates are read back -/

theorem readDigits?_digits (width : Nat) {n : Nat} (h : n < Nat.pow 10 width) (rest : Text) :
    readDigits? width (Text.digits width n ++ rest) = some (n, rest) := by
  have hlength := Text.length_digits width n
  have htake : (Text.digits width n ++ rest).take width = Text.digits width n :=
    List.take_left' hlength
  have hdrop : (Text.digits width n ++ rest).drop width = rest := List.drop_left' hlength
  have hdigits : (Text.digits width n).all CodePoint.isAsciiDigit = true :=
    List.all_eq_true.2
      (Text.forall_mem_digits (p := (CodePoint.isAsciiDigit · = true)) (by decide) width n)
  simp only [readDigits?, htake, hdrop, hlength, hdigits, and_self, if_true,
    Text.number_digits width n h]

theorem forall_mem_toIso {p : CodePoint → Prop} (hdigit : ∀ m < 10, p (digitChar m))
    (hdash : p '-') (d : Date) : ∀ c ∈ d.toIso, p c := by
  have hdigits (width n : Nat) : ∀ c ∈ Text.digits width n, p c :=
    Text.forall_mem_digits hdigit width n
  have hdash : ∀ c ∈ "-".toText, p c := by simpa [String.toText] using hdash
  simp only [toIso, List.forall_mem_append]
  exact ⟨⟨⟨⟨hdigits _ _, hdash⟩, hdigits _ _⟩, hdash⟩, hdigits _ _⟩

theorem read?_toIso (d : Date) : read? d.toIso = some d := by
  have hdash (t : Text) : "-".toText ++ t = .char '-' :: t := rfl
  have hiso : d.toIso = Text.digits 4 d.year ++ .char '-' ::
      (Text.digits 2 d.month ++ .char '-' :: (Text.digits 2 d.day ++ [])) := by
    simp only [toIso, List.append_assoc, hdash, List.append_nil, List.cons_append]
  have hparts : ofParts? d.year d.month d.day = some d := ofParts?_eq_some_iff.2 ⟨rfl, rfl, rfl⟩
  have hsep (t : Text) : readSeparator? true (.char '-' :: t) = some t := rfl
  have hhead (t : Text) : decide ((CodePoint.char '-' :: t).head? = some (.char '-')) = true := rfl
  have hweek : digitChar (d.month / 10) ≠ 'W' := forall_digitChar (p := (· ≠ 'W')) (by decide) _
  have hmonth (t : Text) :
      Text.digits 2 d.month ++ t = digitChar (d.month / 10) :: digitChar d.month :: t := rfl
  rw [hiso]
  simp only [read?, readDigits?_digits 4 d.year_lt_pow, Option.bind_eq_bind, Option.bind_some,
    hhead, hsep]
  split
  · rename_i rest hrest
    rw [hmonth] at hrest
    exact absurd (List.cons.inj hrest).1 hweek
  · simp only [readDigits?_digits 2 d.month_lt_pow, Option.bind_some, hsep,
      readDigits?_digits 2 d.day_lt_pow, hparts]

/-- **What begins with a written date is read as that date.** -/
theorem ofDue?_toIso_append (d : Date) (s : Text) : ofDue? (d.toIso ++ s) = some d := by
  have htake : (d.toIso ++ s).take 10 = d.toIso := List.take_left' (length_toIso d)
  have hchar : d.toIso.isEncodable = true :=
    List.all_eq_true.2 (forall_mem_toIso (by decide) (by decide) d)
  have hsize : Text.utf8Size d.toIso = 10 := by
    rw [← length_toIso d]
    exact Text.utf8Size_eq_length (forall_mem_toIso (by decide) (by decide) d)
  simp only [ofDue?, htake, hchar, hsize, or_true, and_self, if_true, read?_toIso]

theorem ofDue?_toIso (d : Date) : ofDue? d.toIso = some d := by
  simpa using ofDue?_toIso_append d []

theorem toIso_inj {d e : Date} : d.toIso = e.toIso ↔ d = e := by
  refine ⟨fun h => ?_, congrArg toIso⟩
  have hread : ofDue? d.toIso = ofDue? e.toIso := congrArg ofDue? h
  rw [ofDue?_toIso, ofDue?_toIso] at hread
  exact Option.some.inj hread

end Date
end TaskDesk
