import Mathlib.Data.Nat.Digits.Lemmas
import Mathlib.Data.String.Basic
import Mathlib.Order.Monotone.Basic

set_option autoImplicit false

namespace CivilTime

section Text
variable {α : Type*} [LinearOrder α]

theorem append_lt_append_iff {a b x y : List α} (h : a.length = b.length) :
    a ++ x < b ++ y ↔ a < b ∨ a = b ∧ x < y := by
  induction a generalizing b with
  | nil =>
    have hb : b = [] := List.length_eq_zero_iff.mp h.symm
    simp [hb]
  | cons c a ih =>
    obtain ⟨d, b, rfl⟩ := List.exists_cons_of_length_eq_add_one h.symm
    rw [List.cons_append, List.cons_append, List.cons_lt_cons_iff, List.cons_lt_cons_iff,
      ih (Nat.succ.inj h), List.cons.injEq]
    tauto

theorem eq_iff_of_lt_iff {β : Type*} [LinearOrder β] {a b : α} {c d : β} (hlt : a < b ↔ c < d)
    (hgt : b < a ↔ d < c) : a = b ↔ c = d := by
  rw [le_antisymm_iff, le_antisymm_iff, ← not_lt, ← not_lt, ← not_lt, ← not_lt, hlt, hgt]

end Text

section Digits

def pad : ℕ → ℕ → List Char
  | 0, _ => []
  | width + 1, n => Nat.digitChar (n / 10 ^ width % 10) :: pad width n

@[simp] theorem length_pad (width n : ℕ) : (pad width n).length = width := by
  induction width with
  | zero => rfl
  | succ width ih => rw [pad, List.length_cons, ih]

theorem digitChar_lt_iff {a b : ℕ} (ha : a < 10) (hb : b < 10) :
    Nat.digitChar a < Nat.digitChar b ↔ a < b := by
  have hall : ∀ a < 10, ∀ b < 10, Nat.digitChar a < Nat.digitChar b ↔ a < b := by decide
  exact hall a ha b hb

theorem digitChar_inj {a b : ℕ} (ha : a < 10) (hb : b < 10) :
    Nat.digitChar a = Nat.digitChar b ↔ a = b := by
  have hall : ∀ a < 10, ∀ b < 10, Nat.digitChar a = Nat.digitChar b ↔ a = b := by decide
  exact hall a ha b hb

theorem add_mul_lt_iff {p a b c d : ℕ} (ha : a < p) (hb : b < p) :
    a + p * c < b + p * d ↔ c < d ∨ c = d ∧ a < b := by
  rcases lt_trichotomy c d with h | rfl | h
  · have hle : p * (c + 1) ≤ p * d := Nat.mul_le_mul_left p h
    rw [Nat.mul_succ] at hle
    simp only [h, true_or, iff_true]
    omega
  · simp
  · have hle : p * (d + 1) ≤ p * c := Nat.mul_le_mul_left p h
    rw [Nat.mul_succ] at hle
    constructor
    · omega
    · omega

theorem pad_lt_pad_iff (width n m : ℕ) :
    pad width n < pad width m ↔ n % 10 ^ width < m % 10 ^ width := by
  induction width with
  | zero => simp [pad, Nat.mod_one]
  | succ width ih =>
    have hp : 0 < 10 ^ width := Nat.pow_pos (by decide)
    have hn : n / 10 ^ width % 10 < 10 := Nat.mod_lt _ (by decide)
    have hm : m / 10 ^ width % 10 < 10 := Nat.mod_lt _ (by decide)
    rw [pad, pad, List.cons_lt_cons_iff, ih, digitChar_lt_iff hn hm, digitChar_inj hn hm,
      Nat.mod_pow_succ, Nat.mod_pow_succ,
      add_mul_lt_iff (Nat.mod_lt n hp) (Nat.mod_lt m hp)]

theorem pad_eq_pad_iff (width n m : ℕ) :
    pad width n = pad width m ↔ n % 10 ^ width = m % 10 ^ width :=
  eq_iff_of_lt_iff (pad_lt_pad_iff width n m) (pad_lt_pad_iff width m n)

theorem pad_add (width k n : ℕ) : pad (width + k) n = pad width (n / 10 ^ k) ++ pad k n := by
  induction width with
  | zero => simp [pad]
  | succ width ih =>
    rw [Nat.succ_add, pad, pad, ih, List.cons_append, Nat.div_div_eq_div_mul, ← pow_add,
      Nat.add_comm k]

/-- The last `3 * groups` digits in groups of three, without those that are zero up to the
    end, and then the mark. -/
def grouped (mark : List Char) : ℕ → ℕ → List Char
  | 0, _ => mark
  | groups + 1, n =>
    if n % 1000 ^ (groups + 1) = 0 then mark
    else pad 3 (n / 1000 ^ groups) ++ grouped mark groups n

theorem lt_pad_append {c : Char} (hc : c < '0') (rest : List Char) (width n : ℕ)
    (more : List Char) : c :: rest < pad (width + 1) n ++ more := by
  have hdigit : ∀ d < 10, '0' ≤ Nat.digitChar d := by decide
  rw [pad, List.cons_append, List.cons_lt_cons_iff]
  exact .inl (hc.trans_le (hdigit _ (Nat.mod_lt _ (by decide))))

/-- A mark below the digits sorts a number before those that go on. -/
theorem grouped_lt_grouped_iff {c : Char} (hc : c < '0') (rest : List Char) (groups n m : ℕ) :
    grouped (c :: rest) groups n < grouped (c :: rest) groups m ↔
      n % 1000 ^ groups < m % 1000 ^ groups := by
  induction groups with
  | zero => simp [grouped, Nat.mod_one]
  | succ groups ih =>
    have hp : 0 < 1000 ^ groups := Nat.pow_pos (by decide)
    rw [grouped, grouped]
    split_ifs with hn hm hm
    · simp [hn, hm]
    · exact iff_of_true (lt_pad_append hc rest 2 _ _) (by omega)
    · exact iff_of_false (lt_pad_append hc rest 2 _ _).asymm (by omega)
    · rw [append_lt_append_iff (by simp), pad_lt_pad_iff, pad_eq_pad_iff, ih,
        show 10 ^ 3 = 1000 from rfl, @Nat.mod_pow_succ n 1000 groups, @Nat.mod_pow_succ m 1000 groups,
        add_mul_lt_iff (Nat.mod_lt n hp) (Nat.mod_lt m hp)]

end Digits

section Dates

def isLeap (year : ℕ) : Bool := (year % 4 = 0 ∧ year % 100 ≠ 0) ∨ year % 400 = 0

def daysIn (year month : ℕ) : ℕ :=
  if month = 2 then if isLeap year then 29 else 28
  else if month = 4 ∨ month = 6 ∨ month = 9 ∨ month = 11 then 30
  else 31

theorem one_le_daysIn (year month : ℕ) : 1 ≤ daysIn year month := by
  unfold daysIn
  split_ifs <;> decide

theorem daysIn_le (year month : ℕ) : daysIn year month ≤ 31 := by
  unfold daysIn
  split_ifs <;> decide

structure Date where
  year : ℕ
  month : ℕ
  day : ℕ
  one_le_month : 1 ≤ month
  month_le : month ≤ 12
  one_le_day : 1 ≤ day
  day_le : day ≤ daysIn year month

def Date.next (d : Date) : Date :=
  if hday : d.day < daysIn d.year d.month then
    ⟨d.year, d.month, d.day + 1, d.one_le_month, d.month_le, by omega, hday⟩
  else if hmonth : d.month < 12 then
    ⟨d.year, d.month + 1, 1, by omega, hmonth, le_rfl, one_le_daysIn _ _⟩
  else ⟨d.year + 1, 1, 1, le_rfl, by decide, le_rfl, one_le_daysIn _ _⟩

/-- The date as one number, whose order is that of the calendar. -/
def Date.code (d : Date) : ℕ := (d.year * 100 + d.month) * 100 + d.day

theorem Date.code_lt_next (d : Date) : d.code < d.next.code := by
  have hmonth := d.month_le
  have hday := d.day_le.trans (daysIn_le _ _)
  unfold Date.next Date.code
  split_ifs <;> dsimp only <;> omega

def dateOf (epoch : Date) : ℕ → Date
  | 0 => epoch
  | days + 1 => (dateOf epoch days).next

theorem dateOf_code_strictMono (epoch : Date) : StrictMono (fun days => (dateOf epoch days).code) :=
  strictMono_nat_of_lt_succ (fun days => (dateOf epoch days).code_lt_next)

theorem dateOf_year_mono (epoch : Date) {a b : ℕ} (h : a ≤ b) :
    (dateOf epoch a).year ≤ (dateOf epoch b).year := by
  have hcode : (dateOf epoch a).code ≤ (dateOf epoch b).code :=
    (dateOf_code_strictMono epoch).monotone h
  have hmonth := (dateOf epoch b).month_le
  have hday := (dateOf epoch b).day_le.trans (daysIn_le _ _)
  unfold Date.code at hcode
  omega

def daysBefore (month : ℕ) : ℕ := ((List.range (month - 1)).map (fun m => daysIn 1 (m + 1))).sum

/-- Days counted in common years, which no day advances by more than one. -/
def Date.commonDays (d : Date) : ℕ := 365 * d.year + daysBefore d.month + d.day

theorem Date.commonDays_next_le (d : Date) : d.next.commonDays ≤ d.commonDays + 1 := by
  have hfull : ∀ month, 1 ≤ month → month ≤ 12 →
      daysBefore (month + 1) ≤ daysBefore month + daysIn d.year month := by
    intro month hone hle
    have hcommon : daysIn 1 month ≤ daysIn d.year month := by
      unfold daysIn
      split_ifs <;> simp_all [isLeap]
    obtain ⟨m, rfl⟩ := Nat.exists_eq_add_of_le' hone
    simpa [daysBefore, List.range_succ] using hcommon
  have hyear : daysBefore 1 = 0 ∧ daysBefore (12 + 1) = 365 := by decide
  have hstep := hfull d.month d.one_le_month d.month_le
  have hlast := d.month_le
  unfold Date.next Date.commonDays
  split_ifs with hday hmonth
  · exact le_of_eq (by dsimp only; omega)
  · dsimp only
    omega
  · have htwelve : d.month = 12 := by omega
    rw [htwelve] at hstep hday ⊢
    dsimp only
    omega

theorem dateOf_year_le (epoch : Date) (days : ℕ) :
    365 * (dateOf epoch days).year ≤ epoch.commonDays + days := by
  have hcommon : (dateOf epoch days).commonDays ≤ epoch.commonDays + days := by
    induction days with
    | zero => exact le_rfl
    | succ days ih =>
      have hnext := (dateOf epoch days).commonDays_next_le
      rw [dateOf]
      omega
  unfold Date.commonDays at hcommon ⊢
  omega

def Date.text (d : Date) : List Char :=
  pad 4 d.year ++ '-' :: (pad 2 d.month ++ '-' :: pad 2 d.day)

theorem Date.length_text (d : Date) : d.text.length = 10 := by
  simp [Date.text]

theorem Date.text_lt_text_iff {d e : Date} (hd : d.year < 10000) (he : e.year < 10000) :
    d.text < e.text ↔ d.code < e.code := by
  have hdm := d.month_le
  have hem := e.month_le
  have hdd := d.day_le.trans (daysIn_le _ _)
  have hed := e.day_le.trans (daysIn_le _ _)
  unfold Date.text Date.code
  rw [append_lt_append_iff (by simp), List.cons_lt_cons_iff, append_lt_append_iff (by simp),
    List.cons_lt_cons_iff]
  simp only [pad_lt_pad_iff, pad_eq_pad_iff, lt_irrefl, false_or, true_and]
  omega

theorem dateOf_text_lt_iff {epoch : Date} {a b : ℕ} (ha : (dateOf epoch a).year < 10000)
    (hb : (dateOf epoch b).year < 10000) :
    (dateOf epoch a).text < (dateOf epoch b).text ↔ a < b := by
  rw [Date.text_lt_text_iff ha hb]
  exact (dateOf_code_strictMono epoch).lt_iff_lt

theorem dateOf_text_eq_iff {epoch : Date} {a b : ℕ} (ha : (dateOf epoch a).year < 10000)
    (hb : (dateOf epoch b).year < 10000) :
    (dateOf epoch a).text = (dateOf epoch b).text ↔ a = b :=
  eq_iff_of_lt_iff (dateOf_text_lt_iff ha hb) (dateOf_text_lt_iff hb ha)

theorem dated_append_lt_iff {epoch : Date} {a b : ℕ} (ha : (dateOf epoch a).year < 10000)
    (hb : (dateOf epoch b).year < 10000) (x y : List Char) :
    (dateOf epoch a).text ++ x < (dateOf epoch b).text ++ y ↔ a < b ∨ a = b ∧ x < y := by
  have hlength : (dateOf epoch a).text.length = (dateOf epoch b).text.length := by
    rw [Date.length_text, Date.length_text]
  rw [append_lt_append_iff hlength, dateOf_text_lt_iff ha hb, dateOf_text_eq_iff ha hb]

theorem dated_lt_dated_iff {epoch : Date} {a b : ℕ} (ha : (dateOf epoch a).year < 10000)
    (hb : (dateOf epoch b).year < 10000) {c d : Char} (hcd : c ≠ d) (x y : List Char) :
    (dateOf epoch a).text ++ c :: x < (dateOf epoch b).text ++ d :: y ↔ a < b ∨ a = b ∧ c < d := by
  rw [dated_append_lt_iff ha hb, List.cons_lt_cons_iff]
  simp [hcd]

end Dates
end CivilTime
