import Mathlib.Data.List.Basic
import Mathlib.Order.Lattice

set_option autoImplicit false

/-!
# A last-writer-wins register that skips equal tags

A register holds one item. A delivered item replaces it when it is newer and
carries another tag. Skipping equal tags leaves the old stamp in place, so the
register reaches the newest item in every delivery order exactly when no other
item has its tag.
-/
namespace DedupRegister

universe u v w
variable {ι : Type u} {τ : Type v} {γ : Type w} [LinearOrder τ] [DecidableEq γ]
  (stamp : ι → τ) (tag : ι → γ)

def Overwrites (reg : Option ι) (i : ι) : Prop := ∀ e ∈ reg, tag e ≠ tag i ∧ stamp e < stamp i

instance (reg : Option ι) (i : ι) : Decidable (Overwrites stamp tag reg i) :=
  inferInstanceAs (Decidable (∀ e ∈ reg, _))

def deliver (reg : Option ι) (i : ι) : Option ι :=
  if Overwrites stamp tag reg i then some i else reg

def run (reg : Option ι) (items : List ι) : Option ι := items.foldl (deliver stamp tag) reg

@[simp] theorem run_nil (reg : Option ι) : run stamp tag reg [] = reg := rfl

@[simp] theorem run_cons (reg : Option ι) (i : ι) (items : List ι) :
    run stamp tag reg (i :: items) = run stamp tag (deliver stamp tag reg i) items := rfl

theorem run_append (reg : Option ι) (xs ys : List ι) :
    run stamp tag reg (xs ++ ys) = run stamp tag (run stamp tag reg xs) ys :=
  List.foldl_append

theorem deliver_none (i : ι) : deliver stamp tag none i = some i := by
  simp [deliver, Overwrites]

def Settling (m : ι) (seen : Prop) (reg : Option ι) : Prop :=
  (seen → reg = some m) ∧ ∀ e ∈ reg, e = m ∨ tag e ≠ tag m ∧ stamp e < stamp m

variable {stamp tag}

theorem settling_deliver {m i : ι} {seen : Prop} {reg : Option ι}
    (h : Settling stamp tag m seen reg)
    (hi : i = m ∨ tag i ≠ tag m ∧ stamp i < stamp m) :
    Settling stamp tag m (seen ∨ i = m) (deliver stamp tag reg i) := by
  unfold deliver
  by_cases ha : Overwrites stamp tag reg i
  · rw [if_pos ha]
    refine ⟨?_, by simpa using hi⟩
    rintro (hs | rfl)
    · -- an item older than `m` does not overwrite once `m` is there
      obtain ⟨hne, hlt⟩ := ha m (by simp [h.1 hs])
      rcases hi with rfl | ⟨_, hold⟩
      · rfl
      · exact absurd (hlt.trans hold) (lt_irrefl _)
    · rfl
  · rw [if_neg ha]
    refine ⟨?_, h.2⟩
    rintro (hs | rfl)
    · exact h.1 hs
    · cases reg with
      | none => exact absurd (by simp [Overwrites]) ha
      | some e =>
        rcases h.2 e (by simp) with rfl | hnew
        · rfl
        · exact absurd (by simpa [Overwrites] using hnew) ha

theorem settling_run {m : ι} (items : List ι) {seen : Prop} {reg : Option ι}
    (h : Settling stamp tag m seen reg)
    (hi : ∀ i ∈ items, i = m ∨ tag i ≠ tag m ∧ stamp i < stamp m) :
    Settling stamp tag m (seen ∨ m ∈ items) (run stamp tag reg items) := by
  induction items generalizing seen reg with
  | nil => simpa using h
  | cons i items ih =>
    have hstep := settling_deliver h (hi i (by simp))
    have hrest := ih hstep (fun j hj => hi j (by simp [hj]))
    have heq : (seen ∨ m ∈ i :: items) ↔ ((seen ∨ i = m) ∨ m ∈ items) := by
      simp only [List.mem_cons, or_assoc, eq_comm]
    rw [run_cons]
    exact ⟨fun hs => hrest.1 (heq.mp hs), hrest.2⟩

theorem run_mem (items : List ι) {reg : Option ι} {e : ι} (h : run stamp tag reg items = some e) :
    e ∈ items ∨ reg = some e := by
  induction items generalizing reg with
  | nil => exact .inr h
  | cons i items ih =>
    rw [run_cons] at h
    rcases ih h with hin | hin
    · exact .inl (List.mem_cons_of_mem i hin)
    · unfold deliver at hin
      split_ifs at hin
      · exact .inl (by simp [Option.some.inj hin])
      · exact .inr hin

/-- Items stamped otherwise keep the register away from the stamp `t`. -/
theorem run_stamp_ne {t : τ} (items : List ι) {reg : Option ι}
    (h : ∀ e ∈ reg, stamp e ≠ t) (hi : ∀ i ∈ items, stamp i ≠ t) :
    ∀ e ∈ run stamp tag reg items, stamp e ≠ t := by
  induction items generalizing reg with
  | nil => exact h
  | cons i items ih =>
    rw [run_cons]
    apply ih _ (fun j hj => hi j (by simp [hj]))
    unfold deliver
    split_ifs
    · rintro e ⟨⟩
      exact hi i (by simp)
    · exact h

section Newest
variable [DecidableEq ι] {S : List ι} {m : ι} (hm : m ∈ S) (hmax : ∀ i ∈ S, stamp i ≤ stamp m)
  (hinj : ∀ i ∈ S, stamp i = stamp m → i = m)
include hm hmax hinj

theorem run_of_unshared (htag : ∀ i ∈ S, tag i = tag m → i = m) (items : List ι)
    (hcover : ∀ i, i ∈ items ↔ i ∈ S) : run stamp tag none items = some m := by
  have hstart : Settling stamp tag m False none := ⟨False.elim, by simp⟩
  have hrun := settling_run items hstart (by
    intro i hi
    have hiS := (hcover i).mp hi
    by_cases he : i = m
    · exact .inl he
    · exact .inr ⟨fun ht => he (htag i hiS ht),
        lt_of_le_of_ne (hmax i hiS) (fun hs => he (hinj i hiS hs))⟩)
  exact hrun.1 (.inr ((hcover m).mpr hm))

omit hmax in
/-- A shared tag is enough to lose the newest item: deliver the sharer first. -/
theorem run_of_shared {i : ι} (hi : i ∈ S) (hne : i ≠ m) (htag : tag i = tag m) :
    ∃ items : List ι, (∀ j, j ∈ items ↔ j ∈ S) ∧ run stamp tag none items ≠ some m := by
  refine ⟨i :: m :: S.filter (· ≠ m), ?_, ?_⟩
  · intro j
    by_cases hj : j = m
    · simp [hj, hm]
    · simp only [List.mem_cons, List.mem_filter, hj, false_or, ne_eq, not_false_eq_true,
        decide_true, and_true]
      exact ⟨fun h => h.elim (fun e => e ▸ hi) id, .inr⟩
  · have hsi : stamp i ≠ stamp m := fun hs => hne (hinj i hi hs)
    have hskip : deliver stamp tag (some i) m = some i := by
      unfold deliver
      rw [if_neg (by simp [Overwrites, htag])]
    rw [run_cons, deliver_none, run_cons, hskip]
    intro he
    have hfar : ∀ e ∈ run stamp tag (some i) (S.filter (· ≠ m)), stamp e ≠ stamp m := by
      apply run_stamp_ne _ (by simpa using hsi)
      intro j hj hs
      obtain ⟨hjS, hjm⟩ := List.mem_filter.mp hj
      exact of_decide_eq_true hjm (hinj j hjS hs)
    exact hfar m he rfl

end Newest
end DedupRegister
