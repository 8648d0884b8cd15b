import CordeliaCore.CursorPaging
import Mathlib.Data.List.Perm.Subperm

set_option autoImplicit false

/-!
# Reading a stamped list page by page

A reader that asks for the rows after the newest stamp it has seen, until a page is empty,
always comes to an end and reads no row twice. It reads every row exactly when no stamp
stands on both sides of a page boundary.
-/
namespace CursorPaging

universe u v
variable {ρ : Type u} {τ : Type v} [LinearOrder τ] (stamp : ρ → τ)

/-- The pages read from a cursor on, or nothing when the fuel does not suffice. -/
def readPages (limit : ℕ) (rows : List ρ) : ℕ → Option τ → Option (List (List ρ))
  | 0, _ => none
  | fuel + 1, since =>
    match page stamp since limit rows with
    | [] => some []
    | r :: rest =>
      (readPages limit rows fuel (((r :: rest).map stamp).max?)).map ((r :: rest) :: ·)

/-- No stamp is shared by a row among the first `k` pages and a row after them. -/
def Unsplit (limit : ℕ) (rows : List ρ) : Prop :=
  ∀ t k, ¬ (rows.countP (fun r => stamp r < t) < k * limit ∧
    k * limit < rows.countP (fun r => stamp r ≤ t))

variable {stamp} {limit : ℕ} {rows : List ρ}

theorem readPages_of_page_nil {since : Option τ} (h : page stamp since limit rows = []) (fuel : ℕ) :
    readPages stamp limit rows (fuel + 1) since = some [] := by
  unfold readPages
  rw [h]

theorem readPages_of_page_ne {since : Option τ} (h : page stamp since limit rows ≠ []) (fuel : ℕ) :
    readPages stamp limit rows (fuel + 1) since =
      (readPages stamp limit rows fuel (((page stamp since limit rows).map stamp).max?)).map
        (page stamp since limit rows :: ·) := by
  conv_lhs => unfold readPages
  cases hpage : page stamp since limit rows with
  | nil => exact absurd hpage h
  | cons r rest => rfl

theorem mem_after {since : Option τ} {r : ρ} :
    r ∈ after stamp since rows ↔ r ∈ rows ∧ ∀ s ∈ since, s < stamp r := by
  cases since <;> simp [after]

theorem after_after {c c' : τ} (h : c ≤ c') :
    after stamp (some c') (after stamp (some c) rows) = after stamp (some c') rows := by
  unfold after
  rw [List.filter_filter]
  apply List.filter_congr
  intro r _
  by_cases hr : c' < stamp r
  · simp [hr, h.trans_lt hr]
  · simp [hr]

theorem page_after {c c' : τ} (h : c ≤ c') :
    page stamp (some c') limit (after stamp (some c) rows) = page stamp (some c') limit rows := by
  unfold page
  rw [after_after h]

theorem cursor_lt_max {c c' : τ} (h : ((page stamp (some c) limit rows).map stamp).max? = some c') :
    c < c' := by
  have hmem : c' ∈ (page stamp (some c) limit rows).map stamp := List.max?_mem h
  obtain ⟨r, hr, rfl⟩ := List.mem_map.mp hmem
  have hafter := (mem_byStamp stamp).mp (List.mem_of_mem_take hr)
  exact (mem_after.mp hafter).2 c rfl

variable (stamp) in
theorem max?_isSome_of_ne {l : List ρ} (h : l ≠ []) : ∃ c, (l.map stamp).max? = some c := by
  cases l with
  | nil => exact absurd rfl h
  | cons r rest => exact ⟨_, List.max?_cons'⟩

/-- Readers of the same page that go on alike from its newest stamp read alike. -/
theorem readPages_congr {rows' : List ρ} {since since' : Option τ} {fuel : ℕ}
    (hpage : page stamp since' limit rows' = page stamp since limit rows)
    (hnext : ∀ next, ((page stamp since limit rows).map stamp).max? = some next →
      readPages stamp limit rows' fuel (some next) = readPages stamp limit rows fuel (some next)) :
    readPages stamp limit rows' (fuel + 1) since' = readPages stamp limit rows (fuel + 1) since := by
  by_cases hnil : page stamp since limit rows = []
  · rw [readPages_of_page_nil hnil, readPages_of_page_nil (hpage.trans hnil)]
  · obtain ⟨next, hmax⟩ := max?_isSome_of_ne stamp hnil
    rw [readPages_of_page_ne hnil, readPages_of_page_ne (hpage ▸ hnil), hpage, hmax, hnext next hmax]

/-- Rows that a cursor has left behind do not matter to the pages after it. -/
theorem readPages_left {c c' : τ} (h : c ≤ c') (fuel : ℕ) :
    readPages stamp limit (after stamp (some c) rows) fuel (some c') =
      readPages stamp limit rows fuel (some c') := by
  induction fuel generalizing c' with
  | zero => rfl
  | succ fuel ih =>
    apply readPages_congr (page_after h)
    intro next hnext
    exact ih (h.trans (cursor_lt_max hnext).le)

theorem readPages_some (c : τ) (fuel : ℕ) :
    readPages stamp limit rows fuel (some c) =
      readPages stamp limit (after stamp (some c) rows) fuel none := by
  cases fuel with
  | zero => rfl
  | succ fuel =>
    have hpage : page stamp none limit (after stamp (some c) rows) =
        page stamp (some c) limit rows := by
      unfold page
      rw [after_none]
    symm
    apply readPages_congr hpage
    intro next hnext
    exact readPages_left (cursor_lt_max hnext).le fuel

theorem countP_after {c : τ} {p : ρ → Bool} (hp : ∀ r, stamp r ≤ c → p r = true) :
    rows.countP p = rows.countP (fun r => stamp r ≤ c) + (after stamp (some c) rows).countP p := by
  unfold after
  rw [List.countP_filter]
  induction rows with
  | nil => rfl
  | cons r rows ih =>
    simp only [List.countP_cons, ih]
    by_cases hr : stamp r ≤ c
    · simp only [hr, hp r hr, not_lt.mpr hr, Option.all_some, decide_true, decide_false,
        Bool.and_false, Bool.false_eq_true, if_true, if_false]
      omega
    · simp only [hr, not_le.mp hr, Option.all_some, decide_true, decide_false, Bool.and_true,
        Bool.false_eq_true, if_false]
      omega

theorem countP_after_le {c t : τ} (h : t ≤ c) :
    (after stamp (some c) rows).countP (fun r => stamp r ≤ t) = 0 := by
  rw [List.countP_eq_zero]
  intro r hr
  have hlt : c < stamp r := (mem_after.mp hr).2 c rfl
  simpa using h.trans_lt hlt

section FirstPage

structure Splits (stamp : ρ → τ) (limit : ℕ) (rows first left : List ρ) (c : τ) : Prop where
  perm : (first ++ left).Perm rows
  max : (first.map stamp).max? = some c
  le : ∀ r ∈ first, stamp r ≤ c
  attained : ∃ r ∈ first, stamp r = c
  ge : ∀ r ∈ left, c ≤ stamp r
  length_le : first.length ≤ limit
  full : first.length = limit ∨ left = []

theorem le_getLast_of_sorted {l : List ρ} (hsorted : l.Pairwise (fun a b => stamp a ≤ stamp b))
    (hne : l ≠ []) : ∀ r ∈ l, stamp r ≤ stamp (l.getLast hne) := by
  intro r hr
  obtain ⟨front, hfront⟩ := List.getLast?_eq_some_iff.mp (List.getLast?_eq_some_getLast hne)
  rw [hfront] at hr hsorted
  rcases List.mem_append.mp hr with hr | hr
  · exact (List.pairwise_append.mp hsorted).2.2 r hr _ (by simp)
  · rw [List.mem_singleton.mp hr]

variable (stamp) in
theorem page_splits (hlimit : 0 < limit) (hrows : rows ≠ []) :
    ∃ left c, Splits stamp limit rows (page stamp none limit rows) left c := by
  have hsorted := byStamp_sorted stamp rows
  have hperm := byStamp_perm stamp rows
  unfold page
  rw [after_none]
  have hsplit := List.take_append_drop limit (byStamp stamp rows)
  have hlength : (byStamp stamp rows).length = rows.length := hperm.length_eq
  have hpos : 0 < rows.length := List.length_pos_iff.mpr hrows
  generalize hfirst : (byStamp stamp rows).take limit = first at hsplit
  generalize hleft : (byStamp stamp rows).drop limit = left at hsplit
  have hfirstLength : first.length = min limit rows.length := by
    rw [← hfirst, List.length_take, hlength]
  have hne : first ≠ [] := by
    intro hnil
    rw [hnil, List.length_nil] at hfirstLength
    omega
  rw [← hsplit] at hsorted
  obtain ⟨hfirstSorted, -, hacross⟩ := List.pairwise_append.mp hsorted
  have hlast := List.getLast?_eq_some_getLast hne
  have hmem := List.getLast_mem hne
  refine ⟨left, stamp (first.getLast hne), ?_⟩
  refine ⟨hsplit ▸ hperm, ?_, le_getLast_of_sorted hfirstSorted hne, ⟨_, hmem, rfl⟩, fun r hr => hacross _ hmem r hr, by omega, ?_⟩
  · rw [max?_of_sorted stamp hfirstSorted, hlast]
    rfl
  · rcases le_total limit rows.length with hfull | hshort
    · exact .inl (by omega)
    · refine .inr ?_
      rw [← hleft, List.drop_eq_nil_iff, hlength]
      exact hshort

namespace Splits
variable {first left : List ρ} {c : τ} (h : Splits stamp limit rows first left c)
include h

theorem countP_eq (p : ρ → Bool) : rows.countP p = first.countP p + left.countP p := by
  rw [← h.perm.countP_eq, List.countP_append]

theorem countP_lt : rows.countP (fun r => stamp r < c) < first.length := by
  obtain ⟨r, hr, hstamp⟩ := h.attained
  have hleft : left.countP (fun r => stamp r < c) = 0 := by
    rw [List.countP_eq_zero]
    intro q hq
    simpa using h.ge q hq
  rw [h.countP_eq, hleft, Nat.add_zero]
  refine lt_of_le_of_ne List.countP_le_length (fun heq => ?_)
  have hall := List.countP_eq_length.mp heq r hr
  simp [hstamp] at hall

theorem countP_le : rows.countP (fun r => stamp r ≤ c) =
    first.length + left.countP (fun r => stamp r ≤ c) := by
  rw [h.countP_eq, List.countP_eq_length.mpr (by simpa using h.le)]

/-- The next pages are read from what the first one left, less the rows that share its
    newest stamp. -/
theorem after_perm : (after stamp (some c) rows).Perm (after stamp (some c) left) := by
  have hnone : after stamp (some c) first = [] := by
    unfold after
    rw [List.filter_eq_nil_iff]
    simpa using h.le
  have hfilter := h.perm.filter (fun r => (some c).all (fun s => s < stamp r))
  rw [List.filter_append] at hfilter
  unfold after at hnone ⊢
  rw [hnone, List.nil_append] at hfilter
  exact hfilter.symm

theorem length_after : (after stamp (some c) rows).length +
    left.countP (fun r => stamp r ≤ c) = left.length := by
  rw [h.after_perm.length_eq, after, ← List.countP_eq_length_filter,
    List.length_eq_countP_add_countP (fun r => stamp r ≤ c) (l := left), Nat.add_comm]
  congr 1
  apply List.countP_congr
  intro r _
  simp

theorem length_after_lt : (after stamp (some c) rows).length < rows.length := by
  have hlength := h.perm.length_eq
  have hafter := h.length_after
  have hcount := h.countP_lt
  rw [List.length_append] at hlength
  omega

theorem perm_append_iff {rest : List ρ} (hrest : rest.Subperm (after stamp (some c) rows)) :
    (first ++ rest).Perm rows ↔
      left.countP (fun r => stamp r ≤ c) = 0 ∧ rest.Perm (after stamp (some c) rows) := by
  have hlength := h.perm.length_eq
  have hafter := h.length_after
  rw [List.length_append] at hlength
  constructor
  · intro hperm
    have hboth := hperm.length_eq
    have hshort := hrest.length_le
    rw [List.length_append] at hboth
    exact ⟨by omega, hrest.perm_of_length_le (by omega)⟩
  · rintro ⟨hzero, hperm⟩
    have hall : after stamp (some c) left = left := by
      unfold after
      rw [List.filter_eq_self]
      simpa using List.countP_eq_zero.mp hzero
    have hleft : rest.Perm left := by
      rw [← hall]
      exact hperm.trans h.after_perm
    exact (hleft.append_left first).trans h.perm

theorem subperm_append {rest : List ρ} (hrest : rest.Subperm (after stamp (some c) rows)) :
    (first ++ rest).Subperm rows := by
  have hleft : rest.Subperm left :=
    hrest.trans (h.after_perm.subperm.trans List.filter_sublist.subperm)
  exact ((List.subperm_append_left first).mpr hleft).trans h.perm.subperm

section Boundary
variable {t : τ} {k : ℕ}

omit h in
theorem not_split_of_few (hfew : rows.countP (fun r => stamp r ≤ t) ≤ limit) :
    ¬ (rows.countP (fun r => stamp r < t) < k * limit ∧
      k * limit < rows.countP (fun r => stamp r ≤ t)) := by
  intro hsplit
  -- A boundary inside the first page would have to be its start.
  cases k with
  | zero => omega
  | succ k =>
    rw [Nat.succ_mul] at hsplit
    omega

theorem few_of_short (hnil : left = []) : rows.countP (fun r => stamp r ≤ t) ≤ limit := by
  have hperm := h.perm.length_eq
  have hlength := h.length_le
  have hcount := List.countP_le_length (p := fun r => stamp r ≤ t) (l := rows)
  rw [hnil, List.append_nil] at hperm
  omega

variable (hzero : left.countP (fun r => stamp r ≤ c) = 0)
include hzero

theorem few_of_le (htc : t ≤ c) : rows.countP (fun r => stamp r ≤ t) ≤ limit := by
  have hmono : rows.countP (fun r => stamp r ≤ t) ≤ rows.countP (fun r => stamp r ≤ c) := by
    apply List.countP_mono_left
    intro r _ hr
    exact decide_eq_true ((of_decide_eq_true hr).trans htc)
  have hle := h.countP_le
  have hlength := h.length_le
  omega

/-- A later boundary lies one page further on in the whole list than in what is left. -/
theorem split_succ_iff (hfull : first.length = limit) (hct : c < t) :
    (rows.countP (fun r => stamp r < t) < (k + 1) * limit ∧
        (k + 1) * limit < rows.countP (fun r => stamp r ≤ t)) ↔
      (after stamp (some c) rows).countP (fun r => stamp r < t) < k * limit ∧
        k * limit < (after stamp (some c) rows).countP (fun r => stamp r ≤ t) := by
  have hle := h.countP_le
  rw [Nat.succ_mul, countP_after (fun r hr => decide_eq_true (hr.trans_lt hct)),
    countP_after (fun r hr => decide_eq_true (hr.trans hct.le))]
  omega

end Boundary

theorem countP_eq_zero_of_unsplit (hunsplit : Unsplit stamp limit rows) :
    left.countP (fun r => stamp r ≤ c) = 0 := by
  rcases h.full with hfull | hnil
  · have hlt := h.countP_lt
    have hle := h.countP_le
    have hone := hunsplit c 1
    rw [Nat.one_mul] at hone
    omega
  · rw [hnil, List.countP_nil]

theorem unsplit_iff : Unsplit stamp limit rows ↔
    left.countP (fun r => stamp r ≤ c) = 0 ∧ Unsplit stamp limit (after stamp (some c) rows) := by
  constructor
  · intro hunsplit
    have hzero := h.countP_eq_zero_of_unsplit hunsplit
    refine ⟨hzero, fun t k => ?_⟩
    rcases lt_or_ge c t with hct | htc
    · rcases h.full with hfull | hnil
      · rw [← h.split_succ_iff hzero hfull hct]
        exact hunsplit t (k + 1)
      · have hafter := h.length_after
        rw [hnil, List.countP_nil, List.length_nil] at hafter
        have hcount := List.countP_le_length (p := fun r => stamp r ≤ t)
          (l := after stamp (some c) rows)
        exact not_split_of_few (by omega)
    · exact not_split_of_few (by rw [countP_after_le htc]; exact Nat.zero_le limit)
  · rintro ⟨hzero, hunsplit⟩ t k
    rcases lt_or_ge c t with hct | htc
    · rcases h.full with hfull | hnil
      · cases k with
        | zero => omega
        | succ k =>
          rw [h.split_succ_iff hzero hfull hct]
          exact hunsplit t k
      · exact not_split_of_few (h.few_of_short hnil)
    · exact not_split_of_few (h.few_of_le hzero htc)

end Splits
end FirstPage

variable (stamp) in
/-- A reader with fuel for a page per row reads to the end, no row twice, and every row
    exactly when no stamp is split by a page boundary. -/
theorem readPages_reads (hlimit : 0 < limit) (rows : List ρ) :
    ∃ pages, (∀ fuel, rows.length < fuel → readPages stamp limit rows fuel none = some pages) ∧
      pages.flatten.Subperm rows ∧ (pages.flatten.Perm rows ↔ Unsplit stamp limit rows) := by
  induction hn : rows.length using Nat.strong_induction_on generalizing rows with
  | h n ih =>
    subst hn
    by_cases hrows : rows = []
    · subst hrows
      refine ⟨[], fun fuel hfuel => ?_, List.Subperm.refl _, ?_⟩
      · obtain ⟨fuel, rfl⟩ := Nat.exists_eq_succ_of_ne_zero (Nat.ne_of_gt hfuel)
        exact readPages_of_page_nil (by simp [page, byStamp]) fuel
      · exact iff_of_true (List.Perm.refl _) (fun t k hsplit => by simp at hsplit)
    · obtain ⟨left, c, hfirst⟩ := page_splits stamp hlimit hrows
      obtain ⟨pages, hread, hsub, hiff⟩ :=
        ih _ hfirst.length_after_lt (after stamp (some c) rows) rfl
      refine ⟨page stamp none limit rows :: pages, fun fuel hfuel => ?_, ?_, ?_⟩
      · obtain ⟨fuel, rfl⟩ := Nat.exists_eq_succ_of_ne_zero (Nat.ne_zero_of_lt hfuel)
        obtain ⟨r, hr, -⟩ := hfirst.attained
        have hshorter := hfirst.length_after_lt
        rw [readPages_of_page_ne (List.ne_nil_of_mem hr), hfirst.max, readPages_some,
          hread fuel (by omega)]
        rfl
      · exact hfirst.subperm_append hsub
      · rw [List.flatten_cons, hfirst.perm_append_iff hsub, hfirst.unsplit_iff, hiff]

end CursorPaging
