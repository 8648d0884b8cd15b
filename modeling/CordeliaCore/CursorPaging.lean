import Mathlib.Data.List.Sort
import Mathlib.Data.Prod.Lex
import Mathlib.Order.MinMax

set_option autoImplicit false

namespace CursorPaging

universe u v w
variable {ρ : Type u} {τ : Type v} [LinearOrder τ] (stamp : ρ → τ)

def after (since : Option τ) (rows : List ρ) : List ρ :=
  rows.filter (fun r => since.all (fun s => s < stamp r))

def byStamp (rows : List ρ) : List ρ := rows.insertionSort (fun a b => stamp a ≤ stamp b)

def page (since : Option τ) (limit : ℕ) (rows : List ρ) : List ρ :=
  (byStamp stamp (after stamp since rows)).take limit

/-- Where a reader stands that has read `k` pages from the start. -/
def cursor (limit k : ℕ) (rows : List ρ) : Option τ :=
  (((byStamp stamp rows).take (k * limit)).getLast?).map stamp

theorem byStamp_perm (rows : List ρ) : (byStamp stamp rows).Perm rows :=
  List.perm_insertionSort _ rows

@[simp] theorem mem_byStamp {rows : List ρ} {r : ρ} : r ∈ byStamp stamp rows ↔ r ∈ rows :=
  (byStamp_perm stamp rows).mem_iff

@[simp] theorem after_none (rows : List ρ) : after stamp none rows = rows := by
  simp [after]

theorem mem_of_mem_page {since : Option τ} {limit : ℕ} {rows : List ρ} {r : ρ}
    (h : r ∈ page stamp since limit rows) : r ∈ rows :=
  (List.mem_filter.mp ((mem_byStamp stamp).mp (List.mem_of_mem_take h))).1

theorem page_map {ρ' : Type*} (f : ρ → ρ') (stamp' : ρ' → τ) (h : ∀ r, stamp' (f r) = stamp r)
    (since : Option τ) (limit : ℕ) (rows : List ρ) :
    (page stamp since limit rows).map f = page stamp' since limit (rows.map f) := by
  have hafter : after stamp' since (rows.map f) = (after stamp since rows).map f := by
    unfold after
    rw [List.filter_map]
    simp only [Function.comp_def, h]
  unfold page
  rw [List.map_take, hafter]
  congr 1
  refine List.map_insertionSort _ _ f _ (fun a _ b _ => ?_)
  rw [h, h]

theorem byStamp_sorted (rows : List ρ) :
    (byStamp stamp rows).Pairwise (fun a b => stamp a ≤ stamp b) := by
  have htotal : Std.Total (fun a b : ρ => stamp a ≤ stamp b) :=
    ⟨fun a b => le_total (stamp a) (stamp b)⟩
  have htrans : IsTrans ρ (fun a b : ρ => stamp a ≤ stamp b) := ⟨fun _ _ _ => le_trans⟩
  exact List.pairwise_insertionSort _ rows

theorem max?_of_sorted {rows : List ρ} (h : rows.Pairwise (fun a b => stamp a ≤ stamp b)) :
    (rows.map stamp).max? = rows.getLast?.map stamp := by
  cases hlast : rows.getLast? with
  | none => rw [List.getLast?_eq_none_iff.mp hlast]; rfl
  | some last =>
    have hmax : Std.LawfulOrderMax τ :=
      { max_eq_or := max_choice, max_le_iff := fun _ _ _ => max_le_iff }
    obtain ⟨front, rfl⟩ := List.getLast?_eq_some_iff.mp hlast
    refine List.max?_eq_some_iff.mpr ⟨by simp, fun t ht => ?_⟩
    obtain ⟨r, hr, rfl⟩ := List.mem_map.mp ht
    rcases List.mem_append.mp hr with hr | hr
    · exact (List.pairwise_append.mp h).2.2 r hr last (by simp)
    · rw [List.mem_singleton.mp hr]

section Ties

theorem filter_orderedInsert (u : τ) (x : ρ) (rows : List ρ) :
    (rows.orderedInsert (fun a b => stamp a ≤ stamp b) x).filter (fun r => stamp r = u) =
      (x :: rows).filter (fun r => stamp r = u) := by
  induction rows with
  | nil => rfl
  | cons y rows ih =>
    rw [List.orderedInsert_cons]
    by_cases hle : stamp x ≤ stamp y
    · rw [if_pos hle]
    · -- `x` passes `y`, which is older and so of another stamp
      rw [if_neg hle, List.filter_cons, ih, List.filter_cons, List.filter_cons, List.filter_cons]
      by_cases hy : stamp y = u
      · have hx : ¬ stamp x = u := fun hx => hle (hx.trans hy.symm).le
        simp [hx]
      · simp [hy]

/-- Sorting by stamp leaves the rows of each stamp in their order. -/
theorem filter_byStamp (u : τ) (rows : List ρ) :
    (byStamp stamp rows).filter (fun r => stamp r = u) = rows.filter (fun r => stamp r = u) := by
  induction rows with
  | nil => rfl
  | cons x rows ih =>
    unfold byStamp at ih ⊢
    rw [List.insertionSort_cons, filter_orderedInsert, List.filter_cons, ih, List.filter_cons]

theorem mem_iff_of_filter_stamp {xs ys : List ρ}
    (h : ∀ u, xs.filter (fun r => stamp r = u) = ys.filter (fun r => stamp r = u)) (r : ρ) :
    r ∈ xs ↔ r ∈ ys := by
  have hr := congrArg (r ∈ ·) (h (stamp r))
  simpa using hr

theorem stamp_head_le {x r : ρ} {xs : List ρ}
    (h : (x :: xs).Pairwise (fun a b => stamp a ≤ stamp b)) (hr : r ∈ x :: xs) :
    stamp x ≤ stamp r := by
  rcases List.mem_cons.mp hr with rfl | hr
  · exact le_rfl
  · exact (List.pairwise_cons.mp h).1 r hr

/-- A sorted list is told by its rows of each stamp. -/
theorem eq_of_filter_stamp {xs ys : List ρ} (hx : xs.Pairwise (fun a b => stamp a ≤ stamp b))
    (hy : ys.Pairwise (fun a b => stamp a ≤ stamp b))
    (h : ∀ u, xs.filter (fun r => stamp r = u) = ys.filter (fun r => stamp r = u)) : xs = ys := by
  have hmem := mem_iff_of_filter_stamp stamp h
  induction xs generalizing ys with
  | nil =>
    symm
    rw [List.eq_nil_iff_forall_not_mem]
    intro r hr
    cases (hmem r).mpr hr
  | cons x xs ih =>
    cases ys with
    | nil => cases (hmem x).mp List.mem_cons_self
    | cons y ys =>
      have hxy : stamp x = stamp y := le_antisymm
        (stamp_head_le stamp hx ((hmem y).mpr List.mem_cons_self))
        (stamp_head_le stamp hy ((hmem x).mp List.mem_cons_self))
      have hhead : x = y := by
        have hu := h (stamp x)
        rw [List.filter_cons_of_pos (by simp), List.filter_cons_of_pos (by simp [hxy])] at hu
        exact (List.cons.inj hu).1
      subst hhead
      have htail : ∀ u, xs.filter (fun r => stamp r = u) = ys.filter (fun r => stamp r = u) := by
        intro u
        have hu := h u
        rw [List.filter_cons, List.filter_cons] at hu
        split_ifs at hu
        · exact (List.cons.inj hu).2
        · exact hu
      rw [ih (List.pairwise_cons.mp hx).2 (List.pairwise_cons.mp hy).2 htail
        (mem_iff_of_filter_stamp stamp htail)]

theorem page_congr {xs ys : List ρ}
    (h : ∀ u, xs.filter (fun r => stamp r = u) = ys.filter (fun r => stamp r = u))
    (since : Option τ) (limit : ℕ) : page stamp since limit xs = page stamp since limit ys := by
  have hafter : byStamp stamp (after stamp since xs) = byStamp stamp (after stamp since ys) := by
    refine eq_of_filter_stamp stamp (byStamp_sorted stamp _) (byStamp_sorted stamp _) (fun u => ?_)
    rw [filter_byStamp, filter_byStamp]
    unfold after
    rw [List.filter_comm, h u, List.filter_comm]
  unfold page
  rw [hafter]

end Ties

section Distinct
variable {stamp} {rows : List ρ} (hdistinct : (rows.map stamp).Nodup)
include hdistinct

theorem byStamp_strict : (byStamp stamp rows).Pairwise (fun a b => stamp a < stamp b) := by
  have hnodup : ((byStamp stamp rows).map stamp).Nodup :=
    ((byStamp_perm stamp rows).map stamp).nodup_iff.mpr hdistinct
  have hne : (byStamp stamp rows).Pairwise (fun a b => stamp a ≠ stamp b) :=
    List.pairwise_map.mp hnodup
  exact ((byStamp_sorted stamp rows).and hne).imp (fun h => lt_of_le_of_ne h.1 h.2)

theorem byStamp_after (since : Option τ) :
    byStamp stamp (after stamp since rows) = after stamp since (byStamp stamp rows) := by
  have hsub : ((after stamp since rows).map stamp).Nodup :=
    hdistinct.sublist (List.filter_sublist.map stamp)
  have hperm : (byStamp stamp (after stamp since rows)).Perm (after stamp since (byStamp stamp rows)) :=
    (byStamp_perm stamp _).trans ((byStamp_perm stamp rows).filter _).symm
  exact hperm.eq_of_pairwise (fun a b _ _ hab hba => absurd (hab.trans hba) (lt_irrefl _))
    (byStamp_strict hsub) ((byStamp_strict hdistinct).filter _)

/-- The page at the cursor after `k` pages is the next stretch of the sorted list. -/
theorem page_cursor (limit k : ℕ) :
    page stamp (cursor stamp limit k rows) limit rows =
      ((byStamp stamp rows).drop (k * limit)).take limit := by
  have hstrict := byStamp_strict hdistinct
  have hsplit := List.take_append_drop (k * limit) (byStamp stamp rows)
  unfold page cursor
  rw [byStamp_after hdistinct]
  congr 1
  generalize (byStamp stamp rows).take (k * limit) = read at hsplit
  generalize (byStamp stamp rows).drop (k * limit) = rest at hsplit
  rw [← hsplit] at hstrict ⊢
  obtain ⟨hread, _, hacross⟩ := List.pairwise_append.mp hstrict
  cases hlast : read.getLast? with
  | none =>
    rw [List.getLast?_eq_none_iff.mp hlast]
    simp
  | some last =>
    have hmem : last ∈ read := List.mem_of_getLast? hlast
    have hold : ∀ r ∈ read, ¬ stamp last < stamp r := by
      intro r hr
      obtain ⟨front, rfl⟩ := List.getLast?_eq_some_iff.mp hlast
      rcases List.mem_append.mp hr with hr | hr
      · exact not_lt.mpr ((List.pairwise_append.mp hread).2.2 r hr last (by simp)).le
      · rw [List.mem_singleton.mp hr]
        exact lt_irrefl _
    unfold after
    rw [List.filter_append, List.filter_eq_nil_iff.mpr (by simpa using hold),
      List.filter_eq_self.mpr (by simpa using fun r hr => hacross last hmem r hr), List.nil_append]

/-- The newest stamp of a page, or the old cursor after an empty page, is the
    cursor of one page more. -/
theorem cursor_succ (limit k : ℕ) :
    ((page stamp (cursor stamp limit k rows) limit rows).map stamp).max?.or
        (cursor stamp limit k rows) = cursor stamp limit (k + 1) rows := by
  have hsorted := byStamp_sorted stamp rows
  rw [page_cursor hdistinct, max?_of_sorted]
  · unfold cursor
    rw [Nat.succ_mul, List.take_add, List.getLast?_append]
    cases (((byStamp stamp rows).drop (k * limit)).take limit).getLast? <;> rfl
  · exact (hsorted.sublist (List.drop_sublist _ _)).sublist (List.take_sublist _ _)

/-- A reader that starts over stands where one does that has read one page. -/
theorem cursor_restart (limit k : ℕ) :
    ((page stamp none limit rows).map stamp).max?.or (cursor stamp limit k rows) =
      cursor stamp limit 1 rows := by
  have hfirst : ((page stamp none limit rows).map stamp).max?.or none =
      cursor stamp limit 1 rows := by
    have hsucc := cursor_succ hdistinct limit 0
    rw [show cursor stamp limit 0 rows = none by simp [cursor]] at hsucc
    exact hsucc
  cases hpage : page stamp none limit rows with
  | nil =>
    -- an empty first page means that there is nothing to read at all
    have hnone : cursor stamp limit k rows = none := by
      unfold page at hpage
      rw [after_none, List.take_eq_nil_iff] at hpage
      unfold cursor
      rcases hpage with hlimit | hrows
      · simp [hlimit]
      · simp [hrows]
    rw [← hfirst, hpage, hnone]
  | cons r rest =>
    rw [← hfirst, hpage, List.map_cons, List.max?_cons']
    rfl

end Distinct

theorem exists_page_of_mem {limit m : ℕ} {rows : List ρ} {r : ρ} (h : r ∈ rows.take (m * limit)) :
    ∃ q < m, r ∈ (rows.drop (q * limit)).take limit := by
  induction m with
  | zero => simp at h
  | succ m ih =>
    rw [Nat.succ_mul, List.take_add, List.mem_append] at h
    rcases h with h | h
    · obtain ⟨q, hq, hr⟩ := ih h
      exact ⟨q, by omega, hr⟩
    · exact ⟨m, by omega, h⟩

theorem mem_take_of_page {limit m q : ℕ} {rows : List ρ} {r : ρ} (hq : q < m)
    (h : r ∈ (rows.drop (q * limit)).take limit) : r ∈ rows.take (m * limit) := by
  have hle : (q + 1) * limit ≤ m * limit := Nat.mul_le_mul_right limit hq
  have hmem : r ∈ rows.take ((q + 1) * limit) := by
    rw [Nat.succ_mul, List.take_add]
    exact List.mem_append_right _ h
  exact (List.take_sublist_take_left hle).subset hmem

theorem length_le_of_mem_take {n : ℕ} {rows : List ρ} (hnodup : rows.Nodup)
    (h : ∀ r ∈ rows, r ∈ rows.take n) : rows.length ≤ n := by
  rw [← List.drop_eq_nil_iff, List.eq_nil_iff_forall_not_mem]
  intro r hr
  exact List.disjoint_take_drop hnodup le_rfl (h r (List.mem_of_mem_drop hr)) hr

section Rank
variable {κ : Type w} [LinearOrder κ] (key : ρ → κ)

def place (r : ρ) : τ ×ₗ κ := toLex (stamp r, key r)

variable {key}

theorem orderedInsert_congr {le le' : ρ → ρ → Prop} [DecidableRel le] [DecidableRel le'] {x : ρ}
    {rows : List ρ} (h : ∀ y ∈ rows, le x y ↔ le' x y) :
    rows.orderedInsert le x = rows.orderedInsert le' x := by
  induction rows with
  | nil => rfl
  | cons y rows ih =>
    rw [List.orderedInsert_cons, List.orderedInsert_cons,
      ih (fun z hz => h z (List.mem_cons_of_mem y hz))]
    exact if_congr (h y (by simp)) rfl rfl

theorem byStamp_eq_byPlace {rows : List ρ} (h : rows.Pairwise (fun a b => key a < key b)) :
    byStamp stamp rows =
      rows.insertionSort (fun a b => place stamp key a ≤ place stamp key b) := by
  induction rows with
  | nil => rfl
  | cons x rows ih =>
    obtain ⟨hx, hrows⟩ := List.pairwise_cons.mp h
    have ih' : rows.insertionSort (fun a b => stamp a ≤ stamp b) = _ := ih hrows
    unfold byStamp
    rw [List.insertionSort_cons, List.insertionSort_cons, ih']
    refine orderedInsert_congr (fun y hy => ?_)
    have hkey : key x < key y := hx y ((List.mem_insertionSort _).mp hy)
    unfold place
    rw [Prod.Lex.le_iff]
    constructor
    · intro hle
      rcases hle.lt_or_eq with hlt | heq
      · exact .inl hlt
      · exact .inr ⟨heq, hkey.le⟩
    · rintro (hlt | ⟨heq, _⟩)
      · exact hlt.le
      · exact heq.le

theorem mem_take_iff_countP {ω : Type*} [LinearOrder ω] {f : ρ → ω} {rows : List ρ}
    (h : rows.Pairwise (fun a b => f a < f b)) (n : ℕ) (r : ρ) :
    r ∈ rows.take n ↔ r ∈ rows ∧ rows.countP (fun q => f q < f r) < n := by
  induction rows generalizing n with
  | nil => simp
  | cons x rows ih =>
    obtain ⟨hx, hrows⟩ := List.pairwise_cons.mp h
    cases n with
    | zero => simp
    | succ n =>
      rw [List.take_succ_cons, List.mem_cons, List.mem_cons, ih hrows, List.countP_cons]
      by_cases hr : r = x
      · subst hr
        have hzero : rows.countP (fun q => f q < f r) = 0 := by
          rw [List.countP_eq_zero]
          intro q hq
          simpa using (hx q hq).le
        simp [hzero]
      · constructor
        · rintro (heq | ⟨hmem, hlt⟩)
          · exact absurd heq hr
          · rw [if_pos (by simpa using hx r hmem)]
            exact ⟨.inr hmem, by omega⟩
        · rintro ⟨heq | hmem, hlt⟩
          · exact absurd heq hr
          · rw [if_pos (by simpa using hx r hmem)] at hlt
            exact .inr ⟨hmem, by omega⟩

/-- A row is on the first page when fewer rows than the limit are placed before it. -/
theorem mem_first_page_iff {rows : List ρ} (h : rows.Pairwise (fun a b => key a < key b))
    (limit : ℕ) (r : ρ) :
    r ∈ page stamp none limit rows ↔
      r ∈ rows ∧ rows.countP (fun q => place stamp key q < place stamp key r) < limit := by
  have htotal : Std.Total (fun a b : ρ => place stamp key a ≤ place stamp key b) :=
    ⟨fun a b => le_total _ _⟩
  have htrans : IsTrans ρ (fun a b : ρ => place stamp key a ≤ place stamp key b) :=
    ⟨fun _ _ _ => le_trans⟩
  have hperm := byStamp_perm stamp rows
  have hstrict : (byStamp stamp rows).Pairwise
      (fun a b => place stamp key a < place stamp key b) := by
    have hne : rows.Pairwise (fun a b => place stamp key a ≠ place stamp key b) :=
      h.imp (fun hlt heq => hlt.ne (congrArg (fun p => (ofLex p).2) heq))
    have hne' := (hperm.pairwise_iff (fun hab => hab.symm)).mpr hne
    rw [byStamp_eq_byPlace stamp h] at hne' ⊢
    exact ((List.pairwise_insertionSort _ rows).and hne').imp (fun hab => lt_of_le_of_ne hab.1 hab.2)
  unfold page
  rw [after_none, mem_take_iff_countP hstrict, hperm.mem_iff, hperm.countP_eq]

end Rank
end CursorPaging
