import CordeliaCore.KeyedTable
import Mathlib.Data.List.Nodup

set_option autoImplicit false

namespace KeyedTable

universe u v
variable {κ : Type u} {ρ : Type v} {key : ρ → κ} {check : ρ → Prop}

structure Edit (key : ρ → κ) (check : ρ → Prop) where
  apply : ρ → ρ
  key_apply : ∀ r, key (apply r) = key r
  check_apply : ∀ r, check r → check (apply r)

namespace Edit

def only (e : Edit key check) (p : ρ → Bool) : Edit key check where
  apply r := if p r then e.apply r else r
  key_apply r := by
    split_ifs
    · exact e.key_apply r
    · rfl
  check_apply r h := by
    split_ifs
    · exact e.check_apply r h
    · exact h

theorem only_of_pos (e : Edit key check) {p : ρ → Bool} {r : ρ} (h : p r = true) :
    (e.only p).apply r = e.apply r :=
  if_pos h

theorem only_of_neg (e : Edit key check) {p : ρ → Bool} {r : ρ} (h : ¬ p r = true) :
    (e.only p).apply r = r :=
  if_neg h

end Edit

namespace Table
variable (t : Table key check) (e : Edit key check)

def edit : Table key check where
  rows := t.rows.map e.apply
  unique := by
    rw [List.pairwise_map]
    simpa only [e.key_apply] using t.unique
  checked x hx := by
    obtain ⟨r, hr, rfl⟩ := List.mem_map.mp hx
    exact e.check_apply r (t.checked r hr)

variable {t e} in
theorem mem_edit_only {p : ρ → Bool} {x : ρ} (h : x ∈ (t.edit (e.only p)).rows) :
    x ∈ t.rows ∧ p x = false ∨ ∃ r ∈ t.rows, p r = true ∧ e.apply r = x := by
  obtain ⟨r, hr, rfl⟩ := List.mem_map.mp h
  cases hp : p r with
  | true => exact .inr ⟨r, hr, hp, (e.only_of_pos hp).symm⟩
  | false =>
    rw [e.only_of_neg (by simp [hp])]
    exact .inl ⟨hr, hp⟩

/-- Distinct keys of rows with a property, as many as there are up to a limit. -/
structure Picks (p : ρ → Bool) (limit : ℕ) (ks : List κ) : Prop where
  nodup : ks.Nodup
  picked : ∀ k ∈ ks, ∃ r ∈ t.rows, p r = true ∧ key r = k
  length_eq : ks.length = min limit (t.rows.countP p)

section Picks
variable {t} {p : ρ → Bool} {limit : ℕ} {ks : List κ}

theorem picks_take {l : List ρ} (h : l.Perm (t.rows.filter p)) (limit : ℕ) :
    Picks t p limit ((l.take limit).map key) where
  nodup := by
    have hall : (l.map key).Nodup := by
      rw [(h.map key).nodup_iff]
      exact t.nodup_keys.sublist (List.filter_sublist.map key)
    exact hall.sublist ((List.take_sublist limit l).map key)
  picked k hk := by
    obtain ⟨r, hr, rfl⟩ := List.mem_map.mp hk
    obtain ⟨hrow, hp⟩ := List.mem_filter.mp (h.mem_iff.mp (List.mem_of_mem_take hr))
    exact ⟨r, hrow, hp, rfl⟩
  length_eq := by
    rw [List.length_map, List.length_take, h.length_eq, List.countP_eq_length_filter]

theorem picks_all {l : List ρ} (h : l.Perm (t.rows.filter p)) :
    Picks t p (t.rows.countP p) (l.map key) := by
  have hlength : l.length = t.rows.countP p := by
    rw [h.length_eq, List.countP_eq_length_filter]
  rw [← List.take_length (l := l), hlength]
  exact picks_take h _

theorem picks_none : Picks t p 0 [] := picks_take (.refl _) 0

theorem picks_one {r : ρ} (hr : r ∈ t.rows) (hp : p r = true) : Picks t p 1 [key r] where
  nodup := List.nodup_singleton _
  picked k hk := ⟨r, hr, hp, (List.mem_singleton.mp hk).symm⟩
  length_eq := by
    have hpos : 0 < t.rows.countP p := List.countP_pos_iff.mpr ⟨r, hr, hp⟩
    simp only [List.length_singleton]
    omega

theorem Picks.of_mem (h : Picks t p limit ks) {r : ρ} (hr : r ∈ t.rows) (hk : key r ∈ ks) :
    p r = true := by
  obtain ⟨x, hx, hp, hkey⟩ := h.picked (key r) hk
  rwa [t.key_injOn hr hx hkey.symm]

end Picks

variable [DecidableEq κ]

def modify (k : κ) : Table key check := t.edit (e.only (fun r => key r = k))

def modifyAll (ks : List κ) : Table key check := ks.foldl (fun t k => t.modify e k) t

def eraseAll (ks : List κ) : Table key check := ks.foldl erase t

theorem lookup_edit (k : κ) : (t.edit e).lookup k = (t.lookup k).map e.apply := by
  unfold lookup edit
  rw [List.find?_map]
  simp only [Function.comp_def, e.key_apply]

theorem lookup_modify (k j : κ) :
    (t.modify e k).lookup j = (t.lookup j).map (fun r => if j = k then e.apply r else r) := by
  unfold modify
  rw [lookup_edit]
  cases hj : t.lookup j with
  | none => rfl
  | some r => simp [Edit.only, key_of_lookup hj]

variable {t} in
theorem modify_of_lookup_none {k : κ} (h : t.lookup k = none) : t.modify e k = t := by
  have hsame : ∀ r ∈ t.rows, (e.only (fun r => key r = k)).apply r = id r := by
    intro r hr
    exact e.only_of_neg (by simpa using t.lookup_eq_none_iff.mp h r hr)
  apply Table.ext
  exact (List.map_congr_left hsame).trans (List.map_id _)

/-- A loop over distinct keys is one pass over the rows. -/
theorem modifyAll_eq_edit {ks : List κ} (h : ks.Nodup) :
    t.modifyAll e ks = t.edit (e.only (fun r => key r ∈ ks)) := by
  induction ks generalizing t with
  | nil =>
    apply Table.ext
    simp [modifyAll, edit, Edit.only]
  | cons k ks ih =>
    obtain ⟨hk, hks⟩ := List.nodup_cons.mp h
    change (t.modify e k).modifyAll e ks = _
    rw [ih (t.modify e k) hks]
    apply Table.ext
    change (t.rows.map _).map _ = t.rows.map _
    rw [List.map_map]
    apply List.map_congr_left
    intro r hr
    by_cases hrk : key r = k
    · simp [Edit.only, hrk, hk, e.key_apply]
    · simp [Edit.only, hrk]

theorem lookup_modifyAll {ks : List κ} (h : ks.Nodup) (k : κ) :
    (t.modifyAll e ks).lookup k = (t.lookup k).map (fun r => if k ∈ ks then e.apply r else r) := by
  rw [modifyAll_eq_edit t e h, lookup_edit]
  cases hk : t.lookup k with
  | none => rfl
  | some r => simp [Edit.only, key_of_lookup hk]

theorem eraseAll_eq_keep (ks : List κ) : t.eraseAll ks = t.keep (fun r => key r ∉ ks) := by
  induction ks generalizing t with
  | nil =>
    apply Table.ext
    simp [eraseAll, keep]
  | cons k ks ih =>
    change (t.erase k).eraseAll ks = _
    rw [ih (t.erase k)]
    apply Table.ext
    change (t.rows.filter _).filter _ = t.rows.filter _
    rw [List.filter_filter]
    apply List.filter_congr
    intro r _
    simp [Bool.and_comm]

theorem lookup_eraseAll (ks : List κ) (k : κ) :
    (t.eraseAll ks).lookup k = if k ∈ ks then none else t.lookup k := by
  induction ks generalizing t with
  | nil => simp [eraseAll]
  | cons j ks ih =>
    change ((t.erase j).eraseAll ks).lookup k = _
    rw [ih (t.erase j), lookup_erase]
    by_cases hj : k = j <;> by_cases hk : k ∈ ks <;> simp [hj, hk]

variable {t} {p : ρ → Bool} {limit : ℕ} {ks : List κ}

/-- A loop over the keys of all rows of a property, in any order, is one pass over the rows. -/
theorem modifyAll_perm (e : Edit key check) {l : List ρ} (h : l.Perm (t.rows.filter p)) :
    t.modifyAll e (l.map key) = t.edit (e.only p) := by
  have hpicks := picks_all h
  rw [modifyAll_eq_edit t e hpicks.nodup]
  apply Table.ext
  apply List.map_congr_left
  intro r hr
  have hkey : key r ∈ l.map key ↔ p r = true := by
    constructor
    · intro hk
      obtain ⟨x, hx, hp, hsame⟩ := hpicks.picked (key r) hk
      rwa [t.key_injOn hr hx hsame.symm]
    · intro hp
      exact List.mem_map_of_mem (h.mem_iff.mpr (List.mem_filter.mpr ⟨hr, hp⟩))
  simp only [Edit.only, hkey, Bool.decide_eq_true]

/-- A pass over the rows of a property is a loop over their keys. -/
theorem edit_only (e : Edit key check) (p : ρ → Bool) :
    t.edit (e.only p) = t.modifyAll e ((t.rows.filter p).map key) :=
  (modifyAll_perm e (.refl _)).symm

namespace Picks

theorem countP_keys (h : Picks t p limit ks) :
    t.rows.countP (fun r => key r ∈ ks) = ks.length := by
  have hperm : ((t.rows.filter (fun r => key r ∈ ks)).map key).Perm ks := by
    rw [List.perm_ext_iff_of_nodup (t.nodup_keys.sublist (List.filter_sublist.map key)) h.nodup]
    intro k
    constructor
    · intro hk
      obtain ⟨r, hr, rfl⟩ := List.mem_map.mp hk
      simpa using (List.mem_filter.mp hr).2
    · intro hk
      obtain ⟨r, hr, _, rfl⟩ := h.picked k hk
      exact List.mem_map_of_mem (List.mem_filter.mpr ⟨hr, by simpa using hk⟩)
  rw [List.countP_eq_length_filter, ← hperm.length_eq, List.length_map]

theorem mem_of_count_le (h : Picks t p limit ks) (hroom : t.rows.countP p ≤ limit) {r : ρ}
    (hr : r ∈ t.rows) (hp : p r = true) : key r ∈ ks := by
  have hboth : t.rows.filter (fun r => key r ∈ ks) =
      (t.rows.filter p).filter (fun r => key r ∈ ks) := by
    rw [List.filter_filter]
    apply List.filter_congr
    intro x hx
    by_cases hk : key x ∈ ks
    · simp [hk, h.of_mem hx hk]
    · simp [hk]
  have hlength : (t.rows.filter (fun r => key r ∈ ks)).length = (t.rows.filter p).length := by
    rw [← List.countP_eq_length_filter, ← List.countP_eq_length_filter, h.countP_keys, h.length_eq]
    omega
  rw [hboth] at hlength
  have hall := List.filter_sublist.eq_of_length hlength
  have hmem : r ∈ (t.rows.filter p).filter (fun r => key r ∈ ks) := by
    rw [hall]
    exact List.mem_filter.mpr ⟨hr, hp⟩
  simpa using (List.mem_filter.mp hmem).2

theorem countP_and (h : Picks t p limit ks) {q : ρ → Bool} {b : Bool}
    (hq : ∀ r, p r = true → q r = b) :
    t.rows.countP (fun r => key r ∈ ks && q r) = if b then ks.length else 0 := by
  have hrows : ∀ r ∈ t.rows, (decide (key r ∈ ks) && q r) = (decide (key r ∈ ks) && b) := by
    intro r hr
    by_cases hk : key r ∈ ks
    · simp [hk, hq r (h.of_mem hr hk)]
    · simp [hk]
  rw [List.countP_congr (fun r hr => by rw [hrows r hr])]
  cases b with
  | true => simpa using h.countP_keys
  | false => simp

theorem countP_modifyAll (h : Picks t p limit ks) (e : Edit key check) {q : ρ → Bool} {b c : Bool}
    (hbefore : ∀ r, p r = true → q r = b) (hafter : ∀ r, p r = true → q (e.apply r) = c) :
    (t.modifyAll e ks).rows.countP q + (if b then ks.length else 0) =
      t.rows.countP q + if c then ks.length else 0 := by
  rw [← h.countP_and hbefore, ← h.countP_and (q := fun r => q (e.apply r)) hafter,
    modifyAll_eq_edit t e h.nodup]
  change (t.rows.map _).countP q + _ = _
  rw [List.countP_map]
  generalize t.rows = l
  induction l with
  | nil => rfl
  | cons r l ih =>
    simp only [List.countP_cons, Function.comp_apply] at ih ⊢
    by_cases hk : key r ∈ ks
    · simp only [Edit.only, hk, decide_true, if_true, Bool.true_and] at ih ⊢
      omega
    · simp only [Edit.only, hk, decide_false, Bool.false_eq_true, if_false, Bool.false_and] at ih ⊢
      omega

theorem countP_eraseAll (h : Picks t p limit ks) {q : ρ → Bool} {b : Bool}
    (hq : ∀ r, p r = true → q r = b) :
    (t.eraseAll ks).rows.countP q + (if b then ks.length else 0) = t.rows.countP q := by
  rw [← h.countP_and hq, eraseAll_eq_keep]
  change (t.rows.filter _).countP q + _ = _
  rw [List.countP_filter]
  generalize t.rows = l
  induction l with
  | nil => rfl
  | cons r l ih =>
    simp only [List.countP_cons] at ih ⊢
    by_cases hk : key r ∈ ks
    · simp only [hk, not_true, decide_false, decide_true, Bool.and_false, Bool.true_and,
        Bool.false_eq_true, if_false]
      omega
    · simp only [hk, not_false_iff, decide_false, decide_true, Bool.and_true, Bool.false_and,
        Bool.false_eq_true, if_false]
      omega

end Picks

theorem countP_erase {k : κ} {r : ρ} (h : t.lookup k = some r) (q : ρ → Bool) :
    (t.erase k).rows.countP q + (if q r then 1 else 0) = t.rows.countP q := by
  have hpicks : Picks t (fun x => q x == q r) 1 [key r] := picks_one (mem_of_lookup h) (by simp)
  rw [key_of_lookup h] at hpicks
  exact hpicks.countP_eraseAll (fun x hx => by simpa using hx)

theorem countP_put_le (t : Table key check) {r : ρ} (h : check r) (q : ρ → Bool) :
    (t.put r h).rows.countP q ≤ t.rows.countP q + if q r then 1 else 0 := by
  change (insertRow key r t.rows).countP q ≤ _
  induction t.rows with
  | nil => simp [insertRow, List.countP_cons]
  | cons x xs ih =>
    unfold insertRow
    by_cases he : key x = key r
    · rw [if_pos he]
      simp only [List.countP_cons]
      omega
    · rw [if_neg he]
      simp only [List.countP_cons] at ih ⊢
      omega

end Table
end KeyedTable
