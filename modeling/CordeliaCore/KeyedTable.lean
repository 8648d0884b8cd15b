import Mathlib.Data.List.Sort

set_option autoImplicit false

/-!
# Tables with a primary key and row constraints

A table lists its rows in the order in which they were inserted. The primary key
and the row constraint are fields: a table that breaks either cannot be built.
-/
namespace KeyedTable

universe u v
variable {κ : Type u} {ρ : Type v} [DecidableEq κ]

@[ext] structure Table (key : ρ → κ) (check : ρ → Prop) where
  rows : List ρ
  unique : rows.Pairwise (fun a b => key a ≠ key b)
  checked : ∀ r ∈ rows, check r

/-- Replace the row with the key of `r` where it stands, or append `r`. -/
def insertRow (key : ρ → κ) (r : ρ) : List ρ → List ρ
  | [] => [r]
  | x :: xs => if key x = key r then r :: xs else x :: insertRow key r xs

theorem mem_insertRow {key : ρ → κ} {r x : ρ} {l : List ρ} :
    x ∈ insertRow key r l → x = r ∨ x ∈ l := by
  induction l with
  | nil => simp [insertRow]
  | cons y ys ih =>
    unfold insertRow
    split_ifs with hy
    · intro h
      exact (List.mem_cons.mp h).imp_right (List.mem_cons_of_mem y)
    · intro h
      rcases List.mem_cons.mp h with h | h
      · exact .inr (by simp [h])
      · exact (ih h).imp_right (List.mem_cons_of_mem y)

theorem insertRow_unique {key : ρ → κ} (r : ρ) {l : List ρ}
    (h : l.Pairwise (fun a b => key a ≠ key b)) :
    (insertRow key r l).Pairwise (fun a b => key a ≠ key b) := by
  induction l with
  | nil => simp [insertRow]
  | cons y ys ih =>
    obtain ⟨hy, hys⟩ := List.pairwise_cons.mp h
    unfold insertRow
    split_ifs with he
    · exact List.pairwise_cons.mpr ⟨fun b hb => he ▸ hy b hb, hys⟩
    · refine List.pairwise_cons.mpr ⟨fun b hb => ?_, ih hys⟩
      rcases mem_insertRow hb with rfl | hb
      · exact he
      · exact hy b hb

namespace Table

variable {key : ρ → κ} {check : ρ → Prop}

def empty : Table key check := ⟨[], .nil, by simp⟩

def lookup (t : Table key check) (k : κ) : Option ρ := t.rows.find? (fun r => key r = k)

def put (t : Table key check) (r : ρ) (h : check r) : Table key check where
  rows := insertRow key r t.rows
  unique := insertRow_unique r t.unique
  checked x hx := (mem_insertRow hx).elim (fun e => e ▸ h) (t.checked x)

def keep (t : Table key check) (p : ρ → Bool) : Table key check where
  rows := t.rows.filter p
  unique := t.unique.filter _
  checked x hx := t.checked x (List.mem_filter.mp hx).1

def erase (t : Table key check) (k : κ) : Table key check := t.keep (fun r => key r ≠ k)

omit [DecidableEq κ] in
theorem key_injOn (t : Table key check) {a b : ρ} (ha : a ∈ t.rows) (hb : b ∈ t.rows)
    (h : key a = key b) : a = b := by
  have hp : t.rows.Pairwise (fun x y => key x = key y → x = y) :=
    t.unique.imp (fun hne he => absurd he hne)
  have hq : t.rows.Pairwise (fun x y => key y = key x → y = x) :=
    t.unique.imp (fun hne he => absurd he.symm hne)
  exact hp.forall_of_forall_of_flip (fun _ _ _ => rfl) hq ha hb h

theorem lookup_eq_some_iff (t : Table key check) {k : κ} {r : ρ} :
    t.lookup k = some r ↔ r ∈ t.rows ∧ key r = k := by
  constructor
  · intro h
    exact ⟨List.mem_of_find?_eq_some h, by simpa using List.find?_some h⟩
  · rintro ⟨hr, rfl⟩
    cases h : t.lookup (key r) with
    | none => simpa using List.find?_eq_none.mp h r hr
    | some x =>
      have hx : key x = key r := by simpa using List.find?_some h
      rw [t.key_injOn (List.mem_of_find?_eq_some h) hr hx]

theorem lookup_key (t : Table key check) {r : ρ} (h : r ∈ t.rows) : t.lookup (key r) = some r :=
  t.lookup_eq_some_iff.mpr ⟨h, rfl⟩

theorem mem_of_lookup {t : Table key check} {k : κ} {r : ρ} (h : t.lookup k = some r) :
    r ∈ t.rows :=
  (t.lookup_eq_some_iff.mp h).1

theorem key_of_lookup {t : Table key check} {k : κ} {r : ρ} (h : t.lookup k = some r) :
    key r = k :=
  (t.lookup_eq_some_iff.mp h).2

theorem lookup_eq_none_iff (t : Table key check) {k : κ} :
    t.lookup k = none ↔ ∀ r ∈ t.rows, key r ≠ k := by
  simp [lookup]

theorem mem_put_iff (t : Table key check) {r x : ρ} (h : check r) :
    x ∈ (t.put r h).rows ↔ x = r ∨ x ∈ t.rows ∧ key x ≠ key r := by
  change x ∈ insertRow key r t.rows ↔ _
  have hs := t.unique
  generalize t.rows = l at hs
  induction l with
  | nil => simp [insertRow]
  | cons y ys ih =>
    obtain ⟨hy, hys⟩ := List.pairwise_cons.mp hs
    have ih' : x ∈ insertRow key r ys ↔ x = r ∨ x ∈ ys ∧ key x ≠ key r := ih hys
    unfold insertRow
    split_ifs with he
    · simp only [List.mem_cons]
      constructor
      · rintro (rfl | hx)
        · exact .inl rfl
        · exact .inr ⟨.inr hx, he ▸ (hy x hx).symm⟩
      · rintro (rfl | ⟨rfl | hx, hk⟩)
        · exact .inl rfl
        · exact absurd he hk
        · exact .inr hx
    · rw [List.mem_cons, ih', List.mem_cons]
      constructor
      · rintro (rfl | rfl | ⟨hx, hk⟩)
        · exact .inr ⟨.inl rfl, he⟩
        · exact .inl rfl
        · exact .inr ⟨.inr hx, hk⟩
      · rintro (rfl | ⟨rfl | hx, hk⟩)
        · exact .inr (.inl rfl)
        · exact .inl rfl
        · exact .inr (.inr ⟨hx, hk⟩)

theorem lookup_put (t : Table key check) (r : ρ) (h : check r) (k : κ) :
    (t.put r h).lookup k = if key r = k then some r else t.lookup k := by
  split_ifs with hk
  · exact (t.put r h).lookup_eq_some_iff.mpr ⟨(t.mem_put_iff h).mpr (.inl rfl), hk⟩
  · apply Option.ext
    intro x
    rw [lookup_eq_some_iff, lookup_eq_some_iff, mem_put_iff]
    constructor
    · rintro ⟨rfl | ⟨hx, _⟩, hxk⟩
      · exact absurd hxk hk
      · exact ⟨hx, hxk⟩
    · rintro ⟨hx, rfl⟩
      exact ⟨.inr ⟨hx, fun he => hk he.symm⟩, rfl⟩

@[simp] theorem lookup_put_self (t : Table key check) (r : ρ) (h : check r) :
    (t.put r h).lookup (key r) = some r := by
  rw [lookup_put, if_pos rfl]

theorem isSome_lookup_put {t : Table key check} {r : ρ} (h : check r) {k : κ}
    (hk : (t.lookup k).isSome) : ((t.put r h).lookup k).isSome := by
  rw [lookup_put]
  split_ifs
  · rfl
  · exact hk

/-- No key moves, and a new one comes last. -/
theorem keys_put (t : Table key check) (r : ρ) (h : check r) :
    ∃ news, (t.put r h).rows.map key = t.rows.map key ++ news := by
  change ∃ news, (insertRow key r t.rows).map key = t.rows.map key ++ news
  induction t.rows with
  | nil => exact ⟨[key r], rfl⟩
  | cons x xs ih =>
    unfold insertRow
    split_ifs with hx
    · exact ⟨[], by simp [hx]⟩
    · obtain ⟨news, hnews⟩ := ih
      exact ⟨news, by simp [hnews]⟩

omit [DecidableEq κ] in
theorem nodup_keys (t : Table key check) : (t.rows.map key).Nodup := by
  rw [List.Nodup, List.pairwise_map]
  exact t.unique

def position (t : Table key check) (k : κ) : ℕ := (t.rows.map key).idxOf k

theorem position_pairwise (t : Table key check) :
    t.rows.Pairwise (fun a b => t.position (key a) < t.position (key b)) := by
  rw [List.pairwise_iff_getElem]
  intro i j hi hj hij
  have hposition : ∀ n (hn : n < t.rows.length), t.position (key t.rows[n]) = n := by
    intro n hn
    have hidx := t.nodup_keys.idxOf_getElem n (by simpa using hn)
    rwa [List.getElem_map] at hidx
  rw [hposition i hi, hposition j hj]
  exact hij

theorem position_lt_iff {t u : Table key check} {news : List κ}
    (h : u.rows.map key = t.rows.map key ++ news) {j : κ} (hj : (t.lookup j).isSome) (i : κ) :
    u.position i < u.position j ↔ t.position i < t.position j := by
  obtain ⟨r, hr⟩ := Option.isSome_iff_exists.mp hj
  have hmem : j ∈ t.rows.map key := List.mem_map.mpr ⟨r, t.lookup_eq_some_iff.mp hr⟩
  have hlast := List.idxOf_lt_length_of_mem hmem
  unfold position
  rw [h, List.idxOf_append_of_mem hmem]
  by_cases hi : i ∈ t.rows.map key
  · rw [List.idxOf_append_of_mem hi]
  · rw [List.idxOf_append_of_notMem hi, List.idxOf_of_notMem hi]
    omega

omit [DecidableEq κ] in
theorem keep_eq_self_iff (t : Table key check) (p : ρ → Bool) :
    t.keep p = t ↔ ∀ r ∈ t.rows, p r = true := by
  rw [Table.ext_iff]
  exact List.filter_eq_self

theorem lookup_keep (t : Table key check) (p : ρ → Bool) (k : κ) :
    (t.keep p).lookup k = (t.lookup k).filter p := by
  apply Option.ext
  intro x
  rw [Option.filter_eq_some_iff, lookup_eq_some_iff, lookup_eq_some_iff, keep, List.mem_filter]
  exact and_right_comm

theorem lookup_erase (t : Table key check) (k j : κ) :
    (t.erase k).lookup j = if j = k then none else t.lookup j := by
  rw [erase, lookup_keep]
  cases hj : t.lookup j with
  | none => simp
  | some r => split_ifs with hk <;> simp [Option.filter, key_of_lookup hj, hk]

@[simp] theorem lookup_erase_self (t : Table key check) (k : κ) : (t.erase k).lookup k = none := by
  rw [lookup_erase, if_pos rfl]

theorem lookup_erase_of_ne (t : Table key check) {k j : κ} (h : j ≠ k) :
    (t.erase k).lookup j = t.lookup j := by
  rw [lookup_erase, if_neg h]

theorem map_lookup_put {β : Type*} (t : Table key check) (f : ρ → β) (r : ρ) (h : check r) :
    (fun k => ((t.put r h).lookup k).map f) =
      Function.update (fun k => (t.lookup k).map f) (key r) (some (f r)) := by
  funext k
  rw [lookup_put, Function.update_apply]
  by_cases hk : k = key r
  · rw [if_pos hk, if_pos hk.symm]
    rfl
  · rw [if_neg hk, if_neg (fun h => hk h.symm)]

theorem map_lookup_erase {β : Type*} (t : Table key check) (f : ρ → β) (k : κ) :
    (fun j => ((t.erase k).lookup j).map f) = Function.update (fun j => (t.lookup j).map f) k none := by
  funext j
  rw [lookup_erase, Function.update_apply]
  split_ifs <;> rfl

theorem erase_of_lookup_none {t : Table key check} {k : κ} (h : t.lookup k = none) :
    t.erase k = t := by
  apply Table.ext
  refine List.filter_eq_self.mpr (fun r hr => ?_)
  simpa using t.lookup_eq_none_iff.mp h r hr

section Images
variable {β : Type*} {f : ρ → β} (keyOf : β → κ) (hf : ∀ r, keyOf (f r) = key r)
include hf

theorem map_insertRow (r : ρ) (l : List ρ) :
    (insertRow key r l).map f = insertRow keyOf (f r) (l.map f) := by
  induction l with
  | nil => rfl
  | cons x xs ih =>
    rw [List.map_cons, insertRow, insertRow, hf, hf, ← ih]
    split_ifs <;> rfl

theorem map_lookup (t : Table key check) (k : κ) :
    (t.lookup k).map f = (t.rows.map f).find? (fun b => keyOf b = k) := by
  rw [List.find?_map]
  simp only [Function.comp_def, hf]
  rfl

end Images

end Table
end KeyedTable
