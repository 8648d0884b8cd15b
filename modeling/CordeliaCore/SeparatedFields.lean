import Mathlib.Data.List.Basic

set_option autoImplicit false

namespace SeparatedFields

universe u
variable {α : Type u} (c : α)

/-- The number of fields and the joined text leave one choice of fields. -/
def Readable (fields : List (List α)) : Prop :=
  ∀ other : List (List α), other.length = fields.length →
    [c].intercalate other = [c].intercalate fields → other = fields

theorem intercalate_append_cons (front first : List α) (rest : List (List α)) :
    [c].intercalate ((front ++ first) :: rest) = front ++ [c].intercalate (first :: rest) := by
  cases rest with
  | nil => simp
  | cons => simp

section Counting
variable [DecidableEq α]

theorem count_intercalate {fields : List (List α)} (h : fields ≠ []) :
    ([c].intercalate fields).count c + 1 = fields.flatten.count c + fields.length := by
  induction fields with
  | nil => exact absurd rfl h
  | cons field rest ih =>
    cases rest with
    | nil => simp
    | cons next rest =>
      have hrest := ih (List.cons_ne_nil next rest)
      rw [List.intercalate_cons_cons, List.append_assoc, List.count_append, List.count_append,
        List.count_singleton_self, List.flatten_cons, List.count_append, List.length_cons]
      omega

theorem count_flatten_eq_zero {fields : List (List α)} :
    fields.flatten.count c = 0 ↔ ∀ field ∈ fields, c ∉ field := by
  simp [List.count_eq_zero]

theorem readable_of_clean {fields : List (List α)} (hclean : ∀ field ∈ fields, c ∉ field) :
    Readable c fields := by
  intro other hlength htext
  rcases eq_or_ne fields [] with rfl | hfields
  · exact List.length_eq_zero_iff.mp hlength
  have hother : other ≠ [] := fun h => hfields (List.length_eq_zero_iff.mp (by simp [← hlength, h]))
  -- As many fields and as many separators leave no separator inside a field.
  have hcount := count_intercalate c hother
  rw [htext, hlength, count_intercalate c hfields, (count_flatten_eq_zero c).mpr hclean] at hcount
  have hotherClean := (count_flatten_eq_zero c).mp (show other.flatten.count c = 0 by omega)
  calc other = ([c].intercalate other).splitOn c := (List.splitOn_intercalate c hotherClean hother).symm
    _ = ([c].intercalate fields).splitOn c := by rw [htext]
    _ = fields := List.splitOn_intercalate c hclean hfields

end Counting

/-- A separator inside a field can be taken for the one beside the field. -/
theorem not_readable_of_mem {fields : List (List α)} (htwo : 2 ≤ fields.length)
    {field : List α} (hfield : field ∈ fields) (hc : c ∈ field) : ¬ Readable c fields := by
  induction fields with
  | nil => cases hfield
  | cons first rest ih =>
    cases rest with
    | nil => simp at htwo
    | cons second rest =>
      intro hreadable
      rcases List.mem_cons.mp hfield with rfl | hrest
      · obtain ⟨front, back, rfl⟩ := List.append_of_mem hc
        have hother := hreadable (front :: (back ++ c :: second) :: rest) rfl (by
          simp [intercalate_append_cons c back (c :: second) rest])
        simp at hother
      rcases List.mem_cons.mp hrest with rfl | hlater
      · obtain ⟨front, back, rfl⟩ := List.append_of_mem hc
        have hother := hreadable ((first ++ c :: front) :: back :: rest) rfl (by
          simp [intercalate_append_cons])
        simp at hother
      · have hne : rest ≠ [] := List.ne_nil_of_mem hlater
        have hlong : 2 ≤ (second :: rest).length := by
          have := List.length_pos_of_ne_nil hne
          simp only [List.length_cons]
          omega
        refine ih hlong hrest (fun other hlength htext => ?_)
        have hlonger : (first :: other).length = (first :: second :: rest).length := by
          simp only [List.length_cons] at hlength ⊢
          omega
        have hjoined : [c].intercalate (first :: other) = [c].intercalate (first :: second :: rest) := by
          cases other with
          | nil => simp at hlength
          | cons head tail =>
            rw [List.intercalate_cons_cons, List.intercalate_cons_cons, htext]
        exact (List.cons.inj (hreadable _ hlonger hjoined)).2

theorem readable_iff [DecidableEq α] {fields : List (List α)} (htwo : 2 ≤ fields.length) :
    Readable c fields ↔ ∀ field ∈ fields, c ∉ field :=
  ⟨fun h _ hfield hc => not_readable_of_mem c htwo hfield hc h, readable_of_clean c⟩

end SeparatedFields
