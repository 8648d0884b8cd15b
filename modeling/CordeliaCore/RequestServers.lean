import CordeliaCore.StepRuns

set_option autoImplicit false

namespace RequestServers
open StepRuns

universe u v w x
variable {S : Type u} {Q : Type v} {A : Type w} (serve : S → Q → A × S)

def next (s : S) (q : Q) : S := (serve s q).2

def transcript (s : S) : List Q → List (Q × A)
  | [] => []
  | q :: qs => (q, (serve s q).1) :: transcript (next serve s q) qs

@[simp] theorem transcript_cons (s : S) (q : Q) (qs : List Q) :
    transcript serve s (q :: qs) = (q, (serve s q).1) :: transcript serve (next serve s q) qs := rfl

variable {serve}

section Hidden
variable {I : S → Prop} (hkept : ∀ s q, I s → I (next serve s q)) {shown : Q → Bool}
  (hhidden : ∀ s q, I s → shown q = false → next serve s q = s)
include hkept hhidden

/-- Requests that change nothing leave no trace in the answers to the others. -/
theorem transcript_filter {s : S} (hs : I s) (qs : List Q) :
    (transcript serve s qs).filter (fun x => shown x.1) = transcript serve s (qs.filter shown) := by
  induction qs generalizing s with
  | nil => rfl
  | cons q qs ih =>
    have hrest := ih (hkept s q hs)
    cases hq : shown q with
    | true => simp only [transcript_cons, List.filter_cons, hq, if_true, hrest]
    | false =>
      rw [hhidden s q hs hq] at hrest
      simp only [transcript_cons, List.filter_cons, hq, hhidden s q hs hq, hrest]
      rfl

theorem run_filter {s : S} (hs : I s) (qs : List Q) :
    run (next serve) s qs = run (next serve) s (qs.filter shown) := by
  induction qs generalizing s with
  | nil => rfl
  | cons q qs ih =>
    rw [run_cons, ih (hkept s q hs)]
    cases hq : shown q with
    | true => rw [List.filter_cons_of_pos hq, run_cons]
    | false => rw [List.filter_cons_of_neg (by simp [hq]), hhidden s q hs hq]

end Hidden

theorem forall_transcript {I : S → Prop} (hkept : ∀ s q, I s → I (next serve s q))
    {P : Q → A → Prop} (hone : ∀ s q, I s → P q (serve s q).1) {s : S} (hs : I s) (qs : List Q) :
    ∀ x ∈ transcript serve s qs, P x.1 x.2 := by
  induction qs generalizing s with
  | nil =>
    intro x hx
    cases hx
  | cons q qs ih =>
    intro x hx
    rcases List.mem_cons.mp hx with rfl | hrest
    · exact hone s q hs
    · exact ih (hkept s q hs) x hrest

/-- Related states give the same answers to related requests and stay related. -/
theorem answers_agree {R : S → S → Prop} {T : Q → Q → Prop}
    (hone : ∀ s t q r, R s t → T q r → (serve s q).1 = (serve t r).1 ∧
      R (next serve s q) (next serve t r)) {s t : S} (hst : R s t) {qs rs : List Q}
    (hqs : List.Forall₂ T qs rs) :
    (transcript serve s qs).map Prod.snd = (transcript serve t rs).map Prod.snd := by
  induction hqs generalizing s t with
  | nil => rfl
  | cons hqr _ ih =>
    obtain ⟨hanswer, hnext⟩ := hone _ _ _ _ hst hqr
    rw [transcript_cons, transcript_cons, List.map_cons, List.map_cons, hanswer, ih hnext]

section Notes
variable {V : Type x} {I : S → Prop} (hkept : ∀ s q, I s → I (next serve s q))

def noted (note : V → Q → A → V) (v : V) (session : List (Q × A)) : V :=
  session.foldl (fun v x => note v x.1 x.2) v

include hkept

/-- A part of the state that each request changes as its answer tells. -/
theorem view_run (view : S → V) (note : V → Q → A → V)
    (hone : ∀ s q, I s → view (next serve s q) = note (view s) q (serve s q).1) {s : S} (hs : I s)
    (qs : List Q) :
    view (run (next serve) s qs) = noted note (view s) (transcript serve s qs) := by
  induction qs generalizing s with
  | nil => rfl
  | cons q qs ih =>
    rw [run_cons, ih (hkept s q hs), hone s q hs]
    rfl

/-- A log to which each request adds what its answer calls for. -/
theorem log_run {L : Type x} (log : S → List L) (entries : Q → A → List L)
    (hone : ∀ s q, I s → log (next serve s q) = log s ++ entries q (serve s q).1) {s : S} (hs : I s)
    (qs : List Q) :
    log (run (next serve) s qs) =
      log s ++ (transcript serve s qs).flatMap (fun x => entries x.1 x.2) := by
  rw [view_run hkept log (fun l q a => l ++ entries q a) hone hs qs]
  generalize log s = l
  generalize transcript serve s qs = session
  induction session generalizing l with
  | nil => exact (List.append_nil l).symm
  | cons x session ih =>
    rw [List.flatMap_cons, ← List.append_assoc]
    exact ih _

end Notes

end RequestServers
