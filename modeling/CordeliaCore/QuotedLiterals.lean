import Mathlib.Data.List.Basic

set_option autoImplicit false

namespace CordeliaCore.QuotedLiterals

inductive Lexeme (α : Type) where
  | literal (content : List α)
  | sign (a : α)
deriving DecidableEq

/-- The reader is outside the literals, in one, or at a quote in one, which either closes it
    or is the first of two. -/
inductive Mode (α : Type) where
  | outside
  | inside (content : List α)
  | atQuote (content : List α)

variable {α : Type} (quote gap : α)

inductive Literals : List α → List (List α) → Prop where
  | one {content : List α} (h : quote ∉ content) : Literals (quote :: content ++ [quote]) [content]
  | more {content text : List α} {contents : List (List α)} (h : quote ∉ content)
      (rest : Literals text contents) :
      Literals (quote :: content ++ quote :: gap :: text) (content :: contents)

theorem Literals.text_ne_nil {text : List α} {contents : List (List α)}
    (h : Literals quote gap text contents) : text ≠ [] := by
  cases h with
  | one _ => exact List.cons_ne_nil _ _
  | more _ _ => exact List.cons_ne_nil _ _

theorem literals_intercalate {contents : List (List α)} (hne : contents ≠ [])
    (h : ∀ content ∈ contents, quote ∉ content) :
    Literals quote gap
      ([gap].intercalate (contents.map (fun content => [quote] ++ content ++ [quote]))) contents := by
  induction contents with
  | nil => exact absurd rfl hne
  | cons content contents ih =>
    have hcontent := h content List.mem_cons_self
    cases contents with
    | nil => simpa using Literals.one hcontent
    | cons second contents =>
      have hrest := ih (List.cons_ne_nil _ _) (fun c hc => h c (List.mem_cons_of_mem _ hc))
      simpa using Literals.more hcontent hrest

variable [DecidableEq α]

/-- The lexemes of a text, or none if a literal is not closed. -/
def read : Mode α → List α → Option (List (Lexeme α))
  | .outside, [] => some []
  | .inside _, [] => none
  | .atQuote content, [] => some [.literal content]
  | .outside, a :: text =>
    if a = quote then read (.inside []) text
    else if a = gap then read .outside text
    else (read .outside text).map (.sign a :: ·)
  | .inside content, a :: text =>
    if a = quote then read (.atQuote content) text
    else read (.inside (content ++ [a])) text
  | .atQuote content, a :: text =>
    if a = quote then read (.inside (content ++ [a])) text
    else if a = gap then (read .outside text).map (.literal content :: ·)
    else (read .outside text).map (fun rest => .literal content :: .sign a :: rest)

variable {quote gap}

theorem read_inside {content : List α} (h : quote ∉ content) (before text : List α) :
    read quote gap (.inside before) (content ++ quote :: text) =
      read quote gap (.atQuote (before ++ content)) text := by
  induction content generalizing before with
  | nil => simp [read]
  | cons a content ih =>
    have hne : a ≠ quote := fun heq => h (heq ▸ List.mem_cons_self)
    have hrest : quote ∉ content := fun hmem => h (List.mem_cons_of_mem _ hmem)
    rw [List.cons_append, read, if_neg hne, ih hrest, List.append_assoc, List.singleton_append]

theorem read_literal {content : List α} (h : quote ∉ content) (text : List α) :
    read quote gap .outside (quote :: content ++ quote :: text) =
      read quote gap (.atQuote content) text := by
  rw [List.cons_append, read, if_pos rfl, read_inside h, List.nil_append]

theorem Literals.read_eq (hgap : gap ≠ quote) {text : List α} {contents : List (List α)}
    (h : Literals quote gap text contents) :
    read quote gap .outside text = some (contents.map .literal) := by
  induction h with
  | one hcontent =>
    rw [read_literal hcontent]
    rfl
  | more hcontent _ ih =>
    rw [read_literal hcontent, read, if_neg hgap, if_pos rfl, ih]
    rfl

end CordeliaCore.QuotedLiterals
