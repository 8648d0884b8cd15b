import CordeliaCore.FullTextSearch
import CordeliaCore.QuotedLiterals

set_option autoImplicit false

namespace CordeliaCore.FullTextSearch
open QuotedLiterals

section Words

theorem splitWhitespace_append_cons (before after : List Char) {c : Char}
    (hc : isWhitespace c = true) :
    splitWhitespace (before ++ c :: after) = splitWhitespace before ++ splitWhitespace after := by
  unfold splitWhitespace
  rw [List.splitOnP_append_cons before after hc, List.filter_append]

theorem splitWhitespace_nil : splitWhitespace [] = [] := rfl

theorem splitWhitespace_cons (text : List Char) {c : Char} (hc : isWhitespace c = true) :
    splitWhitespace (c :: text) = splitWhitespace text := by
  have hfirst := splitWhitespace_append_cons [] text hc
  rw [splitWhitespace_nil, List.nil_append, List.nil_append] at hfirst
  exact hfirst

theorem splitWhitespace_dropWhile (text : List Char) :
    splitWhitespace (text.dropWhile isWhitespace) = splitWhitespace text := by
  induction text with
  | nil => rfl
  | cons c text ih =>
    by_cases hc : isWhitespace c = true
    · rw [List.dropWhile_cons_of_pos hc, ih, splitWhitespace_cons text hc]
    · rw [List.dropWhile_cons_of_neg hc]

theorem splitWhitespace_rdropWhile (text : List Char) :
    splitWhitespace (text.rdropWhile isWhitespace) = splitWhitespace text := by
  induction text using List.reverseRecOn with
  | nil => rfl
  | append_singleton text c ih =>
    by_cases hc : isWhitespace c = true
    · have hlast := splitWhitespace_append_cons text [] hc
      rw [splitWhitespace_nil, List.append_nil] at hlast
      rw [List.rdropWhile_concat_pos _ _ _ hc, ih, hlast]
    · rw [List.rdropWhile_concat_neg _ _ _ hc]

theorem splitWhitespace_trim (text : List Char) :
    splitWhitespace (trim text) = splitWhitespace text := by
  unfold trim
  rw [splitWhitespace_rdropWhile, splitWhitespace_dropWhile]

theorem splitWhitespace_ne_nil {text : List Char} (h : ∃ c ∈ text, isWhitespace c = false) :
    splitWhitespace text ≠ [] := by
  induction text with
  | nil => simp at h
  | cons c text ih =>
    by_cases hc : isWhitespace c = true
    · rw [splitWhitespace_cons text hc]
      exact ih (by simpa [hc] using h)
    · obtain ⟨word, words, hwords⟩ :=
        List.exists_cons_of_ne_nil (List.splitOnP_ne_nil isWhitespace text)
      unfold splitWhitespace
      rw [List.splitOnP_cons_eq_if_modifyHead, if_neg hc, hwords]
      simp

theorem mem_splitOnP {text word : List Char} (h : word ∈ text.splitOnP isWhitespace) :
    ∀ c ∈ word, isWhitespace c = false := by
  induction text generalizing word with
  | nil => simp_all
  | cons c text ih =>
    rw [List.splitOnP_cons_eq_if_modifyHead] at h
    split_ifs at h with hc
    · rcases List.mem_cons.mp h with rfl | hword
      · simp
      · exact ih hword
    · obtain ⟨first, words, hwords⟩ :=
        List.exists_cons_of_ne_nil (List.splitOnP_ne_nil isWhitespace text)
      rw [hwords] at h ih
      rcases List.mem_cons.mp h with rfl | hword
      · have hfirst := ih List.mem_cons_self
        simpa [hc] using hfirst
      · exact ih (List.mem_cons_of_mem _ hword)

end Words

section Literals

def unquotedTokens (query : String) : List (List Char) :=
  (splitWhitespace query.toList).map (fun token => token.filter (· ≠ '"'))

theorem unquotedTokens_plain {query : String} {content : List Char}
    (h : content ∈ unquotedTokens query) : ∀ c ∈ content, c ≠ '"' ∧ isWhitespace c = false := by
  obtain ⟨token, htoken, rfl⟩ := List.mem_map.mp h
  intro c hc
  obtain ⟨hmem, hquote⟩ := List.mem_filter.mp hc
  exact ⟨of_decide_eq_true hquote, mem_splitOnP (List.mem_filter.mp htoken).1 c hmem⟩

theorem safeQuery_trim (query : String) : safeQuery (trim query.toList) =
    [' '].intercalate
      ((unquotedTokens query).map (fun content => ['"'] ++ content ++ ['"'])) := by
  have hwords : (splitWhitespace query.toList).filter (fun token => !token.isEmpty) =
      splitWhitespace query.toList := by
    unfold splitWhitespace
    rw [List.filter_filter]
    simp
  unfold safeQuery unquotedTokens
  rw [splitWhitespace_trim, hwords, List.map_map]
  rfl

theorem safeQuery_literals {query : String} (h : ∃ c ∈ query.toList, isWhitespace c = false) :
    Literals '"' ' ' (safeQuery (trim query.toList)) (unquotedTokens query) := by
  rw [safeQuery_trim]
  apply literals_intercalate
  · unfold unquotedTokens
    simpa using splitWhitespace_ne_nil h
  · exact fun content hcontent hquote => (unquotedTokens_plain hcontent _ hquote).1 rfl

theorem ftsSearch_of_not_blank {query : String} (h : ∃ c ∈ query.toList, isWhitespace c = false)
    (index : FtsIndex) (limit : UInt32) : ftsSearch index query limit =
      (index (String.ofList (safeQuery (trim query.toList)))).map (·.take limit.toNat) := by
  have htrim : trim query.toList ≠ [] := by
    intro hempty
    apply splitWhitespace_ne_nil h
    rw [← splitWhitespace_trim, hempty, splitWhitespace_nil]
  have hsafe := (safeQuery_literals h).text_ne_nil
  unfold ftsSearch
  dsimp only
  rw [if_neg (by simpa using htrim), if_neg (by simpa using hsafe)]

/-- A query that is not blank goes to the index as one quoted literal for each of its words,
    and is read as these literals and nothing else. -/
theorem ftsSearch_literals (query : String) (h : ∃ c ∈ query.toList, isWhitespace c = false) :
    let tokens := splitWhitespace query.toList
    let contents := tokens.map (fun token => token.filter (· ≠ '"'))
    ∃ text : String,
      (∀ index limit, ftsSearch index query limit = (index text).map (·.take limit.toNat)) ∧
        tokens ≠ [] ∧ Literals '"' ' ' text.toList contents ∧
        (∀ content ∈ contents, ∀ c ∈ content, c ≠ '"' ∧ isWhitespace c = false) ∧
        read '"' ' ' .outside text.toList = some (contents.map .literal) := by
  intro tokens contents
  have hliterals := safeQuery_literals h
  refine ⟨String.ofList (safeQuery (trim query.toList)), ftsSearch_of_not_blank h,
    splitWhitespace_ne_nil h, ?_, fun content hcontent => unquotedTokens_plain hcontent, ?_⟩
  · rw [String.toList_ofList]
    exact hliterals
  · rw [String.toList_ofList]
    exact hliterals.read_eq (by decide)

/-- A column filter, an operator, a lone quote and a parenthesis are words like others. -/
theorem operators_are_literals :
    let query := "name:\"x OR \" (y*"
    ∃ text : String,
      (∀ index limit, ftsSearch index query limit = (index text).map (·.take limit.toNat)) ∧
        read '"' ' ' .outside text.toList =
          some ((["name:x", "OR", "", "(y*"].map String.toList).map .literal) := by
  intro query
  have hcontents : unquotedTokens query = ["name:x", "OR", "", "(y*"].map String.toList := by
    decide +kernel
  obtain ⟨text, hsearch, -, -, -, hread⟩ := ftsSearch_literals query ⟨'n', by decide, rfl⟩
  exact ⟨text, hsearch, hcontents ▸ hread⟩

end Literals

end CordeliaCore.FullTextSearch
