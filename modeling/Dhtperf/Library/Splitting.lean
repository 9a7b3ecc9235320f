import Mathlib.Data.List.Basic

/-! Texts that are split at separators. Every separator ends a piece, so pieces may be
empty; the words of a text are the pieces that are not. -/
namespace Dhtperf.Library

variable {α : Type} {p : α → Bool}

theorem splitOnP_append (xs : List α) : ∃ pieces last, ∀ ys : List α,
    (xs ++ ys).splitOnP p = pieces ++ (ys.splitOnP p).modifyHead (last ++ ·) := by
  induction xs with
  | nil =>
    refine ⟨[],[],fun ys => ?_⟩
    rw [List.nil_append,List.nil_append]
    cases ys.splitOnP p <;> rfl
  | cons x xs ih =>
    obtain ⟨pieces,last,split⟩ := ih
    cases separates : p x with
    | true =>
      refine ⟨[] :: pieces,last,fun ys => ?_⟩
      rw [List.cons_append,List.splitOnP_cons_eq_if_modifyHead,if_pos separates,split,List.cons_append]
    | false =>
      cases pieces with
      | nil =>
        refine ⟨[],x :: last,fun ys => ?_⟩
        rw [List.cons_append,List.splitOnP_cons_eq_if_modifyHead,if_neg (by simp [separates]),split]
        cases ys.splitOnP p <;> rfl
      | cons piece pieces =>
        refine ⟨(x :: piece) :: pieces,last,fun ys => ?_⟩
        rw [List.cons_append,List.splitOnP_cons_eq_if_modifyHead,if_neg (by simp [separates]),split]
        rfl

theorem splitOnP_clear (xs : List α) : ∀ piece ∈ xs.splitOnP p, ∀ x ∈ piece, p x = false := by
  induction xs with
  | nil => simp
  | cons x xs ih =>
    rw [List.splitOnP_cons_eq_if_modifyHead]
    cases separates : p x with
    | true => simpa using ih
    | false =>
      rw [if_neg Bool.false_ne_true]
      cases pieces : xs.splitOnP p with
      | nil => simp
      | cons first rest =>
        rw [pieces] at ih
        intro piece member
        rcases List.mem_cons.mp member with rfl | later
        · intro y inside
          rcases List.mem_cons.mp inside with rfl | old
          · exact separates
          · exact ih first List.mem_cons_self y old
        · exact ih piece (List.mem_cons_of_mem _ later)

def words (p : α → Bool) (text : List α) : List (List α) := (text.splitOnP p).filter (!·.isEmpty)

theorem words_append_separator (xs ys : List α) (separator : α) (separates : p separator = true) :
    words p (xs ++ separator :: ys) = words p xs ++ words p ys := by
  rw [words,List.splitOnP_append_cons xs ys separates,List.filter_append]
  rfl

theorem words_clear (word : List α) (clear : ∀ x ∈ word, p x = false) :
    words p word = if word.isEmpty then [] else [word] := by
  rw [words,List.splitOnP_eq_singleton clear]
  cases word <;> rfl

theorem words_gap (gap xs : List α) (separators : ∀ x ∈ gap, p x = true) : words p (gap ++ xs) = words p xs := by
  induction gap with
  | nil => rfl
  | cons separator gap ih =>
    have first := words_append_separator (p := p) [] (gap ++ xs) separator (separators separator List.mem_cons_self)
    exact first.trans (ih fun x member => separators x (List.mem_cons_of_mem _ member))

theorem words_append_gap (xs gap ys : List α) (separators : ∀ x ∈ gap, p x = true) (some : gap ≠ []) :
    words p (xs ++ (gap ++ ys)) = words p xs ++ words p ys := by
  obtain ⟨separator,gap,rfl⟩ := List.exists_cons_of_ne_nil some
  rw [List.cons_append,words_append_separator xs _ separator (separators separator List.mem_cons_self),
    words_gap gap ys fun x member => separators x (List.mem_cons_of_mem _ member)]

theorem words_spaced (first : List α) (spaced : List (List α × List α)) (trailing : List α)
    (clear : ∀ x ∈ first, p x = false) (named : first ≠ [])
    (gaps : ∀ word ∈ spaced, word.1 ≠ [] ∧ ∀ x ∈ word.1, p x = true)
    (clean : ∀ word ∈ spaced, word.2 ≠ [] ∧ ∀ x ∈ word.2, p x = false)
    (blank : ∀ x ∈ trailing, p x = true) :
    words p (first ++ (spaced.flatMap (fun word => word.1 ++ word.2) ++ trailing)) = first :: spaced.map (·.2) := by
  induction spaced generalizing first with
  | nil =>
    have alone := words_clear first clear
    rw [if_neg (by simpa using named)] at alone
    cases trailing with
    | nil => simpa using alone
    | cons separator trailing =>
      have rest := words_append_gap first (separator :: trailing) [] blank (List.cons_ne_nil _ _)
      rw [List.append_nil,alone] at rest
      exact rest
  | cons word spaced ih =>
    have alone := words_clear first clear
    rw [if_neg (by simpa using named)] at alone
    obtain ⟨some,separators⟩ := gaps word List.mem_cons_self
    obtain ⟨nonempty,plain⟩ := clean word List.mem_cons_self
    have rest := ih word.2 plain nonempty (fun other member => gaps other (List.mem_cons_of_mem _ member))
      (fun other member => clean other (List.mem_cons_of_mem _ member))
    rw [List.flatMap_cons,List.append_assoc,List.append_assoc,words_append_gap first word.1 _ separators some,alone,
      rest]
    rfl

theorem words_intercalate (separator : α) (separates : p separator = true) (pieces : List (List α)) :
    words p ([separator].intercalate pieces) = pieces.flatMap (words p) := by
  induction pieces with
  | nil => rfl
  | cons piece pieces ih =>
    cases pieces with
    | nil => simp
    | cons next pieces =>
      rw [List.intercalate_cons_cons,List.append_assoc,List.singleton_append,
        words_append_separator piece _ separator separates,ih]
      rfl

theorem flatMap_words (pieces : List (List α)) (clear : ∀ piece ∈ pieces, ∀ x ∈ piece, p x = false) :
    pieces.flatMap (words p) = pieces.filter (!·.isEmpty) := by
  induction pieces with
  | nil => rfl
  | cons piece pieces ih =>
    rw [List.flatMap_cons,words_clear piece (clear piece List.mem_cons_self),
      ih fun other member => clear other (List.mem_cons_of_mem _ member)]
    cases piece <;> rfl

theorem words_rest (separator : α) (separates : p separator = true) (text : List α) :
    words p ([separator].intercalate (text.splitOnP p).tail) = (text.splitOnP p).tail.filter (!·.isEmpty) := by
  rw [words_intercalate separator separates]
  exact flatMap_words _ fun piece member => splitOnP_clear text piece (List.mem_of_mem_tail member)

end Dhtperf.Library
