import Mathlib.Data.Finset.Dedup
import Mathlib.Tactic.Common

/-!
# Words of a list, and putting them back together

`words isSep l` are the maximal runs of non-separators of `l`, so runs of
separators count once and no word is empty.  Joining non-empty,
separator-free pieces with one separator is undone by `words`
(`words_intercalate`).

`keepFirst` is the loop that appends an item to an accumulator unless it is
already there: the first occurrences, in order.
-/

namespace Words

variable {α : Type*}

/-! ## Splitting -/

/-- The maximal runs of non-separators. -/
def words (isSep : α → Bool) (l : List α) : List (List α) :=
  (l.splitOnP isSep).filter fun piece => !piece.isEmpty

variable {isSep : α → Bool}

theorem forall_not_sep_of_mem_splitOnP {l piece : List α} (h : piece ∈ l.splitOnP isSep) :
    ∀ c ∈ piece, isSep c = false := by
  induction l generalizing piece with
  | nil =>
      obtain rfl : piece = [] := by simpa using h
      simp
  | cons c rest ih =>
      obtain ⟨first, more, hrest⟩ :=
        List.exists_cons_of_ne_nil (List.splitOnP_ne_nil isSep rest)
      rw [List.splitOnP_cons_eq_if_modifyHead] at h
      cases hc : isSep c with
      | true =>
          simp only [hc, if_true, List.mem_cons] at h
          rcases h with rfl | h
          · simp
          · exact ih h
      | false =>
          simp only [hc, Bool.false_eq_true, if_false, hrest, List.modifyHead_cons,
            List.mem_cons] at h
          rcases h with rfl | h
          · have hfirst : ∀ d ∈ first, isSep d = false := ih (by simp [hrest])
            simpa [hc] using hfirst
          · exact ih (by simp [hrest, h])

/-- A word is not empty and holds no separator. -/
theorem mem_words {l word : List α} (h : word ∈ words isSep l) :
    word ≠ [] ∧ ∀ c ∈ word, isSep c = false := by
  rw [words, List.mem_filter] at h
  exact ⟨by simpa using h.2, forall_not_sep_of_mem_splitOnP h.1⟩

/-- Separators alone make no word. -/
theorem words_of_forall_sep {l : List α} (h : ∀ c ∈ l, isSep c = true) : words isSep l = [] := by
  induction l with
  | nil => rfl
  | cons c rest ih =>
      have hrest := ih fun d hd => h d (List.mem_cons_of_mem _ hd)
      rw [words, List.splitOnP_cons_eq_if_modifyHead, if_pos (h c (by simp))]
      simpa [words] using hrest

theorem words_of_forall_not_sep {word : List α} (hne : word ≠ [])
    (hword : ∀ c ∈ word, isSep c = false) : words isSep word = [word] := by
  simp [words, List.splitOnP_eq_singleton hword, hne]

/-- The first word of `word ++ sep :: rest` is `word`. -/
theorem words_append_sep {word rest : List α} {sep : α} (hne : word ≠ [])
    (hword : ∀ c ∈ word, isSep c = false) (hsep : isSep sep = true) :
    words isSep (word ++ sep :: rest) = word :: words isSep rest := by
  simp [words, List.splitOnP_append_cons_of_forall_mem hword sep hsep, hne]

/-- Splitting undoes joining, when every piece is a word. -/
theorem words_intercalate {sep : α} (hsep : isSep sep = true) {pieces : List (List α)}
    (hpieces : ∀ piece ∈ pieces, piece ≠ [] ∧ ∀ c ∈ piece, isSep c = false) :
    words isSep ([sep].intercalate pieces) = pieces := by
  induction pieces with
  | nil => rfl
  | cons piece rest ih =>
      obtain ⟨hne, hpiece⟩ := hpieces piece (by simp)
      have hrest := ih fun p hp => hpieces p (List.mem_cons_of_mem _ hp)
      by_cases hnil : rest = []
      · subst hnil
        simpa using words_of_forall_not_sep hne hpiece
      · rw [List.intercalate_cons_of_ne_nil hnil, List.append_assoc, List.singleton_append,
          words_append_sep hne hpiece hsep, hrest]

/-! ## First occurrences -/

variable [DecidableEq α]

/-- One round of the loop: append the item unless it is already there. -/
def appendNew (kept : List α) (item : α) : List α :=
  if item ∈ kept then kept else kept ++ [item]

/-- The first occurrences of the items, in order. -/
def keepFirst (items : List α) : List α :=
  items.foldl appendNew []

theorem mem_appendNew {kept : List α} {item x : α} :
    x ∈ appendNew kept item ↔ x ∈ kept ∨ x = item := by
  unfold appendNew
  split
  · constructor
    · exact Or.inl
    · rintro (h | rfl) <;> assumption
  · simp

theorem nodup_appendNew {kept : List α} (h : kept.Nodup) (item : α) :
    (appendNew kept item).Nodup := by
  unfold appendNew
  split
  · exact h
  · next hnot => exact List.Nodup.append h (by simp) (by simpa using hnot)

theorem mem_foldl_appendNew {items kept : List α} {x : α} :
    x ∈ items.foldl appendNew kept ↔ x ∈ kept ∨ x ∈ items := by
  induction items generalizing kept with
  | nil => simp
  | cons item rest ih => rw [List.foldl_cons, ih, mem_appendNew, List.mem_cons, or_assoc]

@[simp] theorem mem_keepFirst {items : List α} {x : α} : x ∈ keepFirst items ↔ x ∈ items := by
  simp [keepFirst, mem_foldl_appendNew]

theorem foldl_appendNew_nodup {items kept : List α} (h : kept.Nodup) :
    (items.foldl appendNew kept).Nodup := by
  induction items generalizing kept with
  | nil => exact h
  | cons item rest ih => exact ih (nodup_appendNew h item)

theorem keepFirst_nodup (items : List α) : (keepFirst items).Nodup :=
  foldl_appendNew_nodup List.nodup_nil

theorem foldl_appendNew_of_nodup {items kept : List α} (h : (kept ++ items).Nodup) :
    items.foldl appendNew kept = kept ++ items := by
  induction items generalizing kept with
  | nil => simp
  | cons item rest ih =>
      have hnot : item ∉ kept := fun hmem =>
        (List.nodup_append.mp h).2.2 item hmem item (by simp) rfl
      rw [List.foldl_cons, appendNew, if_neg hnot, ih (by simpa using h), List.append_assoc,
        List.singleton_append]

/-- Without repetitions there is nothing to drop. -/
theorem keepFirst_of_nodup {items : List α} (h : items.Nodup) : keepFirst items = items := by
  rw [keepFirst, foldl_appendNew_of_nodup (by simpa using h), List.nil_append]

end Words
