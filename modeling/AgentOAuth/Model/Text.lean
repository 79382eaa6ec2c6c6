import AgentOAuth.Lib.Words
import Mathlib.Data.Finset.Sort
import Mathlib.Data.List.DropRight
import Mathlib.Data.List.Sort
import Mathlib.Data.String.Basic

/-!
# The string methods the server uses

`str.split()` and `str.strip()` without arguments, `" ".join`, and `sorted` on
strings, over any Unicode text.
-/

namespace AgentOAuth

open Words

/-- The characters `str.split()` and `str.strip()` treat as whitespace. -/
def isSpace (c : Char) : Bool :=
  let n := c.toNat
  (9 ≤ n && n ≤ 13) || (28 ≤ n && n ≤ 32) || n == 133 || n == 160 || n == 5760 ||
    (8192 ≤ n && n ≤ 8202) || n == 8232 || n == 8233 || n == 8239 || n == 8287 || n == 12288

/-- `text.split()`. -/
def split (text : String) : List String :=
  (words isSpace text.toList).map String.ofList

/-- `text.strip()`. -/
def strip (text : String) : String :=
  String.ofList ((text.toList.dropWhile isSpace).rdropWhile isSpace)

/-- `" ".join(pieces)`. -/
def joinSpaces (pieces : List String) : String :=
  " ".intercalate pieces

/-- `sorted(strings)`: by code point. -/
def sorted (strings : List String) : List String :=
  strings.insertionSort (· ≤ ·)

/-- `sorted` of a `frozenset` of strings. -/
def sortedMembers (strings : Finset String) : List String :=
  strings.sort (· ≤ ·)

/-- What `split` returns: not empty, and without whitespace. -/
def IsWord (s : String) : Prop :=
  s ≠ "" ∧ ∀ c ∈ s.toList, isSpace c = false

theorem isWord_of_mem_split {text word : String} (h : word ∈ split text) : IsWord word := by
  obtain ⟨piece, hpiece, rfl⟩ := List.mem_map.mp h
  obtain ⟨hne, hchars⟩ := mem_words hpiece
  refine ⟨?_, by simpa using hchars⟩
  intro hempty
  apply hne
  simpa using congrArg String.toList hempty

theorem toList_ne_nil {s : String} (h : s ≠ "") : s.toList ≠ [] := by
  simpa using h

/-- Splitting undoes joining words with one space. -/
theorem split_joinSpaces {pieces : List String} (h : ∀ piece ∈ pieces, IsWord piece) :
    split (joinSpaces pieces) = pieces := by
  have hwords : ∀ piece ∈ pieces.map String.toList,
      piece ≠ [] ∧ ∀ c ∈ piece, isSpace c = false := by
    intro piece hpiece
    obtain ⟨s, hs, rfl⟩ := List.mem_map.mp hpiece
    exact ⟨toList_ne_nil (h s hs).1, (h s hs).2⟩
  have hspace : " ".toList = [' '] := by decide
  rw [split, joinSpaces, String.toList_intercalate, hspace,
    words_intercalate (by decide) hwords, List.map_map]
  simp [Function.comp_def]

theorem joinSpaces_eq_empty_iff {pieces : List String} (h : ∀ piece ∈ pieces, IsWord piece) :
    joinSpaces pieces = "" ↔ pieces = [] := by
  constructor
  · intro hempty
    have hsplit := split_joinSpaces h
    rw [hempty] at hsplit
    exact hsplit.symm
  · rintro rfl
    rfl

/-- Text that strips to nothing has no words. -/
theorem split_eq_nil_of_strip {text : String} (h : strip text = "") : split text = [] := by
  have hright : ∀ c ∈ text.toList.dropWhile isSpace, isSpace c = true := by
    rw [← List.rdropWhile_eq_nil_iff]
    simpa [strip] using congrArg String.toList h
  have hleft : text.toList.dropWhile isSpace = [] := by
    by_contra hne
    have hhead := List.head_dropWhile_not isSpace hne
    rw [hright _ (List.head_mem hne)] at hhead
    exact Bool.noConfusion hhead
  rw [split, words_of_forall_sep (List.dropWhile_eq_nil_iff.mp hleft), List.map_nil]

@[simp] theorem mem_sorted {strings : List String} {s : String} :
    s ∈ sorted strings ↔ s ∈ strings :=
  List.mem_insertionSort _

theorem sorted_nodup {strings : List String} (h : strings.Nodup) : (sorted strings).Nodup :=
  (List.perm_insertionSort _ strings).nodup_iff.mpr h

/-- `sorted` puts different strings in ascending order. -/
theorem pairwise_lt_sorted {strings : List String} (h : strings.Nodup) :
    (sorted strings).Pairwise (· < ·) := by
  have hle : (sorted strings).Pairwise (· ≤ ·) := List.pairwise_insertionSort _ strings
  exact (hle.and (sorted_nodup h)).imp fun hpair => lt_of_le_of_ne hpair.1 hpair.2

end AgentOAuth
