import Mathlib.Data.List.Basic
import Mathlib.Data.String.Basic
import Mathlib.Tactic.Common

/-!
# The code points of a `str`

A Python `str` is a sequence of code points, and `json.loads` makes a lone
surrogate of an escape like `\ud800`.  A Lean `String` has Unicode scalar values
only.  So a `String` of the model is the spelling of a `str`: a code point is
written as itself, except that a surrogate is `escape` followed by a character
with its number, and `escape`, the last of the code points, is written twice.
Different texts have different spellings (`spell_injective`), and a text with
neither surrogates nor `escape` is its own (`spell_points`).

Of a text that JSON brings in, the server asks whether it is empty, whether it
equals another, and whether PostgreSQL takes it (`Storable`).
-/

namespace AgentOAuth

/-- A character of a Python `str`: any code point, a surrogate too. -/
@[ext] structure CodePoint where
  val : ℕ
  lt : val < 0x110000
  deriving DecidableEq

/-- The code points no UTF-8 text has. -/
def CodePoint.IsSurrogate (c : CodePoint) : Prop := 0xD800 ≤ c.val ∧ c.val < 0xE000

instance (c : CodePoint) : Decidable c.IsSurrogate :=
  inferInstanceAs (Decidable (_ ∧ _))

/-- `"\x00"`, which PostgreSQL stores in no text. -/
def CodePoint.IsNul (c : CodePoint) : Prop := c.val = 0

instance (c : CodePoint) : Decidable c.IsNul :=
  inferInstanceAs (Decidable (_ = _))

/-- `ord(c)`. -/
def ord (c : Char) : CodePoint :=
  ⟨c.toNat, by rcases c.valid with h | h <;> simp only [Char.toNat] <;> omega⟩

/-- `chr(c)`, for what is no surrogate. -/
def chr (c : CodePoint) : Char := Char.ofNat c.val

/-- The character that announces an escaped one. -/
def escape : Char := Char.ofNat 0x10FFFF

/-- The characters that number the surrogates start here. -/
def firstNumber : ℕ := 0x100

/-- A code point as it is spelled. -/
def spellPoint (c : CodePoint) : List Char :=
  if c.IsSurrogate then [escape, Char.ofNat (firstNumber + (c.val - 0xD800))]
  else if chr c = escape then [escape, escape]
  else [chr c]

/-- The spelling of a Python text. -/
def spell (text : List CodePoint) : String :=
  String.ofList (text.flatMap spellPoint)

/-- What comes after `escape`. -/
def escaped (c : Char) : CodePoint :=
  if c = escape then ord escape
  else ⟨0xD800 + (c.toNat - firstNumber) % 0x800, by omega⟩

/-- The text that characters spell. -/
def readPoints : List Char → List CodePoint
  | [] => []
  | [c] => [ord c]
  | c :: next :: rest =>
      if c = escape then escaped next :: readPoints rest
      else ord c :: readPoints (next :: rest)

/-- The code points of the `str` that is spelled. -/
def codePoints (s : String) : List CodePoint := readPoints s.toList

/-! ## Reading undoes spelling -/

theorem readPoints_cons_of_ne {c : Char} (h : c ≠ escape) (rest : List Char) :
    readPoints (c :: rest) = ord c :: readPoints rest := by
  cases rest with
  | nil => rfl
  | cons next rest => rw [readPoints, if_neg h]

theorem readPoints_escape (next : Char) (rest : List Char) :
    readPoints (escape :: next :: rest) = escaped next :: readPoints rest := by
  rw [readPoints, if_pos rfl]

theorem toNat_ofNat {n : ℕ} (h : n < 0xD800 ∨ 0xE000 ≤ n ∧ n < 0x110000) :
    (Char.ofNat n).toNat = n := by
  have hvalid : n.isValidChar := by
    unfold Nat.isValidChar
    omega
  rw [Char.ofNat, dif_pos hvalid]
  rfl

theorem ord_chr {c : CodePoint} (h : ¬ c.IsSurrogate) : ord (chr c) = c := by
  apply CodePoint.ext
  have hbound := c.lt
  unfold CodePoint.IsSurrogate at h
  exact toNat_ofNat (by omega)

theorem chr_ord (c : Char) : chr (ord c) = c := Char.ofNat_toNat c

theorem not_isSurrogate_ord (c : Char) : ¬ (ord c).IsSurrogate := by
  have hvalid := c.valid
  simp only [CodePoint.IsSurrogate, ord, Char.toNat]
  rcases hvalid with h | h <;> omega

/-- The number of a surrogate is read back. -/
theorem escaped_number {c : CodePoint} (h : c.IsSurrogate) :
    escaped (Char.ofNat (firstNumber + (c.val - 0xD800))) = c := by
  obtain ⟨hlow, hhigh⟩ := h
  have hnumber : (Char.ofNat (firstNumber + (c.val - 0xD800))).toNat =
      firstNumber + (c.val - 0xD800) :=
    toNat_ofNat (.inl (by unfold firstNumber; omega))
  have hne : Char.ofNat (firstNumber + (c.val - 0xD800)) ≠ escape := by
    intro heq
    have hlast : escape.toNat = 0x10FFFF := toNat_ofNat (.inr (by omega))
    rw [heq, hlast] at hnumber
    unfold firstNumber at hnumber
    omega
  rw [escaped, if_neg hne]
  apply CodePoint.ext
  change 0xD800 + (_ - firstNumber) % 0x800 = c.val
  rw [hnumber, Nat.add_sub_cancel_left]
  omega

theorem readPoints_spellPoint (c : CodePoint) (rest : List Char) :
    readPoints (spellPoint c ++ rest) = c :: readPoints rest := by
  unfold spellPoint
  split
  · next hsurrogate =>
      rw [List.cons_append, List.cons_append, List.nil_append, readPoints_escape,
        escaped_number hsurrogate]
  · next hscalar =>
      split
      · next hescape =>
          rw [List.cons_append, List.cons_append, List.nil_append, readPoints_escape, escaped,
            if_pos rfl, ← hescape, ord_chr hscalar]
      · next hother =>
          rw [List.cons_append, List.nil_append, readPoints_cons_of_ne hother, ord_chr hscalar]

theorem codePoints_spell (text : List CodePoint) : codePoints (spell text) = text := by
  rw [codePoints, spell, String.toList_ofList]
  induction text with
  | nil => rfl
  | cons c rest ih => rw [List.flatMap_cons, readPoints_spellPoint, ih]

theorem spell_injective : Function.Injective spell := by
  intro a b h
  rw [← codePoints_spell a, h, codePoints_spell]

/-- An ordinary text is its own spelling. -/
theorem spell_points {s : String} (h : escape ∉ s.toList) : spell (s.toList.map ord) = s := by
  have hpoint : ∀ c ∈ s.toList, spellPoint (ord c) = [c] := by
    intro c hc
    have hne : c ≠ escape := fun heq => h (heq ▸ hc)
    rw [spellPoint, if_neg (not_isSurrogate_ord c), chr_ord, if_neg hne]
  have hflat : ∀ l : List Char, (∀ c ∈ l, spellPoint (ord c) = [c]) →
      (l.map ord).flatMap spellPoint = l := by
    intro l hl
    induction l with
    | nil => rfl
    | cons c rest ih =>
        rw [List.map_cons, List.flatMap_cons, hl c List.mem_cons_self,
          ih fun d hd => hl d (List.mem_cons_of_mem _ hd)]
        rfl
  rw [spell, hflat _ hpoint, String.ofList_toList]

end AgentOAuth
