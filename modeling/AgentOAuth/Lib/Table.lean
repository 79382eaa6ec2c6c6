import Mathlib.Data.List.Nodup
import Mathlib.Tactic.Common

/-!
# Tables with a primary key

A `Table key` is a list of rows no two of which share their key.
`insert` is `INSERT`, which fails on a conflict; deciding what a conflict means
is left to the caller.
-/

variable {ρ κ : Type*}

/-- Rows with pairwise different keys. -/
structure Table (key : ρ → κ) where
  rows : List ρ
  nodup : (rows.map key).Nodup

namespace Table

variable {key : ρ → κ}

instance : Membership ρ (Table key) := ⟨fun t r => r ∈ t.rows⟩

theorem mem_iff {t : Table key} {r : ρ} : r ∈ t ↔ r ∈ t.rows := Iff.rfl

theorem eq_of_rows_eq {t u : Table key} (h : t.rows = u.rows) : t = u := by
  cases t
  cases u
  simp_all

/-- The table without rows. -/
def empty : Table key := ⟨[], List.nodup_nil⟩

/-- The key decides the row. -/
theorem eq_of_key_eq {t : Table key} {r r' : ρ} (hr : r ∈ t) (hr' : r' ∈ t)
    (h : key r = key r') : r = r' :=
  List.inj_on_of_nodup_map t.nodup hr hr' h

/-- `DELETE … WHERE`. -/
def deleteWhere (t : Table key) (condition : ρ → Bool) : Table key :=
  ⟨t.rows.filter fun r => !condition r, t.nodup.sublist (List.filter_sublist.map key)⟩

theorem mem_deleteWhere {t : Table key} {condition : ρ → Bool} {r : ρ} :
    r ∈ t.deleteWhere condition ↔ r ∈ t ∧ condition r = false := by
  simp [deleteWhere, mem_iff]

variable [DecidableEq κ]

/-- The row with the key. -/
def find (t : Table key) (k : κ) : Option ρ :=
  t.rows.find? fun r => key r = k

theorem find_eq_some {t : Table key} {k : κ} {r : ρ} : t.find k = some r ↔ r ∈ t ∧ key r = k := by
  constructor
  · intro h
    exact ⟨List.mem_of_find?_eq_some h, by simpa using List.find?_some h⟩
  · rintro ⟨hr, rfl⟩
    cases hfind : t.find (key r) with
    | none =>
        have hne := List.find?_eq_none.mp hfind r hr
        simp at hne
    | some r' =>
        have hkey : key r' = key r := by simpa using List.find?_some hfind
        rw [eq_of_key_eq (List.mem_of_find?_eq_some hfind) hr hkey]

theorem find_eq_none {t : Table key} {k : κ} : t.find k = none ↔ ∀ r ∈ t, key r ≠ k := by
  simp [find, List.find?_eq_none, mem_iff]

theorem mem_keys_iff {t : Table key} {k : κ} : k ∈ t.rows.map key ↔ t.find k ≠ none := by
  simp [find_eq_none, mem_iff]

/-- The order of the rows does not matter to a lookup. -/
theorem find_congr {t u : Table key} (h : t.rows.Perm u.rows) (k : κ) : t.find k = u.find k := by
  cases hfind : u.find k with
  | none =>
      rw [find_eq_none] at hfind ⊢
      exact fun r hr => hfind r (h.mem_iff.mp hr)
  | some r =>
      rw [find_eq_some] at hfind ⊢
      exact ⟨h.mem_iff.mpr hfind.1, hfind.2⟩

/-- `INSERT`: `none` when a row with the key is there already. -/
def insert (t : Table key) (r : ρ) : Option (Table key) :=
  if h : key r ∈ t.rows.map key then none
  else some ⟨r :: t.rows, List.nodup_cons.mpr ⟨h, t.nodup⟩⟩

theorem insert_eq_some {t u : Table key} {r : ρ} :
    t.insert r = some u ↔ t.find (key r) = none ∧ u.rows = r :: t.rows := by
  unfold insert
  split
  · next h => simp [mem_keys_iff.mp h]
  · next h =>
      simp only [Option.some.injEq]
      constructor
      · rintro rfl
        exact ⟨not_not.mp (mem_keys_iff.not.mp h), rfl⟩
      · rintro ⟨_, hrows⟩
        exact eq_of_rows_eq hrows.symm

theorem insert_eq_none {t : Table key} {r : ρ} : t.insert r = none ↔ t.find (key r) ≠ none := by
  unfold insert
  split
  · next h => simp [mem_keys_iff.mp h]
  · next h => simp [not_not.mp (mem_keys_iff.not.mp h)]

theorem mem_insert {t u : Table key} {r r' : ρ} (h : t.insert r = some u) :
    r' ∈ u ↔ r' = r ∨ r' ∈ t := by
  rw [mem_iff, (insert_eq_some.mp h).2, List.mem_cons, mem_iff]

theorem find_insert_self {t u : Table key} {r : ρ} (h : t.insert r = some u) :
    u.find (key r) = some r :=
  find_eq_some.mpr ⟨(mem_insert h).mpr (.inl rfl), rfl⟩

theorem find_insert_of_ne {t u : Table key} {r : ρ} (h : t.insert r = some u) {k : κ}
    (hk : key r ≠ k) : u.find k = t.find k := by
  rw [find, find, (insert_eq_some.mp h).2, List.find?_cons_of_neg (by simpa using hk)]

/-- A row that is not deleted is still found. -/
theorem find_deleteWhere_of_mem {t : Table key} {condition : ρ → Bool} {r : ρ} (hr : r ∈ t)
    (hkeep : condition r = false) : (t.deleteWhere condition).find (key r) = some r :=
  find_eq_some.mpr ⟨mem_deleteWhere.mpr ⟨hr, hkeep⟩, rfl⟩

/-- A key whose row is deleted, or had none, is free. -/
theorem find_deleteWhere_eq_none {t : Table key} {condition : ρ → Bool} {k : κ}
    (h : ∀ r, t.find k = some r → condition r = true) : (t.deleteWhere condition).find k = none := by
  refine find_eq_none.mpr fun r hr hk => ?_
  obtain ⟨hmem, hkept⟩ := mem_deleteWhere.mp hr
  simp [h r (find_eq_some.mpr ⟨hmem, hk⟩)] at hkept

theorem find_deleteWhere (t : Table key) (condition : ρ → Bool) (k : κ) :
    (t.deleteWhere condition).find k = (t.find k).filter fun row => !condition row := by
  cases hfind : t.find k with
  | none => exact find_deleteWhere_eq_none fun row hrow => by simp [hfind] at hrow
  | some row =>
      cases hcondition : condition row with
      | true =>
          rw [Option.filter_some, hcondition]
          exact find_deleteWhere_eq_none fun other hother => by
            rw [hfind] at hother
            exact Option.some.inj hother ▸ hcondition
      | false =>
          obtain ⟨hmem, rfl⟩ := find_eq_some.mp hfind
          rw [Option.filter_some, hcondition]
          exact find_deleteWhere_of_mem hmem hcondition

/-- `DELETE … WHERE key = k'`. -/
theorem find_deleteWhere_key (t : Table key) (k k' : κ) :
    (t.deleteWhere fun row => key row = k').find k = if k' = k then none else t.find k := by
  split
  · next hk =>
      subst hk
      refine find_deleteWhere_eq_none fun row hrow => ?_
      simpa using (find_eq_some.mp hrow).2
  · next hk =>
      cases hfind : t.find k with
      | none =>
          refine find_eq_none.mpr fun row hrow => ?_
          exact find_eq_none.mp hfind row (mem_deleteWhere.mp hrow).1
      | some row =>
          obtain ⟨hmem, rfl⟩ := find_eq_some.mp hfind
          exact find_deleteWhere_of_mem hmem (by simpa using Ne.symm hk)

/-- `INSERT … ON CONFLICT DO UPDATE` of every column. -/
def upsert (t : Table key) (r : ρ) : Table key :=
  ⟨r :: (t.deleteWhere fun row => key row = key r).rows, by
    refine List.nodup_cons.mpr ⟨?_, (t.deleteWhere _).nodup⟩
    intro hmem
    obtain ⟨row, hrow, hkey⟩ := List.mem_map.mp hmem
    have hkept := (mem_deleteWhere.mp hrow).2
    simp [hkey] at hkept⟩

theorem mem_upsert {t : Table key} {r r' : ρ} :
    r' ∈ t.upsert r ↔ r' = r ∨ r' ∈ t ∧ key r' ≠ key r := by
  rw [mem_iff, upsert, List.mem_cons, ← mem_iff, mem_deleteWhere, decide_eq_false_iff_not]

theorem find_upsert (t : Table key) (r : ρ) (k : κ) :
    (t.upsert r).find k = if k = key r then some r else t.find k := by
  split
  · next hk =>
      subst hk
      exact find_eq_some.mpr ⟨mem_upsert.mpr (.inl rfl), rfl⟩
  · next hk =>
      cases hfind : t.find k with
      | none =>
          refine find_eq_none.mpr fun row hrow => ?_
          rcases mem_upsert.mp hrow with rfl | ⟨hold, _⟩
          · exact Ne.symm hk
          · exact find_eq_none.mp hfind row hold
      | some row =>
          obtain ⟨hmem, rfl⟩ := find_eq_some.mp hfind
          exact find_eq_some.mpr ⟨mem_upsert.mpr (.inr ⟨hmem, hk⟩), rfl⟩

end Table
