import Mathlib.Data.Rat.Floor
import Mathlib.Tactic.Common

/-!
# Python values and dictionaries

Claims, headers and JWKs are Python dictionaries, most of them decoded from
JSON that a caller wrote, so every reader has to check the type of what it
reads.  `Value` is that universe; a JSON value is one without `datetime`,
which only the minter puts into a dictionary, before signing.  A `str` is there
by its spelling, which leaves room for lone surrogates (`PythonText`).

`Dict.get` is `dict.get`: a missing entry reads as `None`, exactly as an
explicit `null` does.
-/

namespace AgentOAuth

/-- What `json.loads` returns: the entries of an object stand in their order. -/
inductive Value
  | null
  | bool (b : Bool)
  | int (n : ℤ)
  | float (q : ℚ)
  | str (s : String)
  | list (items : List Value)
  | dict (entries : List (String × Value))
  | datetime (t : ℚ)

namespace Value

/-! ## Equality -/

mutual
/-- Structural equality test. -/
def beq : Value → Value → Bool
  | null, null => true
  | bool a, bool b => a == b
  | int a, int b => a == b
  | float a, float b => a == b
  | str a, str b => a == b
  | list a, list b => beqItems a b
  | dict a, dict b => beqEntries a b
  | datetime a, datetime b => a == b
  | _, _ => false

/-- The items of two lists, in order. -/
def beqItems : List Value → List Value → Bool
  | [], [] => true
  | a :: as, b :: bs => beq a b && beqItems as bs
  | _, _ => false

/-- The entries of two objects, in order. -/
def beqEntries : List (String × Value) → List (String × Value) → Bool
  | [], [] => true
  | (k, a) :: as, (l, b) :: bs => k == l && beq a b && beqEntries as bs
  | _, _ => false
end

mutual
theorem eq_of_beq : ∀ a b : Value, beq a b = true → a = b
  | null, b, h => by cases b <;> simp_all [beq]
  | bool a, b, h => by cases b <;> simp_all [beq]
  | int a, b, h => by cases b <;> simp_all [beq]
  | float a, b, h => by cases b <;> simp_all [beq]
  | str a, b, h => by cases b <;> simp_all [beq]
  | list a, list b, h => by rw [eq_of_beqItems a b (by simpa [beq] using h)]
  | dict a, dict b, h => by rw [eq_of_beqEntries a b (by simpa [beq] using h)]
  | datetime a, b, h => by cases b <;> simp_all [beq]

theorem eq_of_beqItems : ∀ a b : List Value, beqItems a b = true → a = b
  | [], b, h => by cases b <;> simp_all [beqItems]
  | a :: as, [], h => by simp [beqItems] at h
  | a :: as, b :: bs, h => by
      simp only [beqItems, Bool.and_eq_true] at h
      rw [eq_of_beq a b h.1, eq_of_beqItems as bs h.2]

theorem eq_of_beqEntries : ∀ a b : List (String × Value), beqEntries a b = true → a = b
  | [], b, h => by cases b <;> simp_all [beqEntries]
  | a :: as, [], h => by simp [beqEntries] at h
  | (k, a) :: as, (l, b) :: bs, h => by
      simp only [beqEntries, Bool.and_eq_true, beq_iff_eq] at h
      rw [h.1.1, eq_of_beq a b h.1.2, eq_of_beqEntries as bs h.2]
end

mutual
theorem beq_self : ∀ a : Value, beq a a = true
  | null | bool _ | int _ | float _ | str _ | datetime _ => by simp [beq]
  | list a => by simp [beq, beqItems_self a]
  | dict a => by simp [beq, beqEntries_self a]

theorem beqItems_self : ∀ a : List Value, beqItems a a = true
  | [] => by simp [beqItems]
  | a :: as => by simp [beqItems, beq_self a, beqItems_self as]

theorem beqEntries_self : ∀ a : List (String × Value), beqEntries a a = true
  | [] => by simp [beqEntries]
  | (k, a) :: as => by simp [beqEntries, beq_self a, beqEntries_self as]
end

instance : DecidableEq Value := fun a b =>
  decidable_of_iff (beq a b = true) ⟨eq_of_beq a b, fun h => h ▸ beq_self a⟩

/-- A list or a dictionary cannot be a member of a set. -/
def unhashable : Value → Bool
  | list _ => true
  | dict _ => true
  | _ => false

/-! ## Numbers -/

/-- The number a value is; `bool` is a subclass of `int`. -/
def number? : Value → Option ℚ
  | bool b => some (if b then 1 else 0)
  | int n => some n
  | float q => some q
  | _ => none

end Value

/-- `int(x)` of a number: the fraction is dropped. -/
def truncate (q : ℚ) : ℤ :=
  if 0 ≤ q then ⌊q⌋ else ⌈q⌉

theorem truncate_le {q : ℚ} (hq : 0 ≤ q) : (truncate q : ℚ) ≤ q := by
  rw [truncate, if_pos hq]
  exact Int.floor_le q

theorem truncate_intCast (n : ℤ) : truncate (n : ℚ) = n := by
  unfold truncate
  split
  · exact Int.floor_intCast n
  · exact Int.ceil_intCast n

theorem abs_sub_truncate_lt (q : ℚ) : |q - truncate q| < 1 := by
  unfold truncate
  rw [abs_lt]
  split
  · have hlow := Int.floor_le q
    have hhigh := Int.lt_floor_add_one q
    constructor <;> linarith
  · have hlow := Int.le_ceil q
    have hhigh := Int.ceil_lt_add_one q
    constructor <;> linarith

theorem truncate_pos_iff {q : ℚ} : 0 < truncate q ↔ 1 ≤ q := by
  unfold truncate
  split
  · rw [Int.lt_iff_add_one_le, Int.le_floor]
    norm_num
  · next hq =>
      have hceil : ⌈q⌉ ≤ 0 := Int.ceil_le.mpr (by simpa using le_of_not_ge hq)
      constructor
      · intro h
        omega
      · intro h
        exact absurd (le_trans zero_le_one h) hq

/-! ## Dictionaries -/

/-- A Python `dict` with string keys, in the order of insertion. -/
abbrev Dict := List (String × Value)

namespace Dict

/-- `d.get(name)`. -/
def get (d : Dict) (name : String) : Value :=
  (d.lookup name).getD .null

/-- `list(d)`. -/
def keys (d : Dict) : List String :=
  d.map Prod.fst

/-- `d[name] = value`: an existing entry keeps its place. -/
def set : Dict → String → Value → Dict
  | [], name, value => [(name, value)]
  | (k, v) :: rest, name, value =>
      if k = name then (name, value) :: rest else (k, v) :: set rest name value

/-- `if value is not None: d[name] = value`. -/
def setSome (d : Dict) (name : String) : Option Value → Dict
  | some value => d.set name value
  | none => d

/-- `d.update(other)`. -/
def update (d other : Dict) : Dict :=
  other.foldl (fun acc entry => set acc entry.1 entry.2) d

theorem lookup_cons (k name : String) (v : Value) (rest : Dict) :
    List.lookup name ((k, v) :: rest) = if name = k then some v else List.lookup name rest := by
  by_cases h : name = k
  · subst h
    simp
  · rw [List.lookup_cons, beq_false_of_ne h, if_neg h]

@[simp] theorem get_nil (name : String) : get [] name = .null := rfl

@[simp] theorem get_cons (k name : String) (v : Value) (rest : Dict) :
    get ((k, v) :: rest) name = if name = k then v else get rest name := by
  rw [get, lookup_cons]
  split <;> rfl

theorem lookup_set (d : Dict) (name other : String) (value : Value) :
    List.lookup other (set d name value) =
      if other = name then some value else List.lookup other d := by
  induction d with
  | nil =>
      rw [set, lookup_cons]
  | cons entry rest ih =>
      obtain ⟨k, v⟩ := entry
      by_cases hk : k = name
      · subst hk
        simp only [set, if_true, lookup_cons]
        split <;> rfl
      · by_cases h : other = k
        · subst h
          simp [set, hk]
        · simp [set, hk, lookup_cons, h, ih]

@[simp] theorem get_set (d : Dict) (name other : String) (value : Value) :
    get (set d name value) other = if other = name then value else get d other := by
  unfold get
  rw [lookup_set]
  split <;> rfl

theorem lookup_setSome (d : Dict) (name other : String) (value : Option Value) :
    List.lookup other (setSome d name value) =
      if other = name then value.or (List.lookup other d) else List.lookup other d := by
  cases value with
  | none => simp [setSome]
  | some value => rw [setSome, lookup_set, Option.some_or]

@[simp] theorem get_setSome (d : Dict) (name other : String) (value : Option Value) :
    get (setSome d name value) other =
      if other = name then value.getD (get d other) else get d other := by
  cases value with
  | none => simp [setSome]
  | some value => simp [setSome]

theorem mem_keys_set {d : Dict} {name other : String} {value : Value} :
    other ∈ keys (set d name value) ↔ other = name ∨ other ∈ keys d := by
  induction d with
  | nil => simp [set, keys]
  | cons entry rest ih =>
      obtain ⟨k, v⟩ := entry
      simp only [keys, List.map_cons, List.mem_cons] at ih ⊢
      by_cases hk : k = name
      · subst hk
        simp [set]
      · simp only [set, hk, if_false, List.map_cons, List.mem_cons, ih]
        tauto

theorem mem_keys_setSome {d : Dict} {name other : String} {value : Option Value}
    (h : other ∈ keys (setSome d name value)) : other = name ∨ other ∈ keys d := by
  cases value with
  | none => exact .inr h
  | some value => exact mem_keys_set.mp h

theorem nodup_keys_set {d : Dict} (h : (keys d).Nodup) (name : String) (value : Value) :
    (keys (set d name value)).Nodup := by
  induction d with
  | nil => simp [set, keys]
  | cons entry rest ih =>
      obtain ⟨k, v⟩ := entry
      obtain ⟨hnot, hrest⟩ := List.nodup_cons.mp (show (k :: keys rest).Nodup from h)
      by_cases hk : k = name
      · subst hk
        simpa [set, keys] using h
      · have hset : k ∉ keys (set rest name value) := by
          rw [mem_keys_set]
          rintro (rfl | hmem)
          · exact hk rfl
          · exact hnot hmem
        rw [set, if_neg hk]
        exact List.nodup_cons.mpr ⟨hset, ih hrest⟩

theorem nodup_keys_setSome {d : Dict} (h : (keys d).Nodup) (name : String) (value : Option Value) :
    (keys (setSome d name value)).Nodup := by
  cases value with
  | none => exact h
  | some value => exact nodup_keys_set h name value

theorem nodup_keys_update {d : Dict} (h : (keys d).Nodup) (other : Dict) :
    (keys (update d other)).Nodup := by
  induction other generalizing d with
  | nil => exact h
  | cons entry rest ih => exact ih (nodup_keys_set h entry.1 entry.2)

theorem mem_keys_update {d other : Dict} {name : String} :
    name ∈ keys (update d other) ↔ name ∈ keys d ∨ name ∈ keys other := by
  induction other generalizing d with
  | nil => simp [update, keys]
  | cons entry rest ih =>
      rw [update, List.foldl_cons]
      refine (ih (d := set d entry.1 entry.2)).trans ?_
      rw [mem_keys_set, show keys (entry :: rest) = entry.1 :: keys rest from rfl, List.mem_cons]
      tauto

/-- Updating does not touch the entries the other dictionary does not have. -/
theorem lookup_update_of_notMem {d other : Dict} {name : String} (h : name ∉ keys other) :
    List.lookup name (update d other) = List.lookup name d := by
  induction other generalizing d with
  | nil => rfl
  | cons entry rest ih =>
      simp only [keys, List.map_cons, List.mem_cons, not_or] at h
      rw [update, List.foldl_cons]
      exact (ih h.2).trans (by rw [lookup_set, if_neg h.1])

theorem set_of_notMem {d : Dict} {name : String} (h : name ∉ keys d) (value : Value) :
    set d name value = d ++ [(name, value)] := by
  induction d with
  | nil => rfl
  | cons entry rest ih =>
      obtain ⟨k, v⟩ := entry
      have hmem : name ∉ k :: keys rest := h
      rw [List.mem_cons, not_or] at hmem
      rw [set, if_neg fun hk => hmem.1 hk.symm, ih hmem.2, List.cons_append]

/-- Entries under new names go to the end. -/
theorem update_of_disjoint {d other : Dict} (hnodup : (keys other).Nodup)
    (hnew : ∀ name ∈ keys other, name ∉ keys d) : update d other = d ++ other := by
  induction other generalizing d with
  | nil => exact (List.append_nil d).symm
  | cons entry rest ih =>
      obtain ⟨k, v⟩ := entry
      obtain ⟨hnot, hrest⟩ := List.nodup_cons.mp (show (k :: keys rest).Nodup from hnodup)
      have hset : set d k v = d ++ [(k, v)] := set_of_notMem (hnew k List.mem_cons_self) v
      rw [update, List.foldl_cons, hset]
      refine (ih hrest fun name hname hmem => ?_).trans (List.append_assoc d [(k, v)] rest)
      rw [← hset, mem_keys_set] at hmem
      rcases hmem with rfl | hmem
      · exact hnot hname
      · exact hnew name (List.mem_cons_of_mem _ hname) hmem

/-- The other dictionary's entries win. -/
theorem lookup_update {d other : Dict} (h : (keys other).Nodup) (name : String) :
    List.lookup name (update d other) =
      (List.lookup name other).or (List.lookup name d) := by
  induction other generalizing d with
  | nil => rfl
  | cons entry rest ih =>
      obtain ⟨k, v⟩ := entry
      obtain ⟨hnot, hrest⟩ := List.nodup_cons.mp (show (k :: keys rest).Nodup from h)
      rw [update, List.foldl_cons]
      by_cases hname : name = k
      · subst hname
        exact (lookup_update_of_notMem hnot).trans (by simp [lookup_set])
      · exact (ih hrest).trans (by
          rw [lookup_set, if_neg hname, lookup_cons, if_neg hname])

@[simp] theorem lookup_isSome_iff_mem_keys {d : Dict} {name : String} :
    (List.lookup name d).isSome ↔ name ∈ keys d := by
  induction d with
  | nil => simp [keys]
  | cons entry rest ih =>
      obtain ⟨k, v⟩ := entry
      by_cases h : name = k
      · subst h
        simp [keys]
      · rw [lookup_cons, if_neg h, ih]
        simp [keys, h]

end Dict

end AgentOAuth
