import Mathlib.Order.Basic
import Mathlib.Tactic.Common

/-!
# Values issued from one another

A `Derivation` records how a value came to be: out of nothing, or from a
parent in the presence of a second value.  The parent line is the lineage:
`hops` counts it, `source` is where it starts, `vias` lists the second values
along it, newest first.  `origin` is where the line of second values starts.

`Holds atRoot atHop` says that every node of the tree was issued according to
a local rule.  What the local rule never lets grow never grows along a
lineage, however long (`Holds.ancestor_le`).
-/

namespace Provenance

/-- How a value came to be. -/
inductive Derivation (α : Type*)
  | root (value : α)
  | derived (value : α) (parent via : Derivation α)
  deriving DecidableEq

namespace Derivation

variable {α β : Type*}

/-- What was derived last. -/
def value : Derivation α → α
  | root a => a
  | derived a _ _ => a

/-- The number of derivations along the parent line. -/
def hops : Derivation α → ℕ
  | root _ => 0
  | derived _ parent _ => parent.hops + 1

/-- The value the parent line starts from. -/
def source : Derivation α → α
  | root a => a
  | derived _ parent _ => parent.source

/-- The value the line of second values starts from. -/
def origin : Derivation α → α
  | root a => a
  | derived _ _ via => via.origin

/-- The second values along the parent line, newest first. -/
def vias : Derivation α → List α
  | root _ => []
  | derived _ parent via => via.value :: parent.vias

@[simp] theorem value_root (a : α) : (root a).value = a := rfl

@[simp] theorem value_derived (a : α) (p v : Derivation α) : (derived a p v).value = a := rfl

@[simp] theorem vias_length (d : Derivation α) : d.vias.length = d.hops := by
  induction d with
  | root a => rfl
  | derived a p v ihp _ => simp [vias, hops, ihp]

/-- `Ancestor a d`: `a` is `d` itself or lies on its parent line. -/
inductive Ancestor : Derivation α → Derivation α → Prop
  | refl (d : Derivation α) : Ancestor d d
  | parent {a p : Derivation α} (b : α) (v : Derivation α) :
      Ancestor a p → Ancestor a (derived b p v)

/-- The parent line starts at its source. -/
theorem ancestor_source (d : Derivation α) : Ancestor (root d.source) d := by
  induction d with
  | root a => exact .refl _
  | derived a p v ihp _ => exact .parent a v ihp

/-- `Within e d`: `e` is `d` itself or a part of it. -/
inductive Within : Derivation α → Derivation α → Prop
  | refl (d : Derivation α) : Within d d
  | parent {e p : Derivation α} (a : α) (v : Derivation α) : Within e p → Within e (derived a p v)
  | via {e v : Derivation α} (a : α) (p : Derivation α) : Within e v → Within e (derived a p v)

theorem Ancestor.within {a d : Derivation α} (h : Ancestor a d) : Within a d := by
  induction h with
  | refl => exact .refl _
  | parent b v _ ih => exact .parent b v ih

theorem within_origin (d : Derivation α) : Within (root d.origin) d := by
  induction d with
  | root a => exact .refl _
  | derived a p v _ ihv => exact .via a p ihv

/-- A second value along the parent line is that of a part. -/
theorem exists_via {d : Derivation α} {a : α} (h : a ∈ d.vias) : ∃ v, Within v d ∧ v.value = a := by
  induction d with
  | root b => cases h
  | derived b p v ihp _ =>
      rcases List.mem_cons.mp h with rfl | h
      · exact ⟨v, .via b p (.refl v), rfl⟩
      · obtain ⟨u, hu, rfl⟩ := ihp h
        exact ⟨u, .parent b v hu, rfl⟩

/-- Every node was issued by the local rule for its kind. -/
inductive Holds (atRoot : α → Prop) (atHop : Derivation α → Derivation α → α → Prop) :
    Derivation α → Prop
  | root {a : α} : atRoot a → Holds atRoot atHop (root a)
  | derived {a : α} {p v : Derivation α} : Holds atRoot atHop p → Holds atRoot atHop v →
      atHop p v a → Holds atRoot atHop (derived a p v)

variable {atRoot : α → Prop} {atHop : Derivation α → Derivation α → α → Prop}

theorem Holds.mono {atRoot' : α → Prop} {atHop' : Derivation α → Derivation α → α → Prop}
    (hroot : ∀ a, atRoot a → atRoot' a) (hhop : ∀ p v a, atHop p v a → atHop' p v a)
    {d : Derivation α} (h : Holds atRoot atHop d) : Holds atRoot' atHop' d := by
  induction h with
  | root ha => exact .root (hroot _ ha)
  | derived _ _ ha ihp ihv => exact .derived ihp ihv (hhop _ _ _ ha)

theorem Ancestor.holds {a d : Derivation α} (hanc : Ancestor a d) (h : Holds atRoot atHop d) :
    Holds atRoot atHop a := by
  induction hanc with
  | refl => exact h
  | parent b v _ ih =>
      cases h with
      | derived hp _ _ => exact ih hp

theorem Within.holds {e d : Derivation α} (hwithin : Within e d) (h : Holds atRoot atHop d) :
    Holds atRoot atHop e := by
  induction hwithin with
  | refl => exact h
  | parent a v _ ih =>
      cases h with
      | derived hp _ _ => exact ih hp
  | via a p _ ih =>
      cases h with
      | derived _ hv _ => exact ih hv

theorem Holds.of_root {a : α} (h : Holds atRoot atHop (Derivation.root a)) : atRoot a := by
  cases h with
  | root ha => exact ha

/-- What every hop takes over from its second value is that of the origin. -/
theorem Holds.origin_eq (measure : α → β) (hhop : ∀ p v a, atHop p v a → measure a = measure v.value)
    {d : Derivation α} (h : Holds atRoot atHop d) : measure d.value = measure d.origin := by
  induction h with
  | root _ => rfl
  | derived _ _ ha _ ihv => exact (hhop _ _ _ ha).trans ihv

/-- **The ratchet.**  What no hop lets grow is bounded by every ancestor. -/
theorem Holds.ancestor_le [Preorder β] (measure : α → β)
    (hhop : ∀ p v a, atHop p v a → measure a ≤ measure p.value) {a d : Derivation α}
    (hanc : Ancestor a d) (h : Holds atRoot atHop d) : measure d.value ≤ measure a.value := by
  induction hanc with
  | refl => exact le_rfl
  | parent b v _ ih =>
      cases h with
      | derived hp _ hb => exact (hhop _ _ _ hb).trans (ih hp)

end Derivation

end Provenance
