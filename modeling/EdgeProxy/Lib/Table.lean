import Mathlib.Algebra.Order.BigOperators.Group.List
import Mathlib.Data.List.AList
import Mathlib.Tactic.Ring

/-! # Tables keyed by natural numbers

A `BTreeMap<usize, T>` as an association list with distinct keys. `Table.total` adds up a measure
of the values; inserting, replacing and erasing an entry change it by that entry's measure.
-/

namespace Rust

universe u

abbrev Table (α : Type u) := AList fun _ : ℕ => α

namespace Table

variable {α : Type u} {f : α → ℕ} {t : Table α} {k : ℕ} {v w : α}

def total (f : α → ℕ) (t : Table α) : ℕ := (t.entries.map fun e => f e.2).sum

@[simp] theorem total_empty : total f (∅ : Table α) = 0 := rfl

theorem total_insert : total f (t.insert k v) = f v + total f (t.erase k) := by
  rw [total, AList.entries_insert, List.map_cons, List.sum_cons]
  rfl

theorem total_erase (h : t.lookup k = some v) : total f t = f v + total f (t.erase k) := by
  have hk : k ∈ t.entries.keys := AList.lookup_isSome.mp (by rw [h]; rfl)
  obtain ⟨w, l₁, l₂, hl₁, hentries, herase⟩ := List.exists_of_kerase hk
  have hw : w = v := by
    have hmem : (⟨k, w⟩ : Sigma fun _ : ℕ => α) ∈ t.entries := by
      rw [hentries]
      simp
    exact Option.some.inj ((AList.mem_lookup_iff.mpr hmem).symm.trans h)
  subst hw
  have ht : total f t = ((l₁ ++ ⟨k, w⟩ :: l₂).map fun e => f e.2).sum := by
    rw [total, hentries]
  have he : total f (t.erase k) = ((l₁ ++ l₂).map fun e => f e.2).sum := by
    change ((List.kerase k t.entries).map fun e => f e.2).sum = _
    rw [herase]
  rw [ht, he]
  simp only [List.map_append, List.map_cons, List.sum_append, List.sum_cons]
  omega

theorem total_erase_of_lookup_none (h : t.lookup k = none) : total f (t.erase k) = total f t := by
  have hk : k ∉ t.entries.keys := AList.lookup_eq_none.mp h
  change ((List.kerase k t.entries).map fun e => f e.2).sum = _
  rw [List.kerase_of_notMem_keys hk, total]

theorem total_insert_of_lookup (h : t.lookup k = some w) :
    total f (t.insert k v) + f w = total f t + f v := by
  rw [total_insert, total_erase h]
  omega

theorem total_insert_of_lookup_none (h : t.lookup k = none) :
    total f (t.insert k v) = f v + total f t := by
  rw [total_insert, total_erase_of_lookup_none h]

theorem le_total (h : t.lookup k = some v) : f v ≤ total f t := by
  rw [total_erase h]
  omega

theorem total_of_forall_notMem (h : ∀ k, k ∉ t) : total f t = 0 := by
  have hentries : t.entries = [] := List.eq_nil_iff_forall_not_mem.mpr fun e he =>
    h e.1 (List.mem_keys_of_mem he)
  rw [total, hentries]
  rfl

end Table

end Rust
