import Mathlib.Data.List.AList
import Mathlib.Data.List.Dedup

/-! # Dictionaries

A `BTreeMap<K, V>` as an association list with distinct keys, with the operations that a whole map
goes through at once: collecting pairs, changing the values and keeping some of the entries.
-/

namespace Rust

universe u v w

abbrev Dictionary (α : Type u) (β : Type v) := AList fun _ : α => β

namespace Dictionary

variable {α : Type u} {β : Type v} {γ : Type w} [DecidableEq α]

/-- `iter().collect()`: a later pair replaces an earlier one with the same key. -/
def ofPairs (pairs : List (α × β)) : Dictionary α β :=
  pairs.foldl (fun d pair => d.insert pair.1 pair.2) ∅

omit [DecidableEq α] in
theorem nodupKeys_mapValues (f : α → β → γ) (d : Dictionary α β) :
    (d.entries.map (Sigma.map id f) : List (Sigma fun _ : α => γ)).NodupKeys := by
  have hkeys : (d.entries.map (Sigma.map id f) : List (Sigma fun _ : α => γ)).keys = d.keys := by
    simp [List.keys, AList.keys, Sigma.map]
  rw [List.NodupKeys, hkeys]
  exact d.nodupKeys

def mapValues (f : α → β → γ) (d : Dictionary α β) : Dictionary α γ :=
  ⟨d.entries.map (.map id f), nodupKeys_mapValues f d⟩

def retain (p : α → β → Bool) (d : Dictionary α β) : Dictionary α β :=
  ⟨d.entries.filter fun e => p e.1 e.2, d.nodupKeys.sublist List.filter_sublist⟩

omit [DecidableEq α] in
@[simp] theorem keys_mapValues (f : α → β → γ) (d : Dictionary α β) :
    (d.mapValues f).keys = d.keys := by
  simp [mapValues, AList.keys, List.keys, Sigma.map]

theorem lookup_retain {p : α → β → Bool} {d : Dictionary α β} {k : α} {v : β} :
    (d.retain p).lookup k = some v ↔ d.lookup k = some v ∧ p k v = true := by
  rw [← Option.mem_def, AList.mem_lookup_iff, ← Option.mem_def, AList.mem_lookup_iff]
  exact List.mem_filter

theorem mem_ofPairs {pairs : List (α × β)} {k : α} :
    k ∈ ofPairs pairs ↔ k ∈ pairs.map Prod.fst := by
  suffices h : ∀ d : Dictionary α β, k ∈ pairs.foldl (fun d pair => d.insert pair.1 pair.2) d ↔
      k ∈ d ∨ k ∈ pairs.map Prod.fst by
    simpa [ofPairs] using h ∅
  induction pairs with
  | nil => simp
  | cons _ _ ih =>
    intro d
    rw [List.foldl_cons, ih, AList.mem_insert, List.map_cons, List.mem_cons]
    tauto

theorem length_keys_ofPairs (pairs : List (α × β)) :
    (ofPairs pairs).keys.length = (pairs.map Prod.fst).dedup.length := by
  refine List.Perm.length_eq ((List.perm_ext_iff_of_nodup (AList.keys_nodup _)
    (List.nodup_dedup _)).mpr fun k => ?_)
  rw [List.mem_dedup, ← mem_ofPairs, AList.mem_keys]

theorem length_keys_ofPairs_eq {pairs : List (α × β)} :
    (ofPairs pairs).keys.length = pairs.length ↔ (pairs.map Prod.fst).Nodup := by
  rw [length_keys_ofPairs, ← List.length_map Prod.fst]
  constructor
  · intro h
    rw [← (List.dedup_sublist _).eq_of_length h]
    exact List.nodup_dedup _
  · intro h
    rw [h.dedup]

end Dictionary

end Rust
