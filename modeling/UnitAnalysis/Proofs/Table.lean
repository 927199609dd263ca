import Mathlib.Data.List.Nodup
import Mathlib.Data.List.Perm.Basic
import UnitAnalysis.Table

/-!
# Entries of tables

Nothing but insertions makes a table, so each key has one entry and a look-up finds that entry
whatever the order of the entries is. Two tables with the same look-ups are the same up to the order
in which their keys were inserted.
-/

set_option autoImplicit false

namespace UnitAnalysis

namespace Table

variable {κ α : Type} [DecidableEq κ]

variable {entries : List (κ × α)}

/-- A new key comes last. -/
theorem put_of_find_eq_none {k : κ} (v : α) (h : find k entries = none) :
    put k v entries = entries ++ [(k, v)] := by
  induction entries with
  | nil => rfl
  | cons first rest ih =>
    obtain ⟨k', v'⟩ := first
    have hne : k' ≠ k := by
      rintro rfl
      simp [find] at h
    have hrest : find k rest = none := by simpa [find, hne] using h
    simp [put, hne, ih hrest]

/-- An entry is old or the new one. -/
theorem mem_of_mem_put {k : κ} {v : α} {e : κ × α}
    (h : e ∈ put k v entries) : e ∈ entries ∨ e = (k, v) := by
  induction entries with
  | nil => exact .inr (List.mem_singleton.1 h)
  | cons first rest ih =>
    simp only [put] at h
    split at h
    · rcases List.mem_cons.1 h with rfl | hrest
      · exact .inr rfl
      · exact .inl (List.mem_cons_of_mem _ hrest)
    · rcases List.mem_cons.1 h with rfl | hrest
      · exact .inl List.mem_cons_self
      · exact (ih hrest).imp_left (List.mem_cons_of_mem _)

/-- Keys stay distinct. -/
theorem nodup_keys_put {k : κ} {v : α}
    (h : (entries.map Prod.fst).Nodup) : ((put k v entries).map Prod.fst).Nodup := by
  induction entries with
  | nil => simp [put]
  | cons first rest ih =>
    rw [List.map_cons, List.nodup_cons] at h
    simp only [put]
    split
    · next heq => rwa [← heq, List.map_cons, List.nodup_cons]
    · next hne =>
        rw [List.map_cons, List.nodup_cons]
        refine ⟨fun hmem => ?_, ih h.2⟩
        obtain ⟨e, he, hkey⟩ := List.mem_map.1 hmem
        rcases mem_of_mem_put he with hrest | rfl
        · exact h.1 (List.mem_map.2 ⟨e, hrest, hkey⟩)
        · exact hne hkey.symm

/-- Where each key has one entry, a look-up finds just the entries. -/
theorem find_eq_some_iff {k : κ} {v : α}
    (h : (entries.map Prod.fst).Nodup) : find k entries = some v ↔ (k, v) ∈ entries := by
  induction entries with
  | nil => simp [find]
  | cons first rest ih =>
    obtain ⟨k', v'⟩ := first
    rw [List.map_cons, List.nodup_cons] at h
    simp only [find, List.mem_cons, Prod.mk.injEq]
    split
    · next heq =>
        subst heq
        have hrest : (k', v) ∉ rest := fun hmem => h.1 (List.mem_map.2 ⟨_, hmem, rfl⟩)
        simp [hrest, eq_comm]
    · next hne => simp [ih h.2, Ne.symm hne]

/-- Two tables with the same look-ups have the same entries, in some order. -/
theorem entries_perm {t t' : Table κ α} (h : t.keys.Nodup) (h' : t'.keys.Nodup)
    (hget : ∀ k, t.get? k = t'.get? k) : t.entries.Perm t'.entries := by
  have hnodup : ∀ {s : Table κ α}, s.keys.Nodup → s.entries.Nodup := fun hs => hs.of_map
  rw [List.perm_ext_iff_of_nodup (hnodup h) (hnodup h')]
  rintro ⟨k, v⟩
  rw [← find_eq_some_iff h, ← find_eq_some_iff h']
  change t.get? k = some v ↔ t'.get? k = some v
  rw [hget]

end Table

end UnitAnalysis
