import Mathlib
import MeshIncidence.Proofs.Store.Written

/-!
The order in which a store lists what it holds. Dimensions ascend, and pairs of dimensions are listed in
lexicographic order. Relations are written once, so none of them is listed twice.
-/
namespace MeshIncidence.Store

variable {s t : Store} {d0 d1 : Int}

theorem pairwise_dimensions (s : Store) : s.dimensions.Pairwise (· < ·) := by
  refine List.pairwise_map.mpr (List.pairwise_lt_range.imp fun h => ?_)
  exact Int.ofNat_lt.mpr h

theorem mem_of_relation? {r : Incidence} (h : s.relation? d0 d1 = some r) :
    ((d0, d1), r) ∈ s.relations := by
  obtain ⟨before, after, split, -⟩ := List.lookup_eq_some_iff.mp h
  rw [split]
  exact List.mem_append_right _ List.mem_cons_self

/-- No pair of dimensions is recorded twice. -/
def Distinct (s : Store) : Prop := (s.relations.map Prod.fst).Nodup

/-- A pair that is not found is not recorded. -/
theorem not_mem_of_fresh (h : s.relation? d0 d1 = none) : (d0, d1) ∉ s.relations.map Prod.fst := by
  intro found
  obtain ⟨entry, hentry, same⟩ := List.mem_map.mp found
  have differ := List.lookup_eq_none_iff.mp h entry hentry
  simp [same] at differ

theorem Distinct.written (h : s.Distinct) (w : s.Written t) : t.Distinct := by
  induction w with
  | refl => exact h
  | count _ accepted ih =>
    rw [Distinct, (relations_setCount accepted).1]
    exact ih
  | relation _ accepted ih =>
    obtain ⟨-, -, fresh, -, rfl⟩ := setRelation_ok accepted
    rw [Distinct, List.map_append, List.map_singleton]
    exact List.nodup_append.mpr ⟨ih, List.nodup_singleton _, fun p hp q hq => by
      rw [List.mem_singleton.mp hq]
      rintro rfl
      exact not_mem_of_fresh fresh hp⟩

theorem pairLe_iff {p q : Int × Int} : pairLe p q = true ↔ toLex p ≤ toLex q := by
  rw [pairLe, decide_eq_true_eq, Prod.Lex.toLex_le_toLex]

theorem pairwise_recordedPairs (h : s.Distinct) :
    s.recordedPairs.Pairwise fun p q => toLex p < toLex q := by
  have sorted : s.recordedPairs.Pairwise fun p q => pairLe p q = true :=
    List.pairwise_mergeSort
      (by intro a b c; simp only [pairLe_iff]; exact le_trans)
      (by intro a b; simp only [Bool.or_eq_true, pairLe_iff]; exact le_total _ _) _
  have nodup : s.recordedPairs.Nodup := (List.mergeSort_perm _ _).nodup_iff.mpr h
  exact sorted.imp₂ (fun p q hle hne => lt_of_le_of_ne (pairLe_iff.mp hle) (toLex.injective.ne hne))
    nodup

theorem pairwise_recordedRelations (h : s.Distinct) :
    s.recordedRelations.Pairwise fun a b => toLex a.1 < toLex b.1 := by
  refine List.pairwise_filterMap.mpr ((pairwise_recordedPairs h).imp fun before a ha b hb => ?_)
  obtain ⟨_, -, rfl⟩ := Option.map_eq_some_iff.mp ha
  obtain ⟨_, -, rfl⟩ := Option.map_eq_some_iff.mp hb
  exact before

end MeshIncidence.Store
