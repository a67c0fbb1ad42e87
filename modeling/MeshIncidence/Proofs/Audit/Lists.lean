import Mathlib
import MeshIncidence.Proofs.Audit.Validity
import MeshIncidence.Proofs.Store.Order

/-!
The lists of a report, entry for entry. Whatever has been written to a store, each list holds exactly what is
wrong with it, once and in order: dimensions that are recorded in part, relations that refer beyond a count,
entities with the vertices of an earlier one, relations that do not refer back as often as they are referred
to.
-/
namespace MeshIncidence

/-- A list of all that has a property, in strict order. -/
structure Enumerates {α : Type} (before : α → α → Prop) (P : α → Prop) (xs : List α) : Prop where
  ordered : xs.Pairwise before
  mem : ∀ x, x ∈ xs ↔ P x

namespace Store

/-- A dimension that is counted while a relation that defines it is missing, or that has one of them and is
not counted. -/
def Partial (s : Store) (d : Int) : Prop :=
  s.Covers d ∧
    ((s.count? d).isSome ∧
        (d ≠ s.dim ∧ s.relation? s.dim d = none ∨ d ≠ 0 ∧ s.relation? d 0 = none) ∨
      s.count? d = none ∧ ((s.relation? s.dim d).isSome ∨ (s.relation? d 0).isSome))

/-- A relation that refers to entities that are not there. -/
def Beyond (s : Store) : Int × Int → Prop
  | (d0, d1) => ∃ r, s.relation? d0 d1 = some r ∧ ¬ r.Within (s.sizeOf d1)

/-- Entity `b` of dimension `d` has the vertices of an earlier one, and `a` is the first such. -/
def Shared (s : Store) : Int × Nat × Nat → Prop
  | (d, a, b) => 1 ≤ d ∧ d ≤ s.dim ∧ ∃ r, s.relation? d 0 = some r ∧ FirstAlike r.rows a b

/-- A relation to a higher dimension and its reverse do not refer to each other equally often. -/
def Uneven (s : Store) : Int × Int → Prop
  | (d0, d1) => d0 < d1 ∧ ∃ r q, s.relation? d0 d1 = some r ∧ s.relation? d1 d0 = some q ∧
      ∃ e1 : Nat, e1 < s.sizeOf d1 ∧ ∃ e0 : Int,
        Incidence.multiplicity r.rows e0 e1 ≠ Incidence.multiplicity q.rows e1 e0

end Store

namespace Mesh

variable {m : Mesh}

theorem Accepted.distinct (accepted : m.Accepted) : m.store.Distinct := by
  obtain ⟨registry, a, choice, points?, full, h⟩ := accepted
  obtain ⟨count, columns, extents, -, h⟩ := ofArray_eq_ok.mp h
  obtain ⟨shape, points, -, rfl⟩ :=
    (build_eq_ok fun cell hc => CellArray.length_of_mem_rows full extents hc).mp h
  exact List.nodup_singleton _

end Mesh

namespace Audit

variable {s : Store} {d d0 d1 : Int}

/-- Findings that name what they were found at keep the order in which it is gone through. -/
theorem pairwise_named {α β : Type} {before : β → β → Prop} (key : α → β) {xs : List α}
    (ordered : xs.Pairwise fun a b => before (key a) (key b)) {find : α → Option Finding}
    {name : Finding → Option β} (own : ∀ a f, find a = some f → ∀ b, name f = some b → b = key a) :
    ((xs.filterMap find).filterMap name).Pairwise before := by
  refine List.pairwise_filterMap.mpr (List.pairwise_filterMap.mpr (ordered.imp ?_))
  intro a a' h f hf f' hf' b hb b' hb'
  rw [own a f hf b hb, own a' f' hf' b' hb']
  exact h

theorem pairwise_dims (s : Store) : (dims (consistency s)).Pairwise (· < ·) := by
  refine pairwise_named id s.pairwise_dimensions fun d f hf b hb => ?_
  rcases dimFinding_eq_some hf with rfl | rfl <;> exact (Option.some.inj hb).symm

theorem pairwise_pairs_bounds (distinct : s.Distinct) :
    (pairs (bounds s)).Pairwise fun p q => toLex p < toLex q := by
  refine pairwise_named Prod.fst (Store.pairwise_recordedRelations distinct) fun e f hf b hb => ?_
  rw [boundsFinding_eq] at hf
  split at hf
  · cases hf
  · cases hf
    exact (Option.some.inj hb).symm

theorem inverseFinding_eq_some {entry : (Int × Int) × Incidence} {f : Finding}
    (h : inverseFinding s entry = .ok (some f)) : f = .notInverse entry.1.1 entry.1.2 := by
  unfold inverseFinding at h
  split at h
  · cases h
  split at h
  · cases h
  obtain ⟨expected, -, h⟩ := Outcome.map_eq_ok.mp h
  split at h
  · cases h
  · exact (Option.some.inj h).symm

theorem pairwise_pairs_inverses (distinct : s.Distinct) {found : List Finding}
    (h : inverses s = .ok found) : (pairs found).Pairwise fun p q => toLex p < toLex q := by
  obtain ⟨findings, each, rfl⟩ := Outcome.map_eq_ok.mp h
  rw [Outcome.filterMap_id_of_mapM each]
  refine pairwise_named Prod.fst (Store.pairwise_recordedRelations distinct) fun e f hf b hb => ?_
  rw [inverseFinding_eq_some (Outcome.toOption_join_eq_some.mp hf)] at hb
  exact (Option.some.inj hb).symm

theorem sharedFinding_eq_some {rows : List (List Int)} {entity : List Int × Nat} {f : Finding}
    (h : sharedFinding d rows entity = some f) : ∃ i vertices, f = .shared d i entity.2 vertices := by
  unfold sharedFinding at h
  split at h
  · cases h
  · exact ⟨_, _, (Option.some.inj h).symm⟩

/-- Entities with the vertices of an earlier one are found in their order. -/
theorem pairwise_sharedIn (s : Store) (d : Int) : (triples (sharedIn s d)).Pairwise
    fun x y => toLex (x.1, x.2.2) < toLex (y.1, y.2.2) := by
  unfold sharedIn
  split
  · exact List.Pairwise.nil
  · rename_i r _
    have numbered : r.rows.zipIdx.Pairwise fun a b => a.2 < b.2 := by
      rw [← List.pairwise_map (f := Prod.snd), List.zipIdx_map_snd]
      exact List.pairwise_lt_range'
    refine List.pairwise_filterMap.mpr (List.pairwise_filterMap.mpr (numbered.imp ?_))
    intro a b before f hf g hg x hx y hy
    obtain ⟨i, vertices, rfl⟩ := sharedFinding_eq_some hf
    obtain ⟨j, vertices', rfl⟩ := sharedFinding_eq_some hg
    cases hx
    cases hy
    exact Prod.Lex.toLex_lt_toLex.mpr (.inr ⟨rfl, before⟩)

theorem triples_duplicates (s : Store) : triples (duplicates s) =
    (s.dimensions.filter fun d => decide (1 ≤ d)).flatMap fun d => triples (sharedIn s d) := by
  rw [triples, duplicates, List.filterMap_flatMap]
  rfl

theorem fst_of_mem_sharedIn {x : Int × Nat × Nat} (h : x ∈ triples (sharedIn s d)) : x.1 = d := by
  obtain ⟨vertices, found⟩ := mem_triples.mp h
  obtain ⟨r, -, i, j, -, named⟩ := mem_sharedIn.mp found
  cases named
  rfl

theorem pairwise_triples (s : Store) : (triples (duplicates s)).Pairwise
    fun x y => toLex (x.1, x.2.2) < toLex (y.1, y.2.2) := by
  rw [triples_duplicates, List.pairwise_flatMap]
  refine ⟨fun d _ => pairwise_sharedIn s d, (s.pairwise_dimensions.filter _).imp ?_⟩
  intro d e before x hx y hy
  rw [← fst_of_mem_sharedIn hx, ← fst_of_mem_sharedIn hy] at before
  exact Prod.Lex.toLex_lt_toLex.mpr (.inl before)

theorem not_whole_or_absent_iff : s.Covers d ∧ ¬ (s.Whole d ∨ s.Absent d) ↔ s.Partial d := by
  rw [Store.whole_iff, Store.absent_iff, Store.Partial]
  cases s.count? d <;> cases s.relation? s.dim d <;> cases s.relation? d 0 <;> simp [or_iff_not_imp_left]

theorem enumerates_dims (s : Store) : Enumerates (· < ·) s.Partial (dims (consistency s)) :=
  ⟨pairwise_dims s, fun _ => mem_dims_consistency.trans not_whole_or_absent_iff⟩

theorem enumerates_bounds (distinct : s.Distinct) :
    Enumerates (fun p q => toLex p < toLex q) s.Beyond (pairs (bounds s)) :=
  ⟨pairwise_pairs_bounds distinct, fun _ => mem_pairs_bounds⟩

theorem enumerates_duplicates (s : Store) : Enumerates
    (fun x y => toLex (x.1, x.2.2) < toLex (y.1, y.2.2)) s.Shared (triples (duplicates s)) :=
  ⟨pairwise_triples s, fun _ => mem_triples_duplicates⟩

theorem enumerates_inverses (distinct : s.Distinct) (coherent : s.Coherent) (ascending : s.Ascending)
    {found : List Finding} (h : inverses s = .ok found) :
    Enumerates (fun p q => toLex p < toLex q) s.Uneven (pairs found) := by
  refine ⟨pairwise_pairs_inverses distinct h, fun ⟨d0, d1⟩ => ?_⟩
  have within := exists_inverses_iff.mp ⟨found, h⟩
  rw [mem_pairs_inverses ascending h]
  refine and_congr_right fun rising => exists_congr fun r => exists_congr fun q =>
    and_congr_right fun hr => and_congr_right fun hq => ?_
  rw [coherent.turned_iff ascending hr hq (within d0 d1 r rising hr (by rw [hq]; rfl))]
  simp only [not_forall, exists_prop, ne_eq]

end Audit

namespace Mesh

variable {m : Mesh} {s : Store}

/-- Whatever was written, a report lists exactly and in order the dimensions that are recorded in part, the
relations that refer beyond a count, each entity with the vertices of an earlier one, and the relations that
do not refer back as often as they are referred to. For there to be a report, what is compared with its
reverse has to refer to entities that are there. -/
theorem report_exact (accepted : m.Accepted) (written : m.store.Written s) (ascending : s.Ascending)
    (compared : ∀ d0 d1 r, d0 < d1 → s.relation? d0 d1 = some r → (s.relation? d1 d0).isSome →
      r.Within (s.sizeOf d1)) :
    ∃ dims beyond shared uneven,
      Audit.report ⟨true, true, true, true⟩ s =
        .ok ⟨some dims, some beyond, some shared, some uneven⟩ ∧
      Enumerates (fun x y => toLex (x.1, x.2.2) < toLex (y.1, y.2.2)) s.Shared shared ∧
      Enumerates (fun p q => toLex p < toLex q) s.Uneven uneven ∧
      Enumerates (fun p q => toLex p < toLex q) s.Beyond beyond ∧
      Enumerates (· < ·) s.Partial dims := by
  have distinct := accepted.distinct.written written
  obtain ⟨found, hfound⟩ := Audit.exists_inverses_iff.mpr compared
  exact ⟨_, _, _, _, Audit.report_eq hfound, Audit.enumerates_duplicates s,
    Audit.enumerates_inverses distinct (accepted.coherent written) ascending hfound,
    Audit.enumerates_bounds distinct, Audit.enumerates_dims s⟩

/-- A strip with edges that no triangle has, one of them twice; a triangle forgotten at a vertex; and a
triangle next to one that is not there. -/
def battered : Store :=
  ⟨2, [(0, 4), (2, 2), (1, 3)],
    [((2, 0), Incidence.ofRows [[0, 1, 2], [1, 2, 3]]), ((2, 2), Incidence.ofRows [[5], []]),
      ((1, 0), Incidence.ofRows [[1, 2], [0, 1], [2, 1]]),
      ((0, 2), Incidence.ofRows [[0], [1, 0], [], [1]])]⟩

theorem report_exact_battered :
    strip.Accepted ∧ strip.store.Written battered ∧ battered.Ascending ∧
      (∀ d0 d1 r, d0 < d1 → battered.relation? d0 d1 = some r → (battered.relation? d1 d0).isSome →
        r.Within (battered.sizeOf d1)) ∧
      Audit.report ⟨true, true, true, true⟩ battered =
        .ok ⟨some [1], some [(2, 2)], some [(1, 0, 2)], some [(0, 2)]⟩ ∧
      Enumerates (fun x y => toLex (x.1, x.2.2) < toLex (y.1, y.2.2)) battered.Shared [(1, 0, 2)] ∧
      Enumerates (fun p q => toLex p < toLex q) battered.Uneven [(0, 2)] ∧
      Enumerates (fun p q => toLex p < toLex q) battered.Beyond [(2, 2)] ∧
      Enumerates (· < ·) battered.Partial [1] := by
  have written : strip.store.Written battered := by
    have built : (strip.store.setCount 1 3 >>= fun s =>
        s.setRelation 2 2 (Incidence.ofRows [[5], []]) >>= fun s =>
          s.setRelation 1 0 (Incidence.ofRows [[1, 2], [0, 1], [2, 1]]) >>= fun s =>
            s.setRelation 0 2 (Incidence.ofRows [[0], [1, 0], [], [1]])) = .ok battered := rfl
    obtain ⟨_, counted, built⟩ := Outcome.bind_eq_ok.mp built
    obtain ⟨_, level, built⟩ := Outcome.bind_eq_ok.mp built
    obtain ⟨_, edges, triangles⟩ := Outcome.bind_eq_ok.mp built
    exact (((Store.Written.refl.count counted).relation level).relation edges).relation triangles
  have sorted : ∀ entry ∈ battered.relations, entry.2.offsets.Pairwise (· ≤ ·) := by decide
  have ascending : battered.Ascending := fun _ _ _ hr => sorted _ (Store.mem_of_relation? hr)
  have inside : ∀ entry ∈ battered.relations, entry.1.1 < entry.1.2 →
      entry.2.Within (battered.sizeOf entry.1.2) := by decide
  have compared : ∀ d0 d1 r, d0 < d1 → battered.relation? d0 d1 = some r →
      (battered.relation? d1 d0).isSome → r.Within (battered.sizeOf d1) :=
    fun _ _ _ rising hr _ => inside _ (Store.mem_of_relation? hr) rising
  have reported : Audit.report ⟨true, true, true, true⟩ battered =
      .ok ⟨some [1], some [(2, 2)], some [(1, 0, 2)], some [(0, 2)]⟩ := by cbv
  obtain ⟨dims, beyond, shared, uneven, same, lists⟩ :=
    report_exact strip_accepted written ascending compared
  rw [reported] at same
  cases same
  exact ⟨strip_accepted, written, ascending, compared, reported, lists⟩

end Mesh

end MeshIncidence
