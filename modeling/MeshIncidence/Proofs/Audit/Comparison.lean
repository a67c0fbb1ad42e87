import Mathlib
import MeshIncidence.Proofs.Audit.Validity
import MeshIncidence.Proofs.Incidence.Grouping

/-!
What an audit compares a relation with. Relations are turned round in two ways: by counting and placing,
when the reverse is recorded, and by grouping pairs, when it is audited. Both give the same relation, so an
audit asks for the very rows that turning round would have recorded, each in any order.
-/
namespace MeshIncidence

open Audit

variable {s : Store} {d0 d1 : Int} {r q back : Incidence} {n : Nat}

/-- A relation that can be turned round is recorded so, where its reverse is not yet recorded. -/
theorem Derivation.transposeInto_of_ok (notes : List Note) (c0 : s.Covers d0) (c1 : s.Covers d1)
    (hr : s.relation? d1 d0 = some r) (hn : s.count? d0 = some n) (fresh : s.relation? d0 d1 = none)
    (turned : r.transpose? n = .ok back) :
    ∃ after, transposeInto d0 d1 ⟨s, notes⟩ = (.ok (), after) ∧
      after.store.relation? d0 d1 = some back := by
  have found := Store.findRelation_of_covers c1 c0
  have size := Store.size_of_some c0 hn
  obtain ⟨t, ht⟩ := Store.setRelation_fresh c0 c1 fresh
    (hn.trans (by rw [Incidence.sourceCount_of_transpose? turned]))
  unfold transposeInto
  simp only [Request.bind_apply, Request.note_apply, Request.read_apply, found, hr, size,
    Request.lift_apply, turned]
  rw [Request.write_of_ok (f := fun s => s.setRelation d0 d1 back) ht]
  exact ⟨_, rfl, by rw [Store.relation?_setRelation ht, if_pos ⟨rfl, rfl⟩]⟩

/-- The reverse that an audit asks for is the relation turned round. -/
theorem Audit.inverseFinding_of_transpose? (rising : d0 < d1) (hq : s.relation? d1 d0 = some q)
    (ascending : r.Ascending) (within : r.Within (s.sizeOf d1))
    (turned : r.transpose? (s.sizeOf d1) = .ok back) :
    inverseFinding s ((d0, d1), r) =
      .ok (if sameRows back.rows q.rows then none else some (.notInverse d0 d1)) := by
  obtain ⟨-, rfl⟩ := (Incidence.transpose?_of_ascending ascending within).mp turned
  rw [inverseFinding_paired rising hq ascending within, Incidence.rows_ofRows]

/-- A relation that refers to the first `n` entities alone is turned round by placing exactly as by grouping
its pairs the other way, and both succeed if the number of offsets is a word. What they give is what is
recorded when the relation is turned round in a store, and what an audit compares a reverse with. -/
theorem inversions_agree (ascending : r.Ascending) (within : ∀ t ∈ r.targets, 0 ≤ t ∧ t < n) :
    ((n : Int) + 1 < Word.bound → ∃ back, r.transpose? n = .ok back) ∧
    (∀ back, r.transpose? n = .ok back ↔
      Incidence.ofPairs? (r.pairs.map Prod.snd) (r.pairs.map Prod.fst) n = .ok back) ∧
    ∀ back, r.transpose? n = .ok back →
      (∀ (s : Store) (notes : List Note) (d0 d1 : Int), s.Covers d0 → s.Covers d1 →
        s.relation? d0 d1 = some r → s.count? d1 = some n → s.relation? d1 d0 = none →
        ∃ after, Derivation.transposeInto d1 d0 ⟨s, notes⟩ = (.ok (), after) ∧
          after.store.relation? d1 d0 = some back) ∧
      ∀ (s : Store) (d0 d1 : Int) (q : Incidence), d0 < d1 → s.relation? d1 d0 = some q →
        s.sizeOf d1 = n → inverseFinding s ((d0, d1), r) =
          .ok (if sameRows back.rows q.rows then none else some (.notInverse d0 d1)) := by
  refine ⟨fun small => ?_, fun back => (Incidence.ofPairs?_swapped ascending within back).symm,
    fun back turned => ⟨fun s notes d0 d1 c0 c1 hr hn fresh => ?_, fun s d0 d1 q rising hq size => ?_⟩⟩
  · exact ⟨_, (Incidence.transpose?_of_ascending ascending within).mpr ⟨small, rfl⟩⟩
  · exact Derivation.transposeInto_of_ok notes c1 c0 hr hn fresh turned
  · subst size
    exact inverseFinding_of_transpose? rising hq ascending within turned

/-- The triangles at each vertex of a strip, one of them forgotten. -/
theorem inversions_agree_strip :
    let r := Incidence.ofRows [[0], [1, 0], [], [1]]
    r.Ascending ∧ (∀ t ∈ r.targets, 0 ≤ t ∧ t < (2 : Nat)) ∧
      ∃ back, r.transpose? (2 : Nat) = .ok back ∧ back.rows = [[0, 1], [1, 3]] ∧
        Incidence.ofPairs? (r.pairs.map Prod.snd) (r.pairs.map Prod.fst) (2 : Nat) = .ok back ∧
        (∃ after, Derivation.transposeInto 2 0 ⟨⟨2, [(0, 4), (2, 2)], [((0, 2), r)]⟩, []⟩ =
          (.ok (), after) ∧ after.store.relation? 2 0 = some back) ∧
        inverseFinding (Mesh.stripWith 0 2 [[0], [1, 0], [], [1]]) ((0, 2), r) =
          .ok (some (.notInverse 0 2)) := by
  have ascending := Incidence.ascending_ofRows [[0], [1, 0], [], [1]]
  have within : ∀ t ∈ (Incidence.ofRows [[0], [1, 0], [], [1]]).targets, 0 ≤ t ∧ t < (2 : Nat) := by
    decide
  obtain ⟨exists_back, alike, compared⟩ := inversions_agree ascending within
  obtain ⟨back, turned⟩ := exists_back (by decide)
  have computed : (Incidence.ofRows [[0], [1, 0], [], [1]]).transpose? (2 : Nat) =
      .ok (Incidence.ofRows [[0, 1], [1, 3]]) := by cbv
  have rows : back.rows = [[0, 1], [1, 3]] := by
    rw [Except.ok.inj (turned.symm.trans computed), Incidence.rows_ofRows]
  have finding := (compared back turned).2 (Mesh.stripWith 0 2 [[0], [1, 0], [], [1]]) 0 2 _
    (by decide) rfl rfl
  have differ : sameRows [[0, 1], [1, 3]] [[0, 1, 2], [1, 2, 3]] = false := by decide
  rw [rows, Incidence.rows_ofRows, differ] at finding
  have recorded := (compared back turned).1 ⟨2, [(0, 4), (2, 2)], [((0, 2), _)]⟩ [] 0 2 (by decide)
    (by decide) rfl rfl rfl
  exact ⟨ascending, within, back, turned, rows, (alike back).mp turned, recorded, finding⟩

end MeshIncidence
