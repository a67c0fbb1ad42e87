import Mathlib
import MeshIncidence.Proofs.Audit.Findings
import MeshIncidence.Proofs.Resolution.Inquiry
import MeshIncidence.Proofs.Resolution.Rows

/-!
Audits of what requests have recorded find nothing. In a faithful store counts and their defining
relations go together, if all vertices can be recorded, and relations are turned round exactly, whatever
the shape; where the shape splits well, relations stay inside the counts, and entities differ in their
vertices if the cells do.
-/
namespace MeshIncidence

/-- Rows turned round twice are the rows, each in some order. -/
theorem Incidence.turned_turned_perm {rows : List (List Int)} {n : Nat}
    (inside : ∀ row ∈ rows, ∀ e ∈ row, 0 ≤ e ∧ e < n) :
    List.Forall₂ List.Perm (turned (turned rows n) rows.length) rows := by
  rw [turned_turned inside, List.forall₂_map_left_iff, List.forall₂_same]
  exact fun row _ => VertexList.ascending_perm row

namespace Audit

variable {m : Mesh} {s : Store} {d0 d1 dim : Int}

/-- A dimension is recorded with both of its defining relations or with neither, unless it overflows. -/
theorem dimFinding_eq_none (faithful : Faithful m s)
    (fine : m.Overflows dim → s.count? dim = none) : dimFinding s dim = none := by
  refine dimFinding_eq_none_iff.mpr ?_
  cases hc : s.count? dim with
  | none =>
    exact .inr ⟨hc, faithful.relation_fresh (Or.inr hc), faithful.relation_fresh (Or.inl hc)⟩
  | some n =>
    have below : dim ≠ s.dim → (s.relation? s.dim dim).isSome := by
      rw [faithful.dim]
      exact faithful.cells hc
    have fine : ¬ m.Overflows dim := fun beyond => by
      rw [fine beyond] at hc
      cases hc
    exact .inl ⟨by simp [hc], below, fun above => faithful.vertices hc above fine⟩

theorem consistency_eq_nil (faithful : Faithful m s)
    (fine : ∀ dim, m.Overflows dim → s.count? dim = none) : consistency s = [] :=
  List.filterMap_eq_nil_iff.mpr fun dim _ => dimFinding_eq_none faithful (fine dim)

theorem bounds_eq_nil (sound : m.Sound) (wellFormed : m.WellFormed) (faithful : Faithful m s) :
    bounds s = [] := by
  refine List.filterMap_eq_nil_iff.mpr fun entry hentry => ?_
  have recorded := Store.mem_recordedRelations.mp hentry
  rw [boundsFinding_eq, if_pos]
  exact fun t ht => Mesh.inside_of_recorded sound wellFormed faithful recorded ht

/-- The vertices that are recorded of the entities of a dimension differ. -/
theorem vertices_differ_of_recorded (sound : m.Sound) (wellFormed : m.WellFormed)
    (different : m.cells.Pairwise fun a b => VertexList.sameSet a b = false)
    (faithful : Faithful m s) (above : 0 < dim) {r : Incidence} (hr : s.relation? dim 0 = some r) :
    Different r.rows := by
  obtain ⟨n, -, hc, -⟩ := faithful.counted hr
  obtain ⟨rows, hrows, -, hr'⟩ := faithful.vertexRelation ⟨hc, (faithful.bare hr).1⟩ (by omega)
  rw [hr] at hr'
  cases hr'
  rw [Incidence.rows_ofRows]
  have covers := Mesh.covers_of_countOf (faithful.count hc)
  by_cases top : dim = m.dim
  · rw [Mesh.vertexRows, if_pos top] at hrows
    cases hrows
    refine different.imp fun {a b} differ same => ?_
    rw [VertexList.sameSet_iff.mpr same] at differ
    cases differ
  · have := covers.2
    exact Mesh.vertices_differ sound wellFormed above (by omega) hrows

theorem duplicates_eq_nil (sound : m.Sound) (wellFormed : m.WellFormed)
    (different : m.cells.Pairwise fun a b => VertexList.sameSet a b = false)
    (faithful : Faithful m s) : duplicates s = [] := by
  refine List.eq_nil_iff_forall_not_mem.mpr fun f hf => ?_
  obtain ⟨d, r, i, j, ⟨above, -, hr, alike⟩, -⟩ := mem_duplicates.mp hf
  have differ := vertices_differ_of_recorded sound wellFormed different faithful (by omega) hr
  exact forall_not_firstAlike.mpr differ i j alike

/-- A relation to a higher dimension was turned round from its reverse. -/
theorem inverseFinding_eq_none (faithful : Faithful m s) {entry : (Int × Int) × Incidence}
    (h : entry ∈ s.recordedRelations) : inverseFinding s entry = .ok none := by
  have hup := Store.mem_recordedRelations.mp h
  obtain ⟨⟨d0, d1⟩, up⟩ := entry
  by_cases paired : d0 < d1 → s.relation? d1 d0 = none
  · exact inverseFinding_unpaired paired
  obtain ⟨rising, some⟩ := Classical.not_imp.mp paired
  obtain ⟨down, hdown⟩ := Option.ne_none_iff_exists'.mp some
  obtain ⟨n0, n1, c0, c1⟩ := faithful.counted hup
  obtain ⟨found, hfound, rfl, rfl, inside, -⟩ := Mesh.rows_of_recorded faithful rising hdown hup c0
  have covers := Mesh.covers_of_countOf (faithful.count c0)
  have size : s.sizeOf d1 = found.length := by
    rw [Store.sizeOf, c1, Option.getD_some,
      Mesh.length_fallingRows rising covers.1 (faithful.count c1) hfound]
  have ascending := Incidence.ascending_ofRows (Incidence.turned found n0)
  have within : (Incidence.ofRows (Incidence.turned found n0)).Within (s.sizeOf d1) := by
    rw [Incidence.within_iff_rows ascending, Incidence.rows_ofRows, size]
    exact fun row hrow e he => Incidence.mem_turned hrow he
  rw [inverseFinding_paired rising hdown ascending within, Incidence.rows_ofRows,
    Incidence.rows_ofRows, size, if_pos (sameRows_iff.mpr (Incidence.turned_turned_perm inside))]

theorem inverses_eq_nil (inverse : ∀ entry ∈ s.recordedRelations, inverseFinding s entry = .ok none) :
    inverses s = .ok [] := by
  rw [inverses, Outcome.mapM_eq_map inverse, Outcome.map_ok]
  simp

/-- Where no check finds anything, the report is empty and no failure comes of it. -/
theorem report_of_nil (consistent : consistency s = []) (bounded : bounds s = [])
    (distinct : duplicates s = [])
    (inverse : ∀ entry ∈ s.recordedRelations, inverseFinding s entry = .ok none) :
    report ⟨true, true, true, true⟩ s = .ok ⟨some [], some [], some [], some []⟩ ∧
      enforce ⟨true, true, true, true⟩ s = .ok ⟨some [], some [], some [], some []⟩ := by
  have reported : report ⟨true, true, true, true⟩ s = .ok ⟨some [], some [], some [], some []⟩ := by
    rw [report_eq (inverses_eq_nil inverse), consistent, bounded, distinct]
    rfl
  have plain : plainFindings ⟨true, true, true, true⟩ s = [] := by
    simp only [plainFindings, if_true, consistent, bounded, distinct, List.append_nil]
  refine ⟨reported, ?_⟩
  have compared : (if true then inverses s else .ok []) = .ok [] := inverses_eq_nil inverse
  rw [enforce_eq_refuse compared, plain, reported]
  rfl

end Audit

namespace Mesh

variable {m : Mesh}

/-- Whatever was asked of a mesh before, an audit finds nothing and refuses nothing, provided that the
shape splits cells well and no two cells have the same vertices. -/
theorem audit_passes (accepted : m.Accepted) (wellFormed : m.WellFormed)
    (different : m.cells.Pairwise fun a b => VertexList.sameSet a b = false)
    (inquiries : List Inquiry) :
    ∃ report : Report,
      Audit.report ⟨true, true, true, true⟩ (Inquiry.after m.shape m.store inquiries) = .ok report ∧
      Audit.enforce ⟨true, true, true, true⟩ (Inquiry.after m.shape m.store inquiries) =
        .ok report ∧
      report = ⟨some [], some [], some [], some []⟩ ∧ report.valid = true := by
  have sound := accepted.sound
  have faithful := Inquiry.faithful_after accepted inquiries
  have storable := storable_of_wellFormed sound wellFormed
  obtain ⟨reported, enforced⟩ := Audit.report_of_nil
    (Audit.consistency_eq_nil faithful fun dim beyond => absurd beyond (storable dim))
    (Audit.bounds_eq_nil sound wellFormed faithful)
    (Audit.duplicates_eq_nil sound wellFormed different faithful)
    fun _ hentry => Audit.inverseFinding_eq_none faithful hentry
  exact ⟨_, reported, enforced, rfl, rfl⟩

/-- A strip after a relation, the triangles at an edge, an edge that is not there, and everything. -/
theorem audit_passes_strip :
    strip.Accepted ∧ strip.WellFormed ∧
      (strip.cells.Pairwise fun a b => VertexList.sameSet a b = false) ∧
      ∃ report : Report,
        Audit.report ⟨true, true, true, true⟩
          (Inquiry.after strip.shape strip.store
            [.rows 0 2, .incident ⟨1, 2⟩ 2, .view 1 5, .demand .everything]) = .ok report ∧
        Audit.enforce ⟨true, true, true, true⟩
          (Inquiry.after strip.shape strip.store
            [.rows 0 2, .incident ⟨1, 2⟩ 2, .view 1 5, .demand .everything]) = .ok report ∧
        report = ⟨some [], some [], some [], some []⟩ ∧ report.valid = true :=
  have wellFormed : strip.WellFormed := wellFormed_of_simplex rfl
  have different : strip.cells.Pairwise fun a b => VertexList.sameSet a b = false := by decide
  ⟨strip_accepted, wellFormed, different,
    audit_passes strip_accepted wellFormed different
      [.rows 0 2, .incident ⟨1, 2⟩ 2, .view 1 5, .demand .everything]⟩

end Mesh

end MeshIncidence
