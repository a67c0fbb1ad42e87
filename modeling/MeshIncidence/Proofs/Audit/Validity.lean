import Mathlib
import MeshIncidence.Proofs.Audit.Findings
import MeshIncidence.Proofs.Resolution.Tampered

/-!
What a report is worth, whatever has been written to a store. There is none where a relation that is to be
compared with its reverse refers to entities that are not there. A valid one says what it should of
dimensions whose vertices or cells are related, and of relations between different dimensions; relations
without entries, and those within one dimension, escape it.
-/
namespace MeshIncidence

open Audit

variable {s t : Store} {d0 d1 : Int} {r q : Incidence} {m : Mesh}

namespace Incidence

/-- Each of two relations refers to an entity as often as the other one refers back. -/
def Mutual (r q : Incidence) : Prop :=
  ∀ e0 e1 : Nat, (r.rows.getD e0 []).count (e1 : Int) = (q.rows.getD e1 []).count (e0 : Int)

theorem Mutual.symm (h : r.Mutual q) : q.Mutual r := fun e0 e1 => (h e1 e0).symm

end Incidence

namespace Store

theorem Ascending.setRelation (h : s.Ascending) (hr : r.Ascending)
    (accepted : s.setRelation d0 d1 r = .ok t) : t.Ascending := by
  intro a b q hq
  rw [relation?_setRelation accepted] at hq
  split at hq
  · cases hq
    exact hr
  · exact h a b q hq

end Store

namespace Mesh

theorem Sound.ascending (sound : m.Sound) : m.store.Ascending := by
  intro a b r hr
  rw [sound.relations] at hr
  split at hr
  · cases hr
    exact Incidence.ascending_ofRows _
  · cases hr

theorem Sound.written_rows (sound : m.Sound) {rows : List (List Int)}
    (accepted : m.store.setRelation d0 d1 (Incidence.ofRows rows) = .ok t) :
    m.store.Written t ∧ t.Ascending :=
  ⟨.relation .refl accepted, sound.ascending.setRelation (Incidence.ascending_ofRows rows) accepted⟩

/-- The strip's store with one more relation. -/
def stripWith (d0 d1 : Int) (rows : List (List Int)) : Store :=
  { strip.store with relations := strip.store.relations ++ [((d0, d1), Incidence.ofRows rows)] }

end Mesh

namespace Audit

theorem inverses_fails_as (s : Store) :
    Outcome.FailsAs (fun e => ∃ cause, e = .encoding cause) (inverses s) := by
  refine .map (.mapM fun entry _ => ?_)
  unfold inverseFinding
  split
  · exact .ok _
  split
  · exact .ok _
  · exact .map (.mapError (fun e => ⟨e, rfl⟩) _)

/-- A report is given exactly if every relation that is to be compared with its reverse refers to entities
that are there. Where none is given, the failure is one of the encoding and not a finding. -/
theorem exists_report_iff (checks : Checks) (s : Store) :
    ((∃ found, report checks s = .ok found) ↔
      (checks.inverses = true → ∀ d0 d1 r, d0 < d1 → s.relation? d0 d1 = some r →
        (s.relation? d1 d0).isSome → r.Within (s.sizeOf d1))) ∧
    ∀ e, report checks s = .error e → ∃ cause, e = .encoding cause := by
  rw [report_eq_lists]
  by_cases compared : checks.inverses = true
  · simp only [compared, if_true, true_implies, ← exists_inverses_iff]
    refine ⟨?_, (inverses_fails_as s).map⟩
    simp only [Outcome.map_eq_ok]
    exact ⟨fun ⟨_, found, h, _⟩ => ⟨found, h⟩, fun ⟨found, h⟩ => ⟨_, found, h, rfl⟩⟩
  · simp only [compared]
    exact ⟨⟨fun _ no => absurd no (by simp), fun _ => ⟨_, rfl⟩⟩, Outcome.FailsAs.ok _⟩

/-- The last vertex of a strip has a third triangle, which is not there. -/
theorem no_report_of_strip :
    Mesh.strip.Accepted ∧
      Mesh.strip.store.Written (Mesh.stripWith 0 2 [[0], [0, 1], [0, 1], [1, 2]]) ∧
      (Mesh.stripWith 0 2 [[0], [0, 1], [0, 1], [1, 2]]).Ascending ∧
      report ⟨true, true, true, true⟩ (Mesh.stripWith 0 2 [[0], [0, 1], [0, 1], [1, 2]]) =
        .error (.encoding .sourceBeyondCount) := by
  have accepted : Mesh.strip.store.setRelation 0 2 (Incidence.ofRows [[0], [0, 1], [0, 1], [1, 2]]) =
      .ok (Mesh.stripWith 0 2 [[0], [0, 1], [0, 1], [1, 2]]) := rfl
  obtain ⟨written, ascending⟩ := Mesh.strip_accepted.sound.written_rows accepted
  exact ⟨Mesh.strip_accepted, written, ascending, by cbv⟩

end Audit

namespace Store

/-- What a valid report says. -/
structure InOrder (s : Store) : Prop where
  entered : ∀ d, s.Covers d → s.Whole d ∨ s.Absent d
  within : ∀ d0 d1 r, s.relation? d0 d1 = some r → r.Within (s.sizeOf d1)
  different : ∀ d r, 1 ≤ d → d ≤ s.dim → s.relation? d 0 = some r → Different r.rows
  inverse : ∀ d0 d1 r q, d0 < d1 → s.relation? d0 d1 = some r → s.relation? d1 d0 = some q →
    r.Mutual q

/-- Rows in any order agree with a reverse exactly if the two relations are mutual. -/
theorem Coherent.turned_iff_mutual (h : s.Coherent) (ascending : s.Ascending)
    (within : ∀ d0 d1 r, s.relation? d0 d1 = some r → r.Within (s.sizeOf d1))
    (hr : s.relation? d0 d1 = some r) (hq : s.relation? d1 d0 = some q) :
    List.Forall₂ List.Perm (Incidence.turned r.rows (s.sizeOf d1)) q.rows ↔ r.Mutual q := by
  rw [h.turned_iff ascending hr hq (within _ _ _ hr)]
  have inside := (Incidence.within_iff_rows (ascending _ _ _ hr)).mp (within _ _ _ hr)
  have back := (Incidence.within_iff_rows (ascending _ _ _ hq)).mp (within _ _ _ hq)
  simp only [Incidence.Mutual, ← Incidence.multiplicity_natCast]
  constructor
  · intro counts e0 e1
    by_cases there : e1 < s.sizeOf d1
    · exact counts e1 there e0
    · -- Nothing refers to `e1`, and it has no row.
      have absent : ∀ row ∈ r.rows, (e1 : Int) ∉ row := fun row hrow he => by
        have := (inside row hrow e1 he).2
        omega
      rw [Incidence.multiplicity_eq_zero absent,
        Incidence.multiplicity_of_length_le (by rw [h.length_rows hq]; omega)]
  · intro counts e1 _ e0
    rcases lt_or_ge e0 0 with negative | nonneg
    · have absent : ∀ row ∈ q.rows, e0 ∉ row := fun row hrow he => by
        have := (back row hrow e0 he).1
        omega
      rw [Incidence.multiplicity_of_neg _ negative, Incidence.multiplicity_eq_zero absent]
    · obtain ⟨e, rfl⟩ := Int.eq_ofNat_of_zero_le nonneg
      exact counts e e1

end Store

namespace Audit

theorem dims_consistency_eq_nil_iff :
    dims (consistency s) = [] ↔ ∀ d, s.Covers d → s.Whole d ∨ s.Absent d := by
  simp only [List.eq_nil_iff_forall_not_mem, mem_dims_consistency, not_and, not_not]

theorem pairs_bounds_eq_nil_iff : pairs (bounds s) = [] ↔
    ∀ d0 d1 r, s.relation? d0 d1 = some r → r.Within (s.sizeOf d1) := by
  simp only [List.eq_nil_iff_forall_not_mem, Prod.forall, mem_pairs_bounds, not_exists, not_and,
    not_not]

theorem pairs_inverses_eq_nil_iff (ascending : s.Ascending) {found : List Finding}
    (h : inverses s = .ok found) : pairs found = [] ↔
      ∀ d0 d1 r q, d0 < d1 → s.relation? d0 d1 = some r → s.relation? d1 d0 = some q →
        List.Forall₂ List.Perm (Incidence.turned r.rows (s.sizeOf d1)) q.rows := by
  simp only [List.eq_nil_iff_forall_not_mem, Prod.forall, mem_pairs_inverses ascending h, not_exists,
    not_and, not_not]
  exact ⟨fun h d0 d1 r q rising => h d0 d1 rising r q, fun h d0 d1 rising r q => h d0 d1 r q rising⟩

/-- A report is valid exactly if the store is in order. -/
theorem valid_report_iff (coherent : s.Coherent) (ascending : s.Ascending) :
    (∃ found, report ⟨true, true, true, true⟩ s = .ok found ∧ found.valid = true) ↔ s.InOrder := by
  constructor
  · rintro ⟨report, reported, valid⟩
    obtain ⟨found, hfound⟩ : ∃ found, inverses s = .ok found := by
      rw [report_eq_lists] at reported
      exact (Outcome.map_eq_ok.mp reported).imp fun _ h => h.1
    rw [report_eq hfound] at reported
    cases reported
    rw [Report.valid_iff, dims_consistency_eq_nil_iff, pairs_bounds_eq_nil_iff,
      triples_duplicates_eq_nil_iff, pairs_inverses_eq_nil_iff ascending hfound] at valid
    obtain ⟨entered, within, different, inverse⟩ := valid
    exact ⟨entered, within, different, fun d0 d1 r q rising hr hq =>
      (coherent.turned_iff_mutual ascending within hr hq).mp (inverse d0 d1 r q rising hr hq)⟩
  · intro h
    obtain ⟨found, hfound⟩ := exists_inverses_iff.mpr fun d0 d1 r _ hr _ => h.within d0 d1 r hr
    refine ⟨_, report_eq hfound, ?_⟩
    rw [Report.valid_iff, dims_consistency_eq_nil_iff, pairs_bounds_eq_nil_iff,
      triples_duplicates_eq_nil_iff, pairs_inverses_eq_nil_iff ascending hfound]
    exact ⟨h.entered, h.within, h.different, fun d0 d1 r q rising hr hq =>
      (coherent.turned_iff_mutual ascending h.within hr hq).mpr (h.inverse d0 d1 r q rising hr hq)⟩

end Audit

namespace Store.InOrder

/-- Both ends of a relation are counted, but for the far end of one without entries that no cell has a
part in. -/
theorem ends (h : s.InOrder) (coherent : s.Coherent) (hr : s.relation? d0 d1 = some r) :
    (s.count? d0).isSome ∧
      ((s.count? d1).isSome ∨ r.targets = [] ∧ 0 < d1 ∧ d1 < s.dim ∧ d0 ≠ s.dim) := by
  obtain ⟨-, covers, sources⟩ := coherent.rows hr
  refine ⟨by simp [sources], ?_⟩
  rcases h.entered d1 covers with whole | absent
  · exact .inl whole.counted
  · obtain ⟨bottom, top⟩ := coherent.between_of_fresh absent.uncounted
    have none : s.sizeOf d1 = 0 := by rw [sizeOf, absent.uncounted, Option.getD_none]
    have within := h.within _ _ _ hr
    have empty : r.targets = [] := List.eq_nil_iff_forall_not_mem.mpr fun e he => by
      have := within e he
      omega
    have covered : 0 ≤ d1 ∧ d1 ≤ s.dim := covers
    refine .inr ⟨empty, by omega, by omega, ?_⟩
    rintro rfl
    rw [absent.byCell] at hr
    cases hr

theorem mutual_of_ne (h : s.InOrder) (differ : d0 ≠ d1) (hr : s.relation? d0 d1 = some r)
    (hq : s.relation? d1 d0 = some q) : r.Mutual q := by
  rcases lt_or_gt_of_ne differ with rising | falling
  · exact h.inverse d0 d1 r q rising hr hq
  · exact (h.inverse d1 d0 q r falling hq hr).symm

end Store.InOrder

namespace Mesh

/-- Whatever was written, a report is valid exactly if the store is in order. Then relations have entities
at both ends unless they have no entries, and two relations between different dimensions are inverse to
each other. -/
theorem valid_report_guarantees (accepted : m.Accepted) (written : m.store.Written s)
    (ascending : s.Ascending) :
    ((∃ found, Audit.report ⟨true, true, true, true⟩ s = .ok found ∧ found.valid = true) ↔
      s.InOrder) ∧
    (s.InOrder →
      (∀ d0 d1 r, s.relation? d0 d1 = some r → (s.count? d0).isSome ∧
        ((s.count? d1).isSome ∨ r.targets = [] ∧ 0 < d1 ∧ d1 < s.dim ∧ d0 ≠ s.dim)) ∧
      ∀ d0 d1 r q, d0 ≠ d1 → s.relation? d0 d1 = some r → s.relation? d1 d0 = some q →
        r.Mutual q) := by
  have coherent := accepted.coherent written
  refine ⟨valid_report_iff coherent ascending, fun inOrder => ?_⟩
  exact ⟨fun d0 d1 r hr => inOrder.ends coherent hr,
    fun d0 d1 r q differ hr hq => inOrder.mutual_of_ne differ hr hq⟩

/-- The triangles at each vertex of a strip, written by hand. -/
theorem valid_report_guarantees_strip :
    let s := stripWith 0 2 [[0], [0, 1], [0, 1], [1]]
    strip.Accepted ∧ strip.store.Written s ∧ s.Ascending ∧
      (∃ found, Audit.report ⟨true, true, true, true⟩ s = .ok found ∧ found.valid = true) ∧
      s.InOrder ∧
      (∀ d0 d1 r, s.relation? d0 d1 = some r → (s.count? d0).isSome ∧
        ((s.count? d1).isSome ∨ r.targets = [] ∧ 0 < d1 ∧ d1 < s.dim ∧ d0 ≠ s.dim)) ∧
      ∀ d0 d1 r q, d0 ≠ d1 → s.relation? d0 d1 = some r → s.relation? d1 d0 = some q →
        r.Mutual q := by
  have reported : Audit.report ⟨true, true, true, true⟩ (stripWith 0 2 [[0], [0, 1], [0, 1], [1]]) =
      .ok ⟨some [], some [], some [], some []⟩ := by cbv
  have accepted : strip.store.setRelation 0 2 (Incidence.ofRows [[0], [0, 1], [0, 1], [1]]) =
      .ok (stripWith 0 2 [[0], [0, 1], [0, 1], [1]]) := rfl
  obtain ⟨written, ascending⟩ := strip_accepted.sound.written_rows accepted
  obtain ⟨valid, guarantees⟩ := valid_report_guarantees strip_accepted written ascending
  have inOrder := valid.mp ⟨_, reported, rfl⟩
  exact ⟨strip_accepted, written, ascending, ⟨_, reported, rfl⟩, inOrder, guarantees inOrder⟩

/-- The edges at each vertex, none at any, though no edges are counted; and a triangle next to another one
that is not next to it. Neither is found. -/
theorem valid_report_escaped :
    let hollow := stripWith 0 1 [[], [], [], []]
    let lopsided := stripWith 2 2 [[1], []]
    strip.Accepted ∧
      (strip.store.Written hollow ∧ hollow.Ascending ∧
        (∃ found, Audit.report ⟨true, true, true, true⟩ hollow = .ok found ∧ found.valid = true) ∧
        (hollow.relation? 0 1).isSome ∧ hollow.count? 1 = none) ∧
      strip.store.Written lopsided ∧ lopsided.Ascending ∧
        (∃ found, Audit.report ⟨true, true, true, true⟩ lopsided = .ok found ∧ found.valid = true) ∧
        ∃ r, lopsided.relation? 2 2 = some r ∧ ¬ r.Mutual r := by
  have empty : Audit.report ⟨true, true, true, true⟩ (stripWith 0 1 [[], [], [], []]) =
      .ok ⟨some [], some [], some [], some []⟩ := by cbv
  have level : Audit.report ⟨true, true, true, true⟩ (stripWith 2 2 [[1], []]) =
      .ok ⟨some [], some [], some [], some []⟩ := by cbv
  have accepted : strip.store.setRelation 0 1 (Incidence.ofRows [[], [], [], []]) =
      .ok (stripWith 0 1 [[], [], [], []]) := rfl
  have accepted' : strip.store.setRelation 2 2 (Incidence.ofRows [[1], []]) =
      .ok (stripWith 2 2 [[1], []]) := rfl
  obtain ⟨written, ascending⟩ := strip_accepted.sound.written_rows accepted
  obtain ⟨written', ascending'⟩ := strip_accepted.sound.written_rows accepted'
  refine ⟨strip_accepted, ⟨written, ascending, ⟨_, empty, rfl⟩, rfl, rfl⟩, written', ascending',
    ⟨_, level, rfl⟩, _, rfl, fun back => ?_⟩
  exact absurd (back 0 1) (by decide)

end Mesh

end MeshIncidence
