import Mathlib
import MeshIncidence.Proofs.Store.Growth
import MeshIncidence.Resolution

/-!
Stores by accepted writes. Writes that are accepted only append, so what was recorded stays as it
was. They also keep a store coherent: the vertices, the cells and the cells' vertices are there, and
every relation has a row for each of its sources. Nothing is said of what the rows hold, nor that a
dimension is recorded whole.
-/
namespace MeshIncidence.Store

variable {s t u : Store} {d d0 d1 : Int}

/-- Accepted writes lead from one store to another. -/
inductive Written (s : Store) : Store → Prop
  | refl : Written s s
  | count {t u : Store} {dim size : Int} (before : Written s t)
      (accepted : t.setCount dim size = .ok u) : Written s u
  | relation {t u : Store} {d0 d1 : Int} {r : Incidence} (before : Written s t)
      (accepted : t.setRelation d0 d1 r = .ok u) : Written s u

theorem Written.trans (h : s.Written t) (g : t.Written u) : s.Written u := by
  induction g with
  | refl => exact h
  | count _ accepted ih => exact ih.count accepted
  | relation _ accepted ih => exact ih.relation accepted

theorem Written.grows (h : s.Written t) : s.Grows t := by
  induction h with
  | refl => exact .refl s
  | count _ accepted ih => exact ih.trans (grows_setCount accepted)
  | relation _ accepted ih => exact ih.trans (grows_setRelation accepted)

theorem Written.counts_prefix (h : s.Written t) : s.counts <+: t.counts := by
  induction h with
  | refl => exact List.prefix_refl _
  | count _ accepted ih =>
    obtain ⟨-, -, -, rfl⟩ := setCount_ok accepted
    exact ih.trans (List.prefix_append _ _)
  | relation _ accepted ih => rwa [(counts_setRelation accepted).1]

theorem Written.relations_prefix (h : s.Written t) : s.relations <+: t.relations := by
  induction h with
  | refl => exact List.prefix_refl _
  | count _ accepted ih => rwa [(relations_setCount accepted).1]
  | relation _ accepted ih =>
    obtain ⟨-, -, -, -, rfl⟩ := setRelation_ok accepted
    exact ih.trans (List.prefix_append _ _)

/-- Accepted writes lead from one store to the other, and none of them is of another count or
relation than these. -/
structure Frame (counts : List Int) (pairs : List (Int × Int)) (s t : Store) : Prop where
  written : s.Written t
  count : ∀ {d}, d ∉ counts → t.count? d = s.count? d
  relation : ∀ {a b}, (a, b) ∉ pairs → t.relation? a b = s.relation? a b

namespace Frame

variable {counts counts' : List Int} {pairs pairs' : List (Int × Int)}

theorem refl : Frame counts pairs s s := ⟨.refl, fun _ => rfl, fun _ => rfl⟩

theorem trans (h : Frame counts pairs s t) (g : Frame counts pairs t u) : Frame counts pairs s u where
  written := h.written.trans g.written
  count free := (g.count free).trans (h.count free)
  relation free := (g.relation free).trans (h.relation free)

theorem mono (h : Frame counts pairs s t) (hc : counts ⊆ counts') (hp : pairs ⊆ pairs') :
    Frame counts' pairs' s t where
  written := h.written
  count free := h.count fun found => free (hc found)
  relation free := h.relation fun found => free (hp found)

end Frame

theorem frame_setRelation {r : Incidence} (h : s.setRelation d0 d1 r = .ok t) :
    Frame [] [(d0, d1)] s t where
  written := .relation .refl h
  count _ := by simp [count?, (counts_setRelation h).1]
  relation free := by
    rw [relation?_setRelation h, if_neg]
    simpa using free

/-- What writes can neither lose nor break. -/
structure Coherent (s : Store) : Prop where
  positive : 1 ≤ s.dim
  bottom : (s.count? 0).isSome
  top : (s.count? s.dim).isSome
  cells : (s.relation? s.dim 0).isSome
  covers : ∀ {d n}, s.count? d = some n → s.Covers d
  rows : ∀ {a b r}, s.relation? a b = some r →
    s.Covers a ∧ s.Covers b ∧ s.count? a = some r.sourceCount

theorem Grows.count_isSome (h : s.Grows t) (hd : (s.count? d).isSome) : (t.count? d).isSome := by
  obtain ⟨n, hn⟩ := Option.isSome_iff_exists.mp hd
  simp [h.count hn]

theorem Grows.relation_isSome (h : s.Grows t) (hr : (s.relation? d0 d1).isSome) :
    (t.relation? d0 d1).isSome := by
  obtain ⟨r, hr⟩ := Option.isSome_iff_exists.mp hr
  simp [h.relation hr]

theorem Grows.covers_iff (h : s.Grows t) : t.Covers d ↔ s.Covers d := by
  simp [Covers, h.dim]

theorem Coherent.setCount {dim size : Int} (h : s.Coherent) (accepted : s.setCount dim size = .ok t) :
    t.Coherent := by
  have grows := grows_setCount accepted
  obtain ⟨covers, -⟩ := setCount_ok accepted
  have new := count?_setCount accepted
  have same : ∀ a b, t.relation? a b = s.relation? a b := fun a b => by
    simp [relation?, (relations_setCount accepted).1]
  constructor
  case positive => exact grows.dim ▸ h.positive
  case bottom => exact grows.count_isSome h.bottom
  case top => exact grows.dim ▸ grows.count_isSome h.top
  case cells => exact grows.dim ▸ grows.relation_isSome h.cells
  case covers =>
    intro d n hd
    rw [new] at hd
    rw [grows.covers_iff]
    split at hd
    · rename_i he
      exact he ▸ covers
    · exact h.covers hd
  case rows =>
    intro a b r hr
    rw [same] at hr
    obtain ⟨ca, cb, ha⟩ := h.rows hr
    exact ⟨grows.covers_iff.mpr ca, grows.covers_iff.mpr cb, grows.count ha⟩

theorem Coherent.setRelation {r : Incidence} (h : s.Coherent)
    (accepted : s.setRelation d0 d1 r = .ok t) : t.Coherent := by
  have grows := grows_setRelation accepted
  obtain ⟨c0, c1, -, sources, -⟩ := setRelation_ok accepted
  have new := relation?_setRelation accepted
  have same : ∀ d, t.count? d = s.count? d := fun d => by
    simp [count?, (counts_setRelation accepted).1]
  constructor
  case positive => exact grows.dim ▸ h.positive
  case bottom => exact grows.count_isSome h.bottom
  case top => exact grows.dim ▸ grows.count_isSome h.top
  case cells => exact grows.dim ▸ grows.relation_isSome h.cells
  case covers =>
    intro d n hd
    rw [same] at hd
    exact grows.covers_iff.mpr (h.covers hd)
  case rows =>
    intro a b q hq
    rw [new] at hq
    rw [same, grows.covers_iff, grows.covers_iff]
    split at hq
    · rename_i hab
      cases hq
      exact ⟨hab.1 ▸ c0, hab.2 ▸ c1, hab.1 ▸ sources⟩
    · exact h.rows hq

theorem Coherent.written (h : s.Coherent) (w : s.Written t) : t.Coherent := by
  induction w with
  | refl => exact h
  | count _ accepted ih => exact ih.setCount accepted
  | relation _ accepted ih => exact ih.setRelation accepted

/-- A dimension that is counted, with its part in the cells and the vertices of its entities. -/
structure Whole (s : Store) (d : Int) : Prop where
  counted : (s.count? d).isSome
  byCell : d ≠ s.dim → (s.relation? s.dim d).isSome
  byVertex : d ≠ 0 → (s.relation? d 0).isSome

theorem whole_iff : s.Whole d ↔ (s.count? d).isSome ∧
    (d ≠ s.dim → (s.relation? s.dim d).isSome) ∧ (d ≠ 0 → (s.relation? d 0).isSome) :=
  ⟨fun h => ⟨h.counted, h.byCell, h.byVertex⟩, fun h => ⟨h.1, h.2.1, h.2.2⟩⟩

/-- A dimension that is neither counted nor has a part in the cells, nor vertices of its entities. -/
structure Absent (s : Store) (d : Int) : Prop where
  uncounted : s.count? d = none
  byCell : s.relation? s.dim d = none
  byVertex : s.relation? d 0 = none

theorem absent_iff : s.Absent d ↔
    s.count? d = none ∧ s.relation? s.dim d = none ∧ s.relation? d 0 = none :=
  ⟨fun h => ⟨h.uncounted, h.byCell, h.byVertex⟩, fun h => ⟨h.1, h.2.1, h.2.2⟩⟩

theorem Whole.grows (h : s.Whole d) (g : s.Grows t) : t.Whole d where
  counted := g.count_isSome h.counted
  byCell below := by
    rw [g.dim] at below ⊢
    exact g.relation_isSome (h.byCell below)
  byVertex above := g.relation_isSome (h.byVertex above)

theorem Coherent.whole_bottom (h : s.Coherent) : s.Whole 0 := ⟨h.bottom, fun _ => h.cells, by simp⟩

theorem Coherent.whole_top (h : s.Coherent) : s.Whole s.dim := ⟨h.top, by simp, fun _ => h.cells⟩

/-- Vertices and cells are always counted. -/
theorem Coherent.between_of_fresh (h : s.Coherent) (fresh : s.count? d = none) : d ≠ 0 ∧ d ≠ s.dim := by
  constructor
  · rintro rfl
    have := h.bottom
    simp [fresh] at this
  · rintro rfl
    have := h.top
    simp [fresh] at this

theorem Coherent.covers_of_whole (h : s.Coherent) (hd : s.Whole d) : s.Covers d := by
  obtain ⟨n, hn⟩ := Option.isSome_iff_exists.mp hd.counted
  exact h.covers hn

end MeshIncidence.Store

namespace MeshIncidence.Resolution

theorem recorded_eq_true_iff {s : Store} {d : Int} : recorded s d = .ok true ↔ s.Whole d := by
  rw [Store.whole_iff]
  unfold recorded
  cases s.count? d <;> cases s.relation? s.dim d <;> cases s.relation? d 0 <;> simp

theorem recorded_eq_false_iff {s : Store} {d : Int} : recorded s d = .ok false ↔ s.Absent d := by
  rw [Store.absent_iff]
  unfold recorded
  cases s.count? d <;> cases s.relation? s.dim d <;> cases s.relation? d 0 <;> simp <;> split <;> simp

end MeshIncidence.Resolution
