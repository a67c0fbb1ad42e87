import Mathlib
import MeshIncidence.Proofs.Derivation.Composition
import MeshIncidence.Proofs.Outcome
import MeshIncidence.Proofs.Request.Effects

/-!
What requests record, on any store whatever. All of them write by accepted writes alone; a derivation
writes once, in the end. A request that succeeds has what it was made for recorded, and so it can be
repeated: then it finds that again and writes nothing.
-/
namespace MeshIncidence

namespace Store

variable {s t : Store} {d d0 d1 : Int}

/-- The relation is recorded, between dimensions that are covered. -/
structure Holds (s : Store) (d0 d1 : Int) : Prop where
  first : s.Covers d0
  second : s.Covers d1
  recorded : (s.relation? d0 d1).isSome

theorem Holds.grows (h : s.Holds d0 d1) (g : s.Grows t) : t.Holds d0 d1 :=
  ⟨g.covers_iff.mpr h.first, g.covers_iff.mpr h.second, g.relation_isSome h.recorded⟩

theorem hasRelation_eq_true_iff : s.hasRelation d0 d1 = .ok true ↔ s.Holds d0 d1 := by
  constructor
  · intro h
    obtain ⟨r, hr, some⟩ := Outcome.map_eq_ok.mp h
    unfold findRelation within at hr
    split at hr
    · rename_i c0
      split at hr
      · rename_i c1
        cases hr
        exact ⟨c0, c1, some⟩
      · cases hr
    · cases hr
  · intro h
    rw [hasRelation_of_covers h.first h.second, h.recorded]

theorem holds_of_setRelation {r : Incidence} (h : s.setRelation d0 d1 r = .ok t) :
    t.Holds d0 d1 := by
  obtain ⟨c0, c1, -⟩ := setRelation_ok h
  have grows := grows_setRelation h
  refine ⟨grows.covers_iff.mpr c0, grows.covers_iff.mpr c1, ?_⟩
  simp [relation?_setRelation h]

theorem Coherent.holds_vertices (h : s.Coherent) (w : s.Whole d) (above : d ≠ 0) : s.Holds d 0 :=
  ⟨h.covers_of_whole w, h.covers_of_whole h.whole_bottom, w.byVertex above⟩

end Store

open Request

namespace Derivation

variable {d0 d1 d : Int}

theorem silent_step {on : Store → Prop} (d0 d1 a b : Int) : Silent on (step d0 d1 a b) := by
  refine .bind (.read _) fun there => ?_
  split
  · exact .pure ()
  · exact .fail _

theorem single_setRelation (d0 d1 : Int) (r : Incidence) :
    Single (write fun s => s.setRelation d0 d1 r) :=
  single_write fun h => .relation .refl h

theorem ensures_setRelation (d0 d1 : Int) (r : Incidence) :
    Ensures (write fun s => s.setRelation d0 d1 r) fun _ s => s.Holds d0 d1 :=
  fun _ _ _ h => Store.holds_of_setRelation (write_eq_ok h)

theorem single_transposeInto (d0 d1 : Int) : Single (transposeInto d0 d1) := by
  refine .bind (.note _) fun _ => .bind (.read _) fun found => ?_
  cases found with
  | none => exact (Silent.fail _).single
  | some r =>
    exact .bind (.read _) fun n => .bind (.lift _) fun turned => single_setRelation d0 d1 turned

theorem ensures_transposeInto (d0 d1 : Int) :
    Ensures (transposeInto d0 d1) fun _ s => s.Holds d0 d1 := by
  refine .bind fun _ => .bind fun found => ?_
  cases found with
  | none => exact ensures_fail _
  | some r => exact .bind fun n => .bind fun turned => ensures_setRelation d0 d1 turned

theorem single_composeInto (d0 d1 d : Int) : Single (composeInto d0 d1 d) := by
  have last : ∀ found, Single (finish d0 d1 found) := fun found =>
    .bind (.note _) fun _ => single_setRelation d0 d1 _
  refine .bind (.note _) fun _ => ?_
  split
  · exact (Silent.fail _).single
  refine .bind (silent_step d0 d1 d0 d) fun _ => .bind (silent_step d0 d1 d d1) fun _ =>
    .bind (.read _) fun between => .bind (.read _) fun onward => ?_
  dsimp only
  split
  · exact .bind (.lift _) last
  · exact .bind (.read _) fun wholes => .bind (.read _) fun parts => .bind (.lift _) last

theorem ensures_composeInto (d0 d1 d : Int) :
    Ensures (composeInto d0 d1 d) fun _ s => s.Holds d0 d1 := by
  have last : ∀ found, Ensures (finish d0 d1 found) fun _ s => s.Holds d0 d1 := fun found =>
    .bind fun _ => ensures_setRelation d0 d1 _
  refine .bind fun _ => ?_
  split
  · exact ensures_fail _
  refine .bind fun _ => .bind fun _ => .bind fun between => .bind fun onward => ?_
  dsimp only
  split
  · exact .bind last
  · exact .bind fun wholes => .bind fun parts => .bind last

end Derivation

namespace Resolution

variable {shape : Shape} {resolve : Int → Int → Request Unit} {d d0 d1 : Int}

theorem writes_numberInto (shape : Shape) (d : Int) : Writes (numberInto shape d) := by
  refine .bind (Silent.note _).writes fun _ => .bind (Silent.lift _).writes fun e => ?_
  refine .bind Silent.store.writes fun s => .bind (Silent.lift _).writes fun cells => ?_
  refine .bind (Silent.lift _).writes fun touching => .bind (Silent.lift _).writes fun k => ?_
  refine .bind (writes_write fun h => .count .refl h) fun _ => ?_
  refine .bind (writes_write fun h => .relation .refl h) fun _ => ?_
  refine .bind (Silent.lift _).writes fun vertices => ?_
  refine .bind (writes_write fun h => .relation .refl h) fun _ => ?_
  exact .bind (Silent.note _).writes fun _ => (Silent.pure _).writes

/-- Whatever its dimension, what has been numbered is whole. -/
theorem ensures_numberInto (shape : Shape) (d : Int) :
    Ensures (numberInto shape d) fun n s => s.Covers d ∧ s.Whole d ∧ s.sizeOf d = n := by
  refine .bind fun _ => .bind fun e => .bind fun s => .bind fun cells => .bind fun touching =>
    .bind fun k => ?_
  intro p n q h
  obtain ⟨_, t, ht, h⟩ := bind_eq_ok_iff.mp h
  obtain ⟨_, u, hu, h⟩ := bind_eq_ok_iff.mp h
  obtain ⟨_, _, same, h⟩ := bind_eq_ok_iff.mp h
  obtain ⟨-, rfl⟩ := Prod.mk.inj same
  obtain ⟨_, v, hv, h⟩ := bind_eq_ok_iff.mp h
  cases h
  have ht := write_eq_ok ht
  have hu := write_eq_ok hu
  have hv := write_eq_ok hv
  have later := (Store.grows_setRelation hu).trans (Store.grows_setRelation hv)
  have count : v.store.count? d = some k.count := later.count (by simp [Store.count?_setCount ht])
  have cells := (Store.holds_of_setRelation hu).grows (Store.grows_setRelation hv)
  have vertices := Store.holds_of_setRelation hv
  refine ⟨vertices.first, ⟨by simp [count], fun _ => ?_, fun _ => vertices.recorded⟩, ?_⟩
  · rw [later.dim]
    exact cells.recorded
  · simp [Store.sizeOf, count]

theorem entitiesBy_whole {p : Progress} (covers : p.store.Covers d) (whole : p.store.Whole d) :
    entitiesBy resolve shape d p = (.ok (p.store.sizeOf d), p) := by
  unfold entitiesBy
  rw [bind_of_ok (store_apply p), if_pos covers,
    bind_of_ok ((lift_apply _ p).trans (by rw [recorded_eq_true_iff.mpr whole]))]
  rfl

theorem writes_entitiesBy (resolving : ∀ a b, Writes (resolve a b)) :
    Writes (entitiesBy resolve shape d) := by
  refine .bind Silent.store.writes fun s => ?_
  split
  · refine .bind (Silent.lift _).writes fun there => ?_
    split
    · exact (Silent.pure _).writes
    · exact (resolving _ _).bind fun _ => writes_numberInto shape d
  · exact (Silent.fail _).writes

theorem ensures_entitiesBy :
    Ensures (entitiesBy resolve shape d) fun n s => s.Covers d ∧ s.Whole d ∧ s.sizeOf d = n := by
  intro p n q h
  unfold entitiesBy at h
  rw [bind_of_ok (store_apply p)] at h
  split at h
  · rename_i covers
    obtain ⟨there, _, hthere, h⟩ := bind_eq_ok_iff.mp h
    obtain ⟨value, rfl⟩ := Prod.mk.inj hthere
    split at h
    · rename_i yes
      cases h
      exact ⟨covers, recorded_eq_true_iff.mp (yes ▸ value), rfl⟩
    · obtain ⟨_, _, -, h⟩ := bind_eq_ok_iff.mp h
      exact ensures_numberInto shape d _ _ _ h
  · cases h

theorem lasting_entitiesBy : Lasting (entitiesBy resolve shape d) := by
  intro p n q h u grows
  -- Success leaves the dimension whole, and what is whole is only read.
  obtain ⟨covers, whole, size⟩ := ensures_entitiesBy p n q h
  obtain ⟨c, hc⟩ := Option.isSome_iff_exists.mp whole.counted
  have same : u.store.sizeOf d = n := by
    rw [← size, Store.sizeOf, Store.sizeOf, hc, grows.count hc]
  rw [entitiesBy_whole (grows.covers_iff.mpr covers) (whole.grows grows), same]
  exact ⟨rfl, rfl⟩

/-- Whether it was there or has been found, the relation is recorded. -/
theorem ensures_unless {x : Request Unit} (found : Ensures x fun _ s => s.Holds d0 d1) :
    Ensures (do if ← Request.read fun s => s.hasRelation d0 d1 then Pure.pure () else x)
      fun _ s => s.Holds d0 d1 := by
  intro p a q h
  obtain ⟨there, t, ht, h⟩ := bind_eq_ok_iff.mp h
  obtain ⟨value, rfl⟩ := Prod.mk.inj ht
  split at h
  · rename_i yes
    cases h
    exact Store.hasRelation_eq_true_iff.mp (yes ▸ value)
  · exact found _ _ _ h

theorem writes_deriveBy (resolving : ∀ a b, Writes (resolve a b)) :
    Writes (deriveBy resolve d0 d1) := by
  unfold deriveBy
  split
  · exact (resolving _ _).bind fun _ => (Derivation.single_transposeInto d0 d1).writes
  split
  · exact (Silent.fail _).writes
  · refine Silent.store.writes.bind fun s => (resolving _ _).bind fun _ => ?_
    exact (resolving _ _).bind fun _ => (Derivation.single_composeInto _ _ _).writes

theorem ensures_deriveBy : Ensures (deriveBy resolve d0 d1) fun _ s => s.Holds d0 d1 := by
  unfold deriveBy
  split
  · exact .bind fun _ => Derivation.ensures_transposeInto d0 d1
  split
  · exact ensures_fail _
  · exact .bind fun s => .bind fun _ => .bind fun _ => Derivation.ensures_composeInto _ _ _

theorem writes_settleBy (resolving : ∀ a b, Writes (resolve a b)) :
    Writes (settleBy resolve d0 d1) := by
  refine .bind (Silent.read _).writes fun there => ?_
  split
  · exact (Silent.pure _).writes
  · exact (writes_deriveBy resolving).bind fun _ => (Silent.note _).writes

theorem ensures_settleBy : Ensures (settleBy resolve d0 d1) fun _ s => s.Holds d0 d1 := by
  refine ensures_unless fun p a q h => ?_
  obtain ⟨_, t, ht, h⟩ := bind_eq_ok_iff.mp h
  cases h
  exact ensures_deriveBy p _ t ht

theorem writes_relationWithin (n : Nat) (d0 d1 : Int) : Writes (relationWithin shape n d0 d1) := by
  induction n generalizing d0 d1 with
  | zero => exact (Silent.fail _).writes
  | succ n ih =>
    refine .bind (Silent.note _).writes fun _ => .bind (Silent.read _).writes fun there => ?_
    split
    · exact (Silent.pure _).writes
    · refine (writes_entitiesBy ih).bind fun _ => ?_
      exact (writes_entitiesBy ih).bind fun _ => writes_settleBy ih

theorem ensures_relationWithin (n : Nat) :
    Ensures (relationWithin shape n d0 d1) fun _ s => s.Holds d0 d1 := by
  cases n with
  | zero => exact ensures_fail _
  | succ n => exact .bind fun _ => ensures_unless (.bind fun _ => .bind fun _ => ensures_settleBy)

theorem relationWithin_holds {p : Progress} (h : p.store.Holds d0 d1) (n : Nat) :
    relationWithin shape (n + 1) d0 d1 p =
      (.ok (), { p with notes := p.notes ++ [.requested d0 d1] }) := by
  unfold relationWithin
  rw [bind_of_ok (note_apply _ p),
    bind_of_ok ((read_apply _ _).trans (by rw [Store.hasRelation_eq_true_iff.mpr h]))]
  rfl

theorem lasting_entities (shape : Shape) (d : Int) : Lasting (entities shape d) := lasting_entitiesBy

theorem lasting_relation (shape : Shape) (d0 d1 : Int) : Lasting (relation shape d0 d1) := by
  intro p a q h u grows
  have holds : u.store.Holds d0 d1 := (ensures_relationWithin nesting p a q h).grows grows
  rw [relation, nesting, relationWithin_holds holds]
  exact ⟨rfl, rfl⟩

theorem writes_entities (shape : Shape) (d : Int) : Writes (entities shape d) :=
  writes_entitiesBy fun _ _ => writes_relationWithin _ _ _

theorem writes_relation (shape : Shape) (d0 d1 : Int) : Writes (relation shape d0 d1) :=
  writes_relationWithin _ _ _

theorem writes_everything (shape : Shape) : Writes (everything shape) := by
  refine .bind Silent.store.writes fun s => .bind (.forM (fun d => ?_) _) fun _ => ?_
  · exact (writes_entities shape d).discard
  · exact .forM (fun d0 => .forM (writes_relation shape d0) _) _

/-- Everything is asked for in the same order as before, since a store keeps its dimension. -/
theorem lasting_everything (shape : Shape) : Lasting (everything shape) := by
  intro p a q h u grows
  have kept := (writes_everything shape p).grows
  rw [h] at kept
  have dims : u.store.dimensions = p.store.dimensions := by
    rw [Store.dimensions, (kept.trans grows).dim, Store.dimensions]
  unfold everything at h ⊢
  rw [bind_of_ok (store_apply _)] at h ⊢
  rw [dims]
  have counts : Lasting (p.store.dimensions.forM fun d =>
      entities shape d >>= fun _ => Pure.pure ()) :=
    .forM (fun d => (lasting_entities shape d).discard) (fun d => (writes_entities shape d).discard) _
  have writes : ∀ d0, Writes (p.store.dimensions.forM fun d1 => relation shape d0 d1) := fun d0 =>
    .forM (writes_relation shape d0) _
  have relations : Lasting (p.store.dimensions.forM fun d0 =>
      p.store.dimensions.forM fun d1 => relation shape d0 d1) :=
    .forM (fun d0 => .forM (lasting_relation shape d0) (writes_relation shape d0) _) writes _
  exact counts.bind (fun _ => relations) (fun _ => .forM writes _) p a q h u grows

end Resolution

end MeshIncidence
