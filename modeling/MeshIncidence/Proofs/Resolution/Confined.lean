import Mathlib
import MeshIncidence.Proofs.Derivation.Gathering
import MeshIncidence.Proofs.Numbering.Steps
import MeshIncidence.Proofs.Resolution.Missteps
import MeshIncidence.Proofs.Resolution.Recording

/-!
Requests on coherent stores, which need not be faithful to a mesh. What is asked for first is
recorded by the time it is read, and it does not record what is still to be written. So no request
fails for a misstep, and what it records is confined to a few relations. The argument climbs by
nesting, as the one for faithful stores does.
-/
namespace MeshIncidence

open Request

/-- How a request ends on a store: not with a misstep, and with no writes but of these counts and
relations. -/
structure Confined {α : Type} (counts : List Int) (pairs : List (Int × Int)) (s : Store)
    (ended : Except Fault α × Progress) : Prop where
  steady : Steady ended.1
  frame : s.Frame counts pairs ended.2.store

namespace Confined

variable {α β : Type} {counts counts' : List Int} {pairs pairs' : List (Int × Int)} {s : Store}
  {notes notes' : List Note} {x : Request α} {f : α → Request β}

theorem mono {ended : Except Fault α × Progress} (h : Confined counts pairs s ended)
    (hc : counts ⊆ counts') (hp : pairs ⊆ pairs') : Confined counts' pairs' s ended :=
  ⟨h.steady, h.frame.mono hc hp⟩

theorem still {outcome : Except Fault α} (h : Steady outcome) :
    Confined counts pairs s (outcome, ⟨s, notes⟩) := ⟨h, .refl⟩

theorem failed {e : Fault} {q : Progress}
    (h : Confined counts pairs s ((.error e : Except Fault α), q)) :
    Confined counts pairs s ((.error e : Except Fault β), q) := ⟨.error (h.steady e rfl), h.frame⟩

theorem bind (hx : Confined counts' pairs' s (x ⟨s, notes⟩)) (hc : counts' ⊆ counts)
    (hp : pairs' ⊆ pairs)
    (hf : ∀ a t more, x ⟨s, notes⟩ = (.ok a, ⟨t, more⟩) → s.Frame counts' pairs' t →
      Confined counts pairs t (f a ⟨t, more⟩)) :
    Confined counts pairs s ((x >>= f) ⟨s, notes⟩) := by
  rw [bind_apply]
  rcases hxp : x ⟨s, notes⟩ with ⟨e | a, ⟨t, more⟩⟩
  · rw [hxp] at hx
    exact (hx.mono hc hp).failed
  · rw [hxp] at hx
    have next := hf a t more hxp hx.frame
    exact ⟨next.steady, (hx.frame.mono hc hp).trans next.frame⟩

/-- What was recorded before counts towards what may be. -/
theorem after {t : Store} {ended : Except Fault α × Progress} (h : s.Frame counts pairs t)
    (next : Confined counts pairs t ended) : Confined counts pairs s ended :=
  ⟨next.steady, h.trans next.frame⟩

theorem note_bind {n : Note} {f : Unit → Request β}
    (h : Confined counts pairs s (f () ⟨s, notes ++ [n]⟩)) :
    Confined counts pairs s ((note n >>= f) ⟨s, notes⟩) := h

theorem lift_bind {outcome : Except Fault α} (h : Steady outcome)
    (hf : ∀ a, outcome = .ok a → Confined counts pairs s (f a ⟨s, notes⟩)) :
    Confined counts pairs s ((lift outcome >>= f) ⟨s, notes⟩) :=
  bind (still h) (List.nil_subset _) (List.nil_subset _) fun a t more ended _ => by
    cases ended
    exact hf a rfl

theorem read_bind {g : Store → Except Fault α} (h : Steady (g s))
    (hf : ∀ a, g s = .ok a → Confined counts pairs s (f a ⟨s, notes⟩)) :
    Confined counts pairs s ((read g >>= f) ⟨s, notes⟩) :=
  lift_bind (f := f) h hf

theorem of_ok {a : α} (h : x ⟨s, notes⟩ = (.ok a, ⟨s, notes'⟩))
    (hf : Confined counts pairs s (f a ⟨s, notes'⟩)) :
    Confined counts pairs s ((x >>= f) ⟨s, notes⟩) := by
  rwa [bind_of_ok h]

end Confined

namespace Derivation

variable {d0 d1 d : Int} {s : Store} {notes : List Note}

theorem confined_setRelation {r : Incidence} (c0 : s.Covers d0) (c1 : s.Covers d1)
    (fresh : s.relation? d0 d1 = none) (rows : s.count? d0 = some r.sourceCount) :
    Confined [] [(d0, d1)] s (write (fun s => s.setRelation d0 d1 r) ⟨s, notes⟩) := by
  obtain ⟨t, ht⟩ := Store.setRelation_fresh c0 c1 fresh rows
  rw [write_of_ok (f := fun s => s.setRelation d0 d1 r) ht]
  exact ⟨.ok (), Store.frame_setRelation ht⟩

theorem confined_transposeInto (reverse : s.Holds d1 d0) (counted : (s.count? d0).isSome)
    (fresh : s.relation? d0 d1 = none) :
    Confined [] [(d0, d1)] s (transposeInto d0 d1 ⟨s, notes⟩) := by
  obtain ⟨r, hr⟩ := Option.isSome_iff_exists.mp reverse.recorded
  obtain ⟨n, hn⟩ := Option.isSome_iff_exists.mp counted
  have found : s.findRelation d1 d0 = .ok (some r) := by
    rw [Store.findRelation_of_covers reverse.first reverse.second, hr]
  refine .note_bind (.of_ok (by rw [read_apply, found]) ?_)
  refine .of_ok (by rw [read_apply, Store.size_of_some reverse.second hn]) ?_
  refine .lift_bind (Incidence.steady_transpose? r n) fun turned hturned => ?_
  apply confined_setRelation reverse.second reverse.first fresh
  rw [hn, Incidence.sourceCount_of_transpose? hturned]

theorem confined_composeInto (h : s.Coherent) (falling : ¬ d0 < d1) (first : s.Holds d0 d)
    (second : s.Holds d d1) (fresh : s.relation? d0 d1 = none)
    (wholes : d0 ≠ d1 → s.Holds d0 0) (parts : d0 ≠ d1 → s.Holds d1 0) :
    Confined [] [(d0, d1)] s (composeInto d0 d1 d ⟨s, notes⟩) := by
  obtain ⟨between, hb⟩ := Option.isSome_iff_exists.mp first.recorded
  obtain ⟨onward, ho⟩ := Option.isSome_iff_exists.mp second.recorded
  have covers : ∀ {a b r}, s.relation? a b = some r → s.Covers a ∧ s.Covers b := fun hr =>
    ⟨(h.rows hr).1, (h.rows hr).2.1⟩
  have sources := (h.rows hb).2.2
  have last : ∀ (found : List (List Int)) (notes : List Note), found.length = between.sourceCount →
      Confined [] [(d0, d1)] s (finish d0 d1 found ⟨s, notes⟩) := by
    intro found notes length
    apply Confined.note_bind
    apply confined_setRelation first.first second.second fresh
    rw [Incidence.sourceCount_ofRows, length, sources]
  by_cases level : d0 = d1
  · subst level
    rw [composeInto_level covers hb ho]
    refine .lift_bind (steady_neighbourRows _ _) fun found hfound => last found _ ?_
    rw [length_neighbourRows hfound, Incidence.length_rows]
  · obtain ⟨v, hv⟩ := Option.isSome_iff_exists.mp (wholes level).recorded
    obtain ⟨w, hw⟩ := Option.isSome_iff_exists.mp (parts level).recorded
    have same : v.sourceCount = between.sourceCount := by
      have := (h.rows hv).2.2
      rw [sources] at this
      exact (Option.some.inj this).symm
    rw [composeInto_parts covers (by omega) hb ho hv hw]
    refine .lift_bind (steady_partRows _ _ _ _) fun found hfound => last found _ ?_
    rw [length_partRows (by simp only [Incidence.length_rows, same]) hfound, Incidence.length_rows]

end Derivation

namespace Resolution

variable {shape : Shape} {resolve : Int → Int → Request Unit} {d d0 d1 : Int} {n : Nat} {s : Store}
  {notes : List Note}

theorem confined_settleBy {counts : List Int} {pairs : List (Int × Int)} (c0 : s.Covers d0)
    (c1 : s.Covers d1)
    (derived : s.relation? d0 d1 = none →
      ∀ notes, Confined counts pairs s (deriveBy resolve d0 d1 ⟨s, notes⟩)) :
    Confined counts pairs s (settleBy resolve d0 d1 ⟨s, notes⟩) := by
  refine .read_bind (s.steady_hasRelation d0 d1) fun there hthere => ?_
  split
  · exact .still (.ok ())
  · rename_i no
    rw [Store.hasRelation_of_covers c0 c1] at hthere
    cases hthere
    refine .bind (derived (by simpa using no) _) (List.Subset.refl _) (List.Subset.refl _) ?_
    exact fun _ t more _ _ => ⟨.ok (), .refl⟩

/-- Between dimensions that are whole, all that is left to do is to derive the relation. -/
theorem confined_between {counts : List Int} {pairs : List (Int × Int)} (h : s.Coherent)
    (w0 : s.Whole d0) (w1 : s.Whole d1) (derived : s.relation? d0 d1 = none →
      ∀ notes, Confined counts pairs s (deriveBy (relationWithin shape n) d0 d1 ⟨s, notes⟩)) :
    Confined counts pairs s (relationWithin shape (n + 1) d0 d1 ⟨s, notes⟩) := by
  have c0 := h.covers_of_whole w0
  have c1 := h.covers_of_whole w1
  refine .note_bind (.read_bind (s.steady_hasRelation d0 d1) fun there _ => ?_)
  split
  · exact .still (.ok ())
  · refine .of_ok (entitiesBy_whole (p := ⟨s, _⟩) c0 w0) ?_
    refine .of_ok (entitiesBy_whole (p := ⟨s, _⟩) c1 w1) ?_
    exact confined_settleBy c0 c1 derived

/-- The entities at the vertices. -/
theorem confined_derive_star (h : s.Coherent) (w : s.Whole d) (above : 0 < d)
    (fresh : s.relation? 0 d = none) :
    Confined [] [(0, d)] s (deriveBy (relationWithin shape (n + 1)) 0 d ⟨s, notes⟩) := by
  have holds := h.holds_vertices w (by omega)
  unfold deriveBy
  rw [if_pos above]
  refine .of_ok (relationWithin_holds (p := ⟨s, _⟩) holds n) ?_
  exact Derivation.confined_transposeInto holds h.bottom fresh

theorem confined_star (h : s.Coherent) (w : s.Whole d) (above : 0 < d) :
    Confined [] [(0, d)] s (relationWithin shape (n + 2) 0 d ⟨s, notes⟩) :=
  confined_between h h.whole_bottom w fun fresh _ => confined_derive_star h w above fresh

/-- Whose entities at the vertices a relation to a dimension goes by that does not rise: those of that
dimension, or the cells where it relates vertices. -/
def starOf (top d : Int) : Int := if d = 0 then top else d

/-- Vertices that share a cell. -/
theorem confined_derive_corners (h : s.Coherent) (fresh : s.relation? 0 0 = none) :
    Confined [] [(0, 0), (0, starOf s.dim 0)] s
      (deriveBy (relationWithin shape (n + 2)) 0 0 ⟨s, notes⟩) := by
  have positive := h.positive
  unfold deriveBy
  rw [if_neg (lt_irrefl _), if_neg (by simp)]
  refine .of_ok (store_apply _) ?_
  dsimp only
  rw [if_pos ⟨rfl, rfl⟩]
  refine .bind (confined_star h h.whole_top (by omega)) (List.nil_subset _) (by simp [starOf]) ?_
  intro _ t more ended frame
  have first : t.Holds 0 s.dim := ensures_relationWithin (n + 2) _ _ _ ended
  have second : t.Holds s.dim 0 :=
    (h.holds_vertices h.whole_top (by omega)).grows frame.written.grows
  refine .of_ok (relationWithin_holds (p := ⟨t, more⟩) second (n + 1)) ?_
  have fresh : t.relation? 0 0 = none := by
    rw [frame.relation (by simp; omega), fresh]
  exact (Derivation.confined_composeInto (h.written frame.written) (lt_irrefl _) first second fresh
    (absurd rfl) (absurd rfl)).mono (List.nil_subset _) (by simp)

/-- Entities with a vertex in common, or one within the other. -/
theorem confined_derive_throughVertices (h : s.Coherent) (w0 : s.Whole d0) (w1 : s.Whole d1)
    (above : 0 < d1) (falling : ¬ d0 < d1) (fresh : s.relation? d0 d1 = none) :
    Confined [] [(d0, d1), (0, starOf s.dim d1)] s
      (deriveBy (relationWithin shape (n + 2)) d0 d1 ⟨s, notes⟩) := by
  unfold deriveBy
  rw [if_neg falling, if_neg (by omega)]
  refine .of_ok (store_apply _) ?_
  dsimp only
  rw [if_neg (by omega)]
  have first := h.holds_vertices w0 (by omega)
  refine .of_ok (relationWithin_holds (p := ⟨s, _⟩) first (n + 1)) ?_
  refine .bind (confined_star h w1 above) (List.nil_subset _) (by simp [starOf, above.ne']) ?_
  -- On the way only the parts at the vertices are recorded, and not what is still to be written.
  intro _ t more ended frame
  have grows := frame.written.grows
  have second : t.Holds 0 d1 := ensures_relationWithin (n + 2) _ _ _ ended
  have fresh : t.relation? d0 d1 = none := by
    rw [frame.relation (by simp; omega), fresh]
  have parts : t.Holds d1 0 := (h.holds_vertices w1 above.ne').grows grows
  have first := first.grows grows
  exact (Derivation.confined_composeInto (h.written frame.written) falling first second fresh
    (fun _ => first) fun _ => parts).mono (List.nil_subset _) (by simp)

/-- A relation that does not rise in dimension. The vertices of entities that are whole are there
already. -/
theorem confined_derive_falling (h : s.Coherent) (w0 : s.Whole d0) (w1 : s.Whole d1)
    (falling : ¬ d0 < d1) (fresh : s.relation? d0 d1 = none) :
    Confined [] [(d0, d1), (0, starOf s.dim d1)] s
      (deriveBy (relationWithin shape (n + 2)) d0 d1 ⟨s, notes⟩) := by
  have bottom : d1 = 0 ∨ 0 < d1 := by
    have := (h.covers_of_whole w1).1
    omega
  rcases bottom with rfl | above
  · by_cases corner : d0 = 0
    · subst corner
      exact confined_derive_corners h fresh
    · have there := w0.byVertex corner
      rw [fresh] at there
      cases there
  · exact confined_derive_throughVertices h w0 w1 above falling fresh

theorem confined_falling (h : s.Coherent) (w0 : s.Whole d0) (w1 : s.Whole d1) (falling : ¬ d0 < d1) :
    Confined [] [(d0, d1), (0, starOf s.dim d1)] s (relationWithin shape (n + 3) d0 d1 ⟨s, notes⟩) :=
  confined_between h w0 w1 fun fresh _ => confined_derive_falling h w0 w1 falling fresh

/-- What a relation between dimensions that are whole may record. -/
def derivedPairs (top d0 d1 : Int) : List (Int × Int) :=
  [(d0, d1), (d1, d0), (0, starOf top (min d0 d1))]

theorem confined_deriveBy (h : s.Coherent) (w0 : s.Whole d0) (w1 : s.Whole d1)
    (fresh : s.relation? d0 d1 = none) :
    Confined [] (derivedPairs s.dim d0 d1) s
      (deriveBy (relationWithin shape (n + 3)) d0 d1 ⟨s, notes⟩) := by
  by_cases rising : d0 < d1
  · have bottom : d0 = 0 ∨ 0 < d0 := by
      have := (h.covers_of_whole w0).1
      omega
    rcases bottom with rfl | above
    · exact (confined_derive_star h w1 rising fresh).mono (List.nil_subset _)
        (by simp [derivedPairs])
    · unfold deriveBy
      rw [if_pos rising]
      refine .bind (confined_falling h w1 w0 (by omega)) (List.nil_subset _) ?_ ?_
      · simp [derivedPairs, min_eq_left_of_lt rising]
      -- What the reverse records starts from its own dimension or from a vertex, never from `d0`.
      intro _ t more ended frame
      have reverse : t.Holds d1 d0 := ensures_relationWithin (n + 3) _ _ _ ended
      have fresh : t.relation? d0 d1 = none := by
        rw [frame.relation (by simp [starOf]; omega), fresh]
      have counted := frame.written.grows.count_isSome w0.counted
      exact (Derivation.confined_transposeInto reverse counted fresh).mono (List.nil_subset _)
        (by simp [derivedPairs])
  · refine (confined_derive_falling h w0 w1 rising fresh).mono (List.nil_subset _) ?_
    simp [derivedPairs, min_eq_right (le_of_not_gt rising)]

/-- What a numbering may record. -/
def numberedPairs (top d : Int) : List (Int × Int) := [(top, d), (d, 0), (top, top), (0, top)]

theorem confined_numberInto (h : s.Coherent) (covers : s.Covers d) (fresh : s.count? d = none)
    (freshCells : s.relation? s.dim d = none) (freshVertices : s.relation? d 0 = none)
    (touch : s.Holds s.dim s.dim) :
    Confined [d] [(s.dim, d), (d, 0)] s (numberInto shape d ⟨s, notes⟩) := by
  have positive := h.positive
  have top := h.covers_of_whole h.whole_top
  have bottom := h.covers_of_whole h.whole_bottom
  obtain ⟨cells, hcells⟩ := Option.isSome_iff_exists.mp h.cells
  obtain ⟨touching, htouching⟩ := Option.isSome_iff_exists.mp touch.recorded
  refine .note_bind (.lift_bind (Numbering.steady_expected shape d) fun e _ => ?_)
  refine .of_ok (store_apply _) ?_
  refine .of_ok (by rw [lift_apply, Store.relation_of_some top bottom hcells]) ?_
  refine .of_ok (by rw [lift_apply, Store.relation_of_some top top htouching]) ?_
  refine .lift_bind (Numbering.steady_ofCells shape e cells.rows touching.rows) fun k hk => ?_
  have rows : s.count? s.dim = some (Incidence.ofRows k.cellRows).sourceCount := by
    rw [(h.rows hcells).2.2, Incidence.sourceCount_ofRows, Numbering.length_cellRows hk,
      Incidence.length_rows]
  obtain ⟨t, u, ht, hu, grows, counts, relations⟩ := Store.enter_dimension (n := k.count)
    (Incidence.ofRows k.cellRows) covers top (h.between_of_fresh fresh).2 fresh freshCells rows
  rw [bind_of_ok (write_of_ok (f := fun s => s.setCount d k.count) ht),
    bind_of_ok (write_of_ok (f := fun s => s.setRelation s.dim d _) hu)]
  -- From here on the dimension is counted, and only its vertices may still be refused.
  have entered : s.Frame [d] [(s.dim, d), (d, 0)] u := by
    refine ⟨(Store.Written.refl.count ht).relation hu, fun free => ?_, fun free => ?_⟩
    · exact (counts _).trans (if_neg (by simpa using free))
    · refine (relations _ _).trans (if_neg ?_)
      rintro ⟨rfl, rfl⟩
      simp at free
  refine .after entered (.lift_bind (steady_encoding _) fun vertices hvertices => ?_)
  have same : vertices = Incidence.ofRows k.entityVertices := by
    rw [Incidence.ofRows?, Outcome.mapError_eq_ok] at hvertices
    split at hvertices
    · exact (Except.ok.inj hvertices).symm
    · cases hvertices
  refine .bind (Derivation.confined_setRelation (grows.covers_iff.mpr covers)
    (grows.covers_iff.mpr bottom) ?_ ?_) (List.nil_subset _) (by simp) fun _ v more _ _ => ?_
  · rw [relations, if_neg fun hp => (h.between_of_fresh fresh).2 hp.1, freshVertices]
  · rw [counts, if_pos rfl, same, Incidence.sourceCount_ofRows]
    rfl
  · exact .note_bind (.still (.ok k.count))

/-- To number a dimension of which nothing is recorded, the cells that touch are asked for first. -/
theorem confined_uncounted (h : s.Coherent) (covers : s.Covers d) (fresh : s.count? d = none)
    (freshCells : s.relation? s.dim d = none) (freshVertices : s.relation? d 0 = none) :
    Confined [d] (numberedPairs s.dim d) s
      ((relationWithin shape (n + 3) s.dim s.dim >>= fun _ => numberInto shape d) ⟨s, notes⟩) := by
  have positive := h.positive
  have between := h.between_of_fresh fresh
  refine .bind (confined_falling h h.whole_top h.whole_top (lt_irrefl _)) (List.nil_subset _) ?_ ?_
  · have : s.dim ≠ 0 := by omega
    simp [numberedPairs, starOf, this]
  intro _ t more ended frame
  have grows := frame.written.grows
  have touch : t.Holds s.dim s.dim := ensures_relationWithin (n + 3) _ _ _ ended
  have cells : t.relation? s.dim d = none := by
    rw [frame.relation (by simp; omega), freshCells]
  have vertices : t.relation? d 0 = none := by
    rw [frame.relation (by simp; omega), freshVertices]
  have numbered : Confined _ _ t (numberInto shape d ⟨t, more⟩) :=
    confined_numberInto (h.written frame.written) (grows.covers_iff.mpr covers)
      (by rw [frame.count (by simp), fresh]) (by rwa [grows.dim]) vertices (by rwa [grows.dim])
  rw [grows.dim] at numbered
  exact numbered.mono (List.Subset.refl _) (by simp [numberedPairs])

theorem confined_entitiesBy (h : s.Coherent) :
    Confined [d] (numberedPairs s.dim d) s
      (entitiesBy (relationWithin shape (n + 3)) shape d ⟨s, notes⟩) := by
  unfold entitiesBy
  refine .of_ok (store_apply _) ?_
  split
  · rename_i covers
    refine .lift_bind (steady_recorded s d) fun there hthere => ?_
    split
    · exact .still (.ok _)
    · rename_i no
      rw [Bool.not_eq_true] at no
      obtain ⟨fresh, freshCells, freshVertices⟩ := recorded_eq_false_iff.mp (no ▸ hthere)
      exact confined_uncounted h covers fresh freshCells freshVertices
  · exact .still (.error rfl)

/-- What a relation may record: no more of a dimension than its own numbering does, the relation and
its reverse, and what these go by. -/
def relatedPairs (top d0 d1 : Int) : List (Int × Int) :=
  derivedPairs top d0 d1 ++ (numberedPairs top d0 ++ numberedPairs top d1)

theorem confined_relation (h : s.Coherent) :
    Confined [d0, d1] (relatedPairs s.dim d0 d1) s (relation shape d0 d1 ⟨s, notes⟩) := by
  refine .note_bind (.read_bind (s.steady_hasRelation d0 d1) fun there _ => ?_)
  split
  · exact .still (.ok ())
  refine .bind (confined_entitiesBy (n := 0) h) (by simp) (by simp [relatedPairs]) ?_
  intro n0 t more ended frame
  obtain ⟨c0, w0, -⟩ := ensures_entitiesBy _ _ _ ended
  have ht := h.written frame.written
  have tdim := frame.written.grows.dim
  refine .bind (confined_entitiesBy (n := 0) ht) (by simp) (by simp [relatedPairs, tdim]) ?_
  intro n1 u last ended' frame'
  obtain ⟨c1, w1, -⟩ := ensures_entitiesBy _ _ _ ended'
  have grows := frame'.written.grows
  have udim : u.dim = s.dim := grows.dim.trans tdim
  refine confined_settleBy (grows.covers_iff.mpr c0) c1 fun fresh notes => ?_
  refine (confined_deriveBy (n := 0) (ht.written frame'.written) (w0.grows grows) w1 fresh).mono
    (List.nil_subset _) ?_
  simp [relatedPairs, udim]

end Resolution

end MeshIncidence
