import Mathlib
import MeshIncidence.Proofs.Resolution.Determined

/-!
Asking for everything. It succeeds exactly where every count and every relation can be found and the
vertices of all entities can be recorded, and then all of them are recorded. Counts come first, and stay
recorded where a relation fails.
-/
namespace MeshIncidence

namespace Mesh

variable {m : Mesh} {s : Store} {known : Int → Bool} {d : Int}

theorem mem_dimensions : d ∈ m.dimensions ↔ m.Covers d := Store.mem_upTo

theorem entitiesOf_forM_eq_ok :
    (m.dimensions.forM fun d => (m.entitiesOf known d).map fun _ => ()) = .ok () ↔
      m.Storable ∧ ∀ d, m.Covers d → ∃ n, m.countOf d = .ok n := by
  simp only [Outcome.forM_eq_ok, Outcome.map_eq_ok, mem_dimensions, and_true, entitiesOf_eq_ok]
  constructor
  · intro h
    refine ⟨fun d beyond => ?_, fun d covers => ?_⟩
    · obtain ⟨-, fine, -⟩ := h d ⟨beyond.1.le, beyond.2.1.le⟩
      exact fine beyond
    · obtain ⟨n, -, hn⟩ := h d covers
      exact ⟨n, hn⟩
  · rintro ⟨storable, counted⟩ d covers
    obtain ⟨n, hn⟩ := counted d covers
    exact ⟨n, storable d, hn⟩

/-- Everything can be had exactly where every count and every relation can, and all vertices can be
recorded. -/
theorem everythingOf_eq_ok : m.everythingOf known = .ok () ↔
    m.Storable ∧ (∀ d, m.Covers d → ∃ n, m.countOf d = .ok n) ∧
      ∀ d0 d1, m.Covers d0 → m.Covers d1 → ∃ r, m.relationOf d0 d1 = .ok r := by
  have relations (storable : m.Storable) (counted : ∀ d, m.Covers d → ∃ n, m.countOf d = .ok n) :
      (m.dimensions.forM fun d0 => m.dimensions.forM fun d1 =>
        (m.answerOf known d0 d1).map fun _ => ()) = .ok () ↔
      ∀ d0 d1, m.Covers d0 → m.Covers d1 → ∃ r, m.relationOf d0 d1 = .ok r := by
    simp only [Outcome.forM_eq_ok, Outcome.map_eq_ok, mem_dimensions, and_true]
    have same : ∀ d0 d1, m.Covers d0 → m.Covers d1 →
        m.answerOf known d0 d1 = m.relationOf d0 d1 := by
      intro d0 d1 c0 c1
      obtain ⟨n0, h0⟩ := counted d0 c0
      obtain ⟨n1, h1⟩ := counted d1 c1
      exact answerOf_of_fine (storable d0) (storable d1) h0 h1
    constructor
    · intro h d0 d1 c0 c1
      rw [← same d0 d1 c0 c1]
      exact h d0 c0 d1 c1
    · intro h d0 c0 d1 c1
      rw [same d0 d1 c0 c1]
      exact h d0 d1 c0 c1
  rw [everythingOf, Outcome.bind_eq_ok]
  constructor
  · rintro ⟨⟨⟩, hc, hr⟩
    obtain ⟨storable, counted⟩ := entitiesOf_forM_eq_ok.mp hc
    exact ⟨storable, counted, (relations storable counted).mp hr⟩
  · rintro ⟨storable, counted, hr⟩
    exact ⟨(), entitiesOf_forM_eq_ok.mpr ⟨storable, counted⟩, (relations storable counted).mpr hr⟩

end Mesh

namespace Resolution

variable {m : Mesh} {s : Store} {known : Int → Bool} {d d0 d1 : Int}

/-- Of a dimension whose vertices can be recorded, the entities are found as the cells say. -/
theorem outcome_entities (h : Faithful m s) (fine : ¬ m.Overflows d) :
    ((entities m.shape d).run s).1 = m.countOf d :=
  (determined_entities d ⟨s, []⟩ h (m.knows_counted s)).outcome.trans (Mesh.entitiesOf_of_fine fine)

/-- So is a relation between two such dimensions. -/
theorem outcome_fetch (h : Faithful m s) (fine0 : ¬ m.Overflows d0) (fine1 : ¬ m.Overflows d1)
    {n0 n1 : Nat} (c0 : m.countOf d0 = .ok n0) (c1 : m.countOf d1 = .ok n1) :
    ((fetch m.shape d0 d1).run s).1 = m.relationOf d0 d1 :=
  (determined_fetch d0 d1 ⟨s, []⟩ h (m.knows_counted s)).outcome.trans
    (Mesh.answerOf_of_fine fine0 fine1 c0 c1)

theorem outcome_everything (h : Faithful m s) : ((everything m.shape).run s).1 =
    m.everythingOf fun d => (s.count? d).isSome :=
  (determined_everything ⟨s, []⟩ h (m.knows_counted s)).outcome

theorem faithful_everything (h : Faithful m s) :
    Faithful m ((everything m.shape).run s).2.store :=
  (determined_everything ⟨s, []⟩ h (m.knows_counted s)).leads.faithful

/-- Of requests that succeed in a row, each was made on a faithful store, and what it recorded is still
there in the end. -/
theorem kept_by_forM {α : Type} {f : α → Request Unit} {want : α → Except Fault Unit}
    (determined : ∀ a, Determined m known (f a) (want a)) {xs : List α}
    (succeeds : xs.forM want = .ok ()) {p : Progress} (h : Faithful m p.store)
    (knows : m.Knows known p.store) {a : α} (ha : a ∈ xs) :
    ∃ q : Progress, Faithful m q.store ∧ m.Knows known q.store ∧
      (f a q).2.store.Grows (xs.forM f p).2.store := by
  -- Whatever the first request recorded, the others keep; and they begin on a faithful store again.
  induction xs generalizing p with
  | nil => cases ha
  | cons x xs ih =>
    obtain ⟨outcome, leads, knows'⟩ := determined x p h knows
    rw [Outcome.forM_eq_ok] at succeeds
    have first := succeeds x (by simp)
    have rest : xs.forM want = .ok () :=
      Outcome.forM_eq_ok.mpr fun y hy => succeeds y (by simp [hy])
    rcases hx : f x p with ⟨e | ⟨⟩, q⟩
    · rw [hx, first] at outcome
      cases outcome
    · rw [hx] at leads knows'
      have step : (x :: xs).forM f p = xs.forM f q :=
        Request.bind_of_ok (f := fun _ => xs.forM f) hx
      rw [step]
      rcases List.mem_cons.mp ha with rfl | ha
      · refine ⟨p, h, knows, ?_⟩
        rw [hx]
        exact (Determined.forM determined xs q leads.faithful (knows' first)).leads.grows
      · exact ih rest leads.faithful (knows' first) ha

theorem everything_apply (h : Faithful m s) : (everything m.shape).run s =
    ((m.dimensions.forM fun d => entities m.shape d >>= fun _ => pure ()) >>= fun _ =>
      m.dimensions.forM fun d0 => m.dimensions.forM fun d1 => relation m.shape d0 d1) ⟨s, []⟩ := by
  have dims : s.dimensions = m.dimensions := by rw [Store.dimensions, h.dim, Mesh.dimensions]
  rw [Request.run, everything, Request.bind_of_ok (Request.store_apply _), dims]

/-- How asking for everything goes on once the entities are counted. -/
theorem everything_counted (h : Faithful m s) (storable : m.Storable)
    (counted : ∀ d, m.Covers d → ∃ n, m.countOf d = .ok n) :
    ∃ q : Progress, Faithful m q.store ∧
      (∀ {d n}, m.countOf d = .ok n → q.store.count? d = some n) ∧
      (everything m.shape).run s =
        (m.dimensions.forM fun d0 => m.dimensions.forM fun d1 => relation m.shape d0 d1) q := by
  let known : Int → Bool := fun d => (s.count? d).isSome
  have determined : ∀ d, Determined m known (entities m.shape d >>= fun _ => pure ())
      ((m.entitiesOf known d).map fun _ => ()) := fun d => (determined_entities d).discard
  have succeeds : (m.dimensions.forM fun d => (m.entitiesOf known d).map fun _ => ()) = .ok () :=
    Mesh.entitiesOf_forM_eq_ok.mpr ⟨storable, counted⟩
  obtain ⟨outcome, leads, -⟩ :=
    Determined.forM determined m.dimensions ⟨s, []⟩ h (m.knows_counted s)
  rcases hq : (m.dimensions.forM fun d => entities m.shape d >>= fun _ => pure ()) ⟨s, []⟩ with
    ⟨e | ⟨⟩, q⟩
  · rw [hq, succeeds] at outcome
    cases outcome
  · rw [hq] at leads
    refine ⟨q, leads.faithful, fun {d n} hc => ?_, ?_⟩
    · have covers := Mesh.mem_dimensions.mpr (Mesh.covers_of_countOf hc)
      obtain ⟨p, hp, knows, grows⟩ :=
        kept_by_forM determined succeeds (p := ⟨s, []⟩) h (m.knows_counted s) covers
      rw [hq] at grows
      refine grows.count ?_
      have recorded := (counts_entities d hp knows).recorded hc
      rw [Request.bind_apply]
      rcases he : entities m.shape d p with ⟨_ | _, _⟩ <;> rw [he] at recorded <;> exact recorded
    · rw [everything_apply h, Request.bind_of_ok hq]

/-- The counts are recorded, whatever becomes of the relations. -/
theorem count?_everything (h : Faithful m s) (storable : m.Storable)
    (counted : ∀ d, m.Covers d → ∃ n, m.countOf d = .ok n) {n : Nat} (hc : m.countOf d = .ok n) :
    ((everything m.shape).run s).2.store.count? d = some n := by
  obtain ⟨q, faithful, counts, run⟩ := everything_counted h storable counted
  rw [run]
  have settles := Determined.forM (fun d0 => Determined.forM (fun d1 => determined_relation d0 d1)
    m.dimensions) m.dimensions q faithful (m.knows_counted _)
  exact settles.leads.grows.count (counts hc)

/-- Where everything can be had, every relation is recorded. -/
theorem relation?_everything (h : Faithful m s) (succeeds : m.everythingOf known = .ok ())
    (c0 : m.Covers d0) (c1 : m.Covers d1) :
    ∃ r, m.relationOf d0 d1 = .ok r ∧
      ((everything m.shape).run s).2.store.relation? d0 d1 = some r := by
  obtain ⟨storable, counted, related⟩ := Mesh.everythingOf_eq_ok.mp succeeds
  obtain ⟨r, hr⟩ := related d0 d1 c0 c1
  obtain ⟨-, -, rows⟩ := Outcome.bind_eq_ok.mp succeeds
  obtain ⟨q, faithful, -, run⟩ := everything_counted h storable counted
  obtain ⟨p, hp, -, outer⟩ := kept_by_forM
    (fun d0 => Determined.forM (fun d1 => determined_relation d0 d1) m.dimensions) rows faithful
    (storable.knows known _) (Mesh.mem_dimensions.mpr c0)
  obtain ⟨p', hp', knows, inner⟩ := kept_by_forM (fun d1 => determined_relation d0 d1)
    (Outcome.forM_eq_ok.mp rows d0 (Mesh.mem_dimensions.mpr c0)) hp (storable.knows known _)
    (Mesh.mem_dimensions.mpr c1)
  obtain ⟨n0, h0⟩ := counted d0 c0
  obtain ⟨n1, h1⟩ := counted d1 c1
  refine ⟨r, hr, ?_⟩
  rw [run]
  refine (inner.trans outer).relation ((ends_relation d0 d1 hp' knows).recorded ?_)
  rw [Mesh.answerOf_of_fine (storable d0) (storable d1) h0 h1, hr]

end Resolution

end MeshIncidence
