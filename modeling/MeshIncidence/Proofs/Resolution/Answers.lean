import Mathlib
import MeshIncidence.Proofs.Resolution.Confined
import MeshIncidence.Proofs.Resolution.Faithful
import MeshIncidence.Proofs.Resolution.Ways

/-!
What requests do to faithful stores. A request for a relation or for the entities of a dimension ends
as the cells determine, and leaves the store faithful; of what is recorded already, it only shows
whether a dimension that overflows is counted. The argument climbs by nesting: the vertices of entities
are recorded with them; the entities at the vertices are these turned round; all that does not rise in
dimension needs both of them; the rest is turned round.
-/
namespace MeshIncidence

/-- The second store holds what the first one holds, and is faithful as well. -/
structure Leads (m : Mesh) (s t : Store) : Prop where
  faithful : Faithful m t
  grows : s.Grows t

theorem Leads.refl {m : Mesh} {s : Store} (h : Faithful m s) : Leads m s s := ⟨h, .refl s⟩

theorem Leads.trans {m : Mesh} {s t u : Store} (h : Leads m s t) (g : Leads m t u) : Leads m s u :=
  ⟨g.faithful, h.grows.trans g.grows⟩

/-- How a request for the relation (d0, d1) ends that was made at `p`: as `want` says, with the
relation recorded if there is one, and with no pair newly recorded but those that `may` be. -/
structure Ends (m : Mesh) (want : Except Fault Incidence) (d0 d1 : Int) (may : Int → Int → Prop)
    (p : Progress) (ended : Except Fault Unit × Progress) : Prop where
  outcome : ended.1 = want.map fun _ => ()
  leads : Leads m p.store ended.2.store
  recorded : ∀ {r}, want = .ok r → ended.2.store.relation? d0 d1 = some r
  frame : ∀ {a b}, ¬ may a b → ended.2.store.relation? a b = p.store.relation? a b

namespace Mesh

variable {m : Mesh} {d d0 d1 : Int}

/-- The entities at the vertices are the vertices of the entities turned round. -/
theorem relationOf_star (positive : 1 ≤ m.dim) (hd : 0 < d) : m.relationOf 0 d = m.stars d := by
  have h0 : m.Covers 0 := ⟨by omega, by omega⟩
  have hne : d ≠ 0 := by omega
  simp [relationOf, hd, fallingRows, hne, countOf, h0, stars]

theorem relationOf_cells (positive : 1 ≤ m.dim) :
    m.relationOf m.dim m.dim = m.touching.map Incidence.ofRows := by
  rw [relationOf_falling (lt_irrefl _), fallingRows_cells positive]

theorem length_stars {t : Incidence} (h : m.stars d = .ok t) : t.rows.length = m.points := by
  obtain ⟨rows, -, -, -, rfl⟩ := stars_eq_ok.mp h
  rw [Incidence.rows_ofRows, Incidence.length_turned]

theorem length_throughVertices {wholes found : List (List Int)} (hw : m.vertexRows d0 = .ok wholes)
    (h : m.throughVertices d0 d1 = .ok found) : found.length = wholes.length := by
  obtain ⟨wholes', parts, hw', -, -, -, h⟩ := throughVertices_eq_ok.mp h
  rw [hw] at hw'
  cases hw'
  split at h
  · exact Derivation.length_neighbourRows h
  · exact Derivation.length_partRows rfl h

theorem length_cellRows {found : List (List Int)} (h : m.cellRows d = .ok found) :
    found.length = m.cells.length := by
  unfold cellRows at h
  split at h
  · cases h
    rfl
  · obtain ⟨k, hk, rfl⟩ := Outcome.map_eq_ok.mp h
    exact length_cellRows_numbering hk

/-- A relation has a row for every source. -/
theorem sourceCount_relationOf {c : Nat} {r : Incidence} (hc : m.countOf d0 = .ok c) (h1 : 0 ≤ d1)
    (h : m.relationOf d0 d1 = .ok r) : r.sourceCount = c := by
  by_cases rising : d0 < d1
  · obtain ⟨found, n, -, hn, -, -, rfl⟩ := (relationOf_rising_eq_ok rising).mp h
    rw [hc] at hn
    cases hn
    rw [Incidence.sourceCount_ofRows, Incidence.length_turned]
  rw [relationOf_falling rising] at h
  obtain ⟨rows, hrows, rfl⟩ := Outcome.map_eq_ok.mp h
  rw [Incidence.sourceCount_ofRows]
  have covers := covers_of_countOf hc
  unfold fallingRows at hrows
  by_cases h0 : d0 = 0
  · -- Of vertices, only their neighbours do not rise in dimension.
    rw [if_pos (by omega), if_pos h0] at hrows
    obtain ⟨stars, hstars, hrows⟩ := Outcome.bind_eq_ok.mp hrows
    subst h0
    rw [Derivation.length_neighbourRows hrows, length_stars hstars, eq_points_of_countOf hc]
  obtain ⟨wholes, hwholes, hlen⟩ := vertexRows_of_countOf hc h0
  rw [if_neg h0, hwholes] at hrows
  split at hrows
  · cases hrows
    exact hlen
  split at hrows
  · rename_i top
    rw [countOf, if_pos covers, if_neg h0, if_pos top.1] at hc
    rw [length_cellRows hrows]
    exact Except.ok.inj hc
  · rw [length_throughVertices hwholes hrows, hlen]

end Mesh

theorem Faithful.coherent {m : Mesh} {s : Store} (h : Faithful m s) : s.Coherent := by
  constructor
  case positive => exact h.dim ▸ h.positive
  case bottom => simp [h.bottom]
  case top => simp [h.dim, h.top]
  case cells => simp [h.dim, h.cellVertices]
  case covers => exact h.covers
  case rows =>
    intro a b r hr
    obtain ⟨n0, n1, c0, c1⟩ := h.counted hr
    refine ⟨h.covers c0, h.covers c1, ?_⟩
    rw [c0, Mesh.sourceCount_relationOf (h.count c0) (h.covers c1).1 (h.relation hr)]

namespace Ends

variable {m : Mesh} {d0 d1 : Int} {may : Int → Int → Prop} {want : Except Fault Incidence}
  {p : Progress}

/-- A pair that is recorded is left as it is. -/
theorem of_recorded (h : Faithful m p.store) {r : Incidence}
    (hr : p.store.relation? d0 d1 = some r) {q : Progress} (same : q.store = p.store) :
    Ends m (m.relationOf d0 d1) d0 d1 may p (.ok (), q) where
  outcome := by rw [h.relation hr]; rfl
  leads := by rw [same]; exact .refl h
  recorded := by
    intro r' hr'
    rw [h.relation hr] at hr'
    cases hr'
    rw [same, hr]
  frame := by rw [same]; exact fun _ => rfl

/-- Where there is no such relation, nothing is recorded. -/
theorem of_error (h : Faithful m p.store) {e : Fault} {q : Progress} (he : want = .error e)
    (same : q.store = p.store) : Ends m want d0 d1 may p (.error e, q) where
  outcome := by rw [he]; rfl
  leads := by rw [same]; exact .refl h
  recorded := fun hr => absurd hr (Outcome.ne_ok_of_error he _)
  frame := by rw [same]; exact fun _ => rfl

/-- The relation is written. -/
theorem of_write (h : Faithful m p.store) {n0 n1 : Nat} (h0 : m.Full p.store d0 n0)
    (h1 : m.Full p.store d1 n1) (fresh : p.store.relation? d0 d1 = none) {r : Incidence}
    (hr : m.relationOf d0 d1 = .ok r) (allowed : may d0 d1) {q : Progress}
    (same : q.store = p.store) :
    Ends m (m.relationOf d0 d1) d0 d1 may p (Request.write (fun s => s.setRelation d0 d1 r) q) := by
  have rows := Mesh.sourceCount_relationOf (h.count h0.count)
    (Mesh.covers_of_countOf (h.count h1.count)).1 hr
  obtain ⟨t, ht, faithful, grows, new⟩ := h.setRelation h0 h1 fresh hr rows
  rw [← same] at ht
  rw [Request.write_of_ok (f := fun s => s.setRelation d0 d1 r) ht]
  refine ⟨by rw [hr]; rfl, ⟨faithful, grows⟩, fun {r'} hr' => ?_, fun {a b} hab => ?_⟩
  · rw [hr] at hr'
    cases hr'
    exact new
  · rw [same] at ht
    rw [Store.relation?_setRelation ht, if_neg]
    intro h
    rcases h with ⟨rfl, rfl⟩
    exact hab allowed

theorem want_of_error {e : Fault} {q : Progress} (h : Ends m want d0 d1 may p (.error e, q)) :
    want = .error e := by
  have outcome := h.outcome
  cases hw : want with
  | error e' =>
    rw [hw] at outcome
    cases outcome
    rfl
  | ok r =>
    rw [hw] at outcome
    cases outcome

theorem want_of_ok {q : Progress} (h : Ends m want d0 d1 may p (.ok (), q)) :
    ∃ r, want = .ok r := by
  have outcome := h.outcome
  cases hw : want with
  | error e =>
    rw [hw] at outcome
    cases outcome
  | ok r => exact ⟨r, rfl⟩

/-- Two requests one after the other: the second is only made if the first succeeds. -/
theorem bind {first : Except Fault Incidence} {c0 c1 : Int} {before : Int → Int → Prop}
    {x y : Request Unit} (hx : Ends m first c0 c1 before p (x p))
    (wider : ∀ {a b}, before a b → may a b)
    (failing : ∀ e, first = .error e → want = .error e)
    (going : ∀ r q, first = .ok r → Leads m p.store q.store → q.store.relation? c0 c1 = some r →
      (∀ {a b}, ¬ before a b → q.store.relation? a b = p.store.relation? a b) →
      Ends m want d0 d1 may q (y q)) :
    Ends m want d0 d1 may p ((x >>= fun _ => y) p) := by
  rw [Request.bind_apply]
  rcases hxp : x p with ⟨e | ⟨⟩, q⟩
  · rw [hxp] at hx
    have hw := failing e hx.want_of_error
    exact ⟨by rw [hw]; rfl, hx.leads, fun hr => absurd hr (Outcome.ne_ok_of_error hw _),
      fun hab => hx.frame fun hb => hab (wider hb)⟩
  · rw [hxp] at hx
    obtain ⟨r, hr⟩ := hx.want_of_ok
    have hy := going r q hr hx.leads (hx.recorded hr) hx.frame
    exact ⟨hy.outcome, hx.leads.trans hy.leads, hy.recorded,
      fun hab => (hy.frame hab).trans (hx.frame fun hb => hab (wider hb))⟩

/-- Notes do not matter. -/
theorem of_same {q : Progress} {ended : Except Fault Unit × Progress} (same : q.store = p.store)
    (h : Ends m want d0 d1 may q ended) : Ends m want d0 d1 may p ended :=
  ⟨h.outcome, same ▸ h.leads, h.recorded, same ▸ h.frame⟩

theorem then_note {x : Request Unit} {n : Note} (h : Ends m want d0 d1 may p (x p)) :
    Ends m want d0 d1 may p ((x >>= fun _ => Request.note n) p) := by
  rw [Request.bind_apply]
  rcases hx : x p with ⟨_ | ⟨⟩, q⟩
  · rw [hx] at h
    exact h
  · rw [hx] at h
    exact ⟨h.outcome, h.leads, h.recorded, h.frame⟩

theorem mono {other : Int → Int → Prop} {ended : Except Fault Unit × Progress}
    (h : Ends m want d0 d1 may p ended) (wider : ∀ {a b}, may a b → other a b) :
    Ends m want d0 d1 other p ended :=
  ⟨h.outcome, h.leads, h.recorded, fun hab => h.frame fun hm => hab (wider hm)⟩

end Ends

namespace Derivation

variable {m : Mesh} {d0 d1 : Int} {may : Int → Int → Prop} {p : Progress}

/-- Turning a recorded relation round. -/
theorem ends_transposeInto (h : Faithful m p.store) {n0 n1 : Nat}
    (h0 : m.Full p.store d0 n0) (h1 : m.Full p.store d1 n1) (rising : d0 < d1)
    (fresh : p.store.relation? d0 d1 = none) {r : Incidence}
    (hr : p.store.relation? d1 d0 = some r) (allowed : may d0 d1) :
    Ends m (m.relationOf d0 d1) d0 d1 may p (transposeInto d0 d1 p) := by
  have found := Store.findRelation_of_covers (h.covers h1.count) (h.covers h0.count)
  have size := Store.size_of_some (h.covers h0.count) h0.count
  have value : m.relationOf d0 d1 = r.transpose? n0 := by
    have hf := h.relation hr
    rw [Mesh.relationOf, if_neg (by omega)] at hf
    obtain ⟨rows, hrows, rfl⟩ := Outcome.map_eq_ok.mp hf
    rw [Mesh.relationOf, if_pos rising, hrows, Outcome.ok_bind, h.count h0.count,
      Outcome.ok_bind]
  unfold transposeInto
  simp only [Request.bind_apply, Request.note_apply, Request.read_apply, found, hr, size,
    Request.lift_apply]
  cases ht : r.transpose? n0 with
  | error e =>
    dsimp only
    exact Ends.of_error h (value.trans ht) rfl
  | ok t =>
    dsimp only
    exact Ends.of_write h h0 h1 fresh (value.trans ht) allowed rfl

/-- Rows that were found on the way are written, if there are any. -/
theorem ends_finish (h : Faithful m p.store) {n0 n1 : Nat} (h0 : m.Full p.store d0 n0)
    (h1 : m.Full p.store d1 n1) (fresh : p.store.relation? d0 d1 = none)
    {rows : Except Fault (List (List Int))} (value : m.relationOf d0 d1 = rows.map Incidence.ofRows)
    (allowed : may d0 d1) {q : Progress} (same : q.store = p.store) :
    Ends m (m.relationOf d0 d1) d0 d1 may p ((Request.lift rows >>= finish d0 d1) q) := by
  cases rows with
  | error e =>
    rw [Request.bind_of_error (Request.lift_apply _ q)]
    exact Ends.of_error h value same
  | ok found =>
    rw [Request.bind_of_ok (Request.lift_apply _ q), finish,
      Request.bind_of_ok (Request.note_apply _ q)]
    exact Ends.of_write h h0 h1 fresh value allowed same

/-- Going through a third dimension by two recorded relations. -/
theorem ends_composeInto (h : Faithful m p.store) {n0 n1 : Nat} {d : Int}
    (h0 : m.Full p.store d0 n0) (h1 : m.Full p.store d1 n1) (falling : ¬ d0 < d1)
    (fresh : p.store.relation? d0 d1 = none) {between onward : Incidence}
    (hb : p.store.relation? d0 d = some between) (ho : p.store.relation? d d1 = some onward)
    (neighbours : d0 = d1 →
      m.fallingRows d0 d1 = neighbourRows onward.rows between.rows)
    (parts : d0 ≠ d1 → ∃ wholes parts, p.store.relation? d0 0 = some wholes ∧
      p.store.relation? d1 0 = some parts ∧
      m.fallingRows d0 d1 = partRows onward.rows between.rows wholes.rows parts.rows)
    (allowed : may d0 d1) :
    Ends m (m.relationOf d0 d1) d0 d1 may p (composeInto d0 d1 d p) := by
  have value := Mesh.relationOf_falling (m := m) falling
  cases p with | mk s notes
  by_cases same : d0 = d1
  · subst same
    rw [composeInto_level h.covers_ends hb ho]
    exact ends_finish h h0 h1 fresh (by rw [value, neighbours rfl]) allowed rfl
  · obtain ⟨wholes, parts, hw, hp, rows⟩ := parts same
    rw [composeInto_parts h.covers_ends (by omega) hb ho hw hp]
    exact ends_finish h h0 h1 fresh (by rw [value, rows]) allowed rfl

end Derivation

namespace Resolution

variable {m : Mesh} {d d0 d1 : Int} {may : Int → Int → Prop} {p : Progress} {s : Store}

/-- Of a dimension that overflows, the vertices are missing ever after. -/
theorem recorded_overflowing (h : Faithful m s) (beyond : m.Overflows d) {c : Nat}
    (hc : s.count? d = some c) : recorded s d = .error (.inconsistent (.incidenceMissing d)) := by
  have missing : s.relation? d 0 = none := by
    cases hr : s.relation? d 0 with
    | none => rfl
    | some r => exact absurd beyond (h.bare hr).1
  have above : d ≠ 0 := beyond.1.ne'
  simp [recorded, hc, missing, above]

theorem recorded_uncounted (h : Faithful m s) (hc : s.count? d = none) :
    recorded s d = .ok false := by
  simp [recorded, hc, h.relation_fresh (a := s.dim) (Or.inr hc),
    h.relation_fresh (b := 0) (Or.inl hc)]

theorem entitiesBy_full (resolve : Int → Int → Request Unit) (h : Faithful m p.store) {c : Nat}
    (full : m.Full p.store d c) : entitiesBy resolve m.shape d p = (.ok c, p) := by
  rw [entitiesBy_whole (h.covers full.count) (h.whole full), Store.sizeOf, full.count,
    Option.getD_some]

theorem ends_settleBy {resolve : Int → Int → Request Unit} (h : Faithful m p.store) {n0 n1 : Nat}
    (h0 : m.Full p.store d0 n0) (h1 : m.Full p.store d1 n1)
    (derive : p.store.relation? d0 d1 = none →
      Ends m (m.relationOf d0 d1) d0 d1 may p (deriveBy resolve d0 d1 p)) :
    Ends m (m.relationOf d0 d1) d0 d1 may p (settleBy resolve d0 d1 p) := by
  have has := Store.hasRelation_of_covers (h.covers h0.count) (h.covers h1.count)
  rw [settleBy, Request.bind_of_ok (Request.read_apply _ p |>.trans (by rw [has]))]
  cases hr : p.store.relation? d0 d1 with
  | some r => exact Ends.of_recorded h hr rfl
  | none => exact Ends.then_note (derive hr)

/-- A request for a relation between recorded dimensions derives it if it is not there. -/
theorem ends_of_derive (h : Faithful m p.store) {n0 n1 : Nat} (h0 : m.Full p.store d0 n0)
    (h1 : m.Full p.store d1 n1) (n : Nat)
    (derive : ∀ q, q.store = p.store → p.store.relation? d0 d1 = none →
      Ends m (m.relationOf d0 d1) d0 d1 may q (deriveBy (relationWithin m.shape n) d0 d1 q)) :
    Ends m (m.relationOf d0 d1) d0 d1 may p (relationWithin m.shape (n + 1) d0 d1 p) := by
  let q : Progress := { p with notes := p.notes ++ [.requested d0 d1] }
  have has := Store.hasRelation_of_covers (h.covers h0.count) (h.covers h1.count)
  have settled : Ends m (m.relationOf d0 d1) d0 d1 may q
      (settleBy (relationWithin m.shape n) d0 d1 q) :=
    ends_settleBy h h0 h1 (derive q rfl)
  refine Ends.of_same (q := q) rfl ?_
  unfold relationWithin
  rw [Request.bind_of_ok (q := q) (Request.note_apply _ p),
    Request.bind_of_ok (Request.read_apply _ q |>.trans (by rw [has]))]
  cases hr : p.store.relation? d0 d1 with
  | some r => exact Ends.of_recorded (p := q) h hr rfl
  | none =>
    rw [Option.isSome_none, if_neg Bool.false_ne_true,
      Request.bind_of_ok (entitiesBy_full (p := q) _ h h0),
      Request.bind_of_ok (entitiesBy_full (p := q) _ h h1)]
    exact settled

/-- A pair that is recorded is only looked up. -/
theorem ends_recorded (h : Faithful m p.store) {r : Incidence}
    (hr : p.store.relation? d0 d1 = some r) (n : Nat) :
    Ends m (m.relationOf d0 d1) d0 d1 (fun _ _ => False) p
      (relationWithin m.shape (n + 1) d0 d1 p) := by
  obtain ⟨c0, c1⟩ := h.covers_ends hr
  rw [relationWithin_holds ⟨c0, c1, by rw [hr]; rfl⟩]
  exact Ends.of_recorded h hr rfl

/-- The entities at the vertices, and nothing else. -/
theorem ends_star (h : Faithful m p.store) {c : Nat} (hd : 0 < d) (hc : m.Full p.store d c)
    (n : Nat) :
    Ends m (m.relationOf 0 d) 0 d (fun a b => a = 0 ∧ b = d) p
      (relationWithin m.shape (n + 2) 0 d p) := by
  refine ends_of_derive h h.full_bottom hc (n + 1) fun q same fresh => ?_
  rw [← same] at h hc fresh
  obtain ⟨rows, hrows, -, hr⟩ := h.vertexRelation hc (by omega)
  rw [deriveBy, if_pos hd]
  refine Ends.bind (ends_recorded h hr n) (by simp) (fun e he => ?_) fun r u _ leads hr' frame => ?_
  · rw [h.relation hr] at he
    cases he
  · refine Derivation.ends_transposeInto leads.faithful leads.faithful.full_bottom
      (hc.grows leads.grows) hd ?_ hr' ⟨rfl, rfl⟩
    rw [frame (by simp), fresh]

/-- A relation that does not rise in dimension is found on a way through vertices or cells. -/
theorem deriveBy_falling (resolve : Int → Int → Request Unit) (falling : ¬ d0 < d1)
    (derived : ¬ (0 < d0 ∧ d1 = 0)) (through : Int)
    (way : through = if d0 = 0 ∧ d1 = 0 then p.store.dim else 0) :
    deriveBy resolve d0 d1 p =
      (resolve d0 through >>= fun _ =>
        resolve through d1 >>= fun _ => Derivation.composeInto d0 d1 through) p := by
  rw [deriveBy, if_neg falling, if_neg derived, way]
  rfl

/-- Vertices are neighbours through the cells at them. -/
theorem ends_vertices (h : Faithful m p.store) (fresh : p.store.relation? 0 0 = none) (n : Nat) :
    Ends m (m.relationOf 0 0) 0 0 (fun a b => a = 0 ∧ b = 0 ∨ a = 0 ∧ 0 < b) p
      (deriveBy (relationWithin m.shape (n + 2)) 0 0 p) := by
  have positive := h.positive
  have falling : ¬ (0 : Int) < 0 := by omega
  have star := Mesh.relationOf_star positive (d := m.dim) (by omega)
  have rows : m.fallingRows 0 0 = m.vertexNeighbours := by
    rw [Mesh.fallingRows, if_pos rfl, if_pos rfl]
  rw [deriveBy_falling _ falling (by omega) m.dim (by rw [if_pos ⟨rfl, rfl⟩, h.dim])]
  refine Ends.bind (ends_star h (by omega) h.full_top n) (by omega) (fun e he => ?_)
    fun stars u hstars leads hr frame => ?_
  · rw [star] at he
    simp [Mesh.relationOf_falling falling, rows, Mesh.vertexNeighbours, he]
  have hcells := leads.faithful.cellVertices
  rw [star] at hstars
  refine Ends.bind (ends_recorded leads.faithful hcells (n + 1)) (by simp)
    (fun e he => ?_) fun cells v hv leads' hc frame' => ?_
  · rw [leads.faithful.relation hcells] at he
    cases he
  · rw [leads.faithful.relation hcells] at hv
    cases hv
    refine Derivation.ends_composeInto leads'.faithful leads'.faithful.full_bottom
      leads'.faithful.full_bottom falling ?_ (leads'.grows.relation hr) hc (fun _ => ?_) (by simp)
      (Or.inl ⟨rfl, rfl⟩)
    · rw [frame' (by simp), frame (by omega), fresh]
    · rw [rows, Mesh.vertexNeighbours, hstars, Outcome.ok_bind, Incidence.rows_ofRows]

/-- All that lies between dimensions above zero and does not rise is found through the vertices. -/
theorem ends_throughVertices (h : Faithful m p.store) {n0 n1 : Nat}
    (h0 : m.Full p.store d0 n0) (h1 : m.Full p.store d1 n1) (falling : ¬ d0 < d1)
    (above : 0 < d1) (fresh : p.store.relation? d0 d1 = none) (n : Nat) :
    Ends m (m.relationOf d0 d1) d0 d1 (fun a b => a = d0 ∧ b = d1 ∨ a = 0 ∧ b = d1) p
      (deriveBy (relationWithin m.shape (n + 2)) d0 d1 p) := by
  have star := Mesh.relationOf_star h.positive above
  obtain ⟨wholes, hwholes, -, hw⟩ := h.vertexRelation h0 (by omega)
  obtain ⟨parts, hparts, -, hp⟩ := h.vertexRelation h1 (by omega)
  have cells : ¬ (d0 = m.dim ∧ d1 ≠ m.dim) := by
    intro h
    rcases h with ⟨rfl, hne⟩
    have := h.cells h1.count hne
    rw [fresh] at this
    cases this
  have rows : m.fallingRows d0 d1 = m.throughVertices d0 d1 := by
    rw [Mesh.fallingRows, if_neg (by omega), if_neg cells]
  rw [deriveBy_falling _ falling (by omega) 0 (by rw [if_neg (by omega)])]
  refine Ends.bind (ends_recorded h hw (n + 1)) (by simp) (fun e he => ?_)
    fun whole u hu leads hr frame => ?_
  · rw [h.relation hw] at he
    cases he
  rw [h.relation hw] at hu
  cases hu
  refine Ends.bind (ends_star leads.faithful above (h1.grows leads.grows) n)
    (fun hab => Or.inr hab) (fun e he => ?_)
    fun stars v hstars leads' hs frame' => ?_
  · rw [star] at he
    simp [Mesh.relationOf_falling falling, rows, Mesh.throughVertices, hwholes, he]
  · rw [star] at hstars
    have leads'' := leads.trans leads'
    have value : m.throughVertices d0 d1 =
        if d0 = d1 then Derivation.neighbourRows stars.rows wholes
        else Derivation.partRows stars.rows wholes wholes parts := by
      rw [Mesh.throughVertices, hwholes, Outcome.ok_bind, hstars, Outcome.ok_bind, hparts,
        Outcome.ok_bind]
    refine Derivation.ends_composeInto leads'.faithful (h0.grows leads''.grows)
      (h1.grows leads''.grows) falling ?_ (leads'.grows.relation hr) hs (fun same => ?_)
      (fun differ => ⟨_, _, leads''.grows.relation hw, leads''.grows.relation hp, ?_⟩)
      (Or.inl ⟨rfl, rfl⟩)
    · rw [frame' (by omega), frame (by simp), fresh]
    · rw [rows, value, if_pos same, Incidence.rows_ofRows]
    · rw [rows, value, if_neg differ, Incidence.rows_ofRows, Incidence.rows_ofRows]

/-- The pairs that may be recorded where a relation is found that does not rise in dimension: its own,
and the entities at the vertices. -/
def Falls (d0 d1 a b : Int) : Prop := a = d0 ∧ b = d1 ∨ a = 0 ∧ 0 < b ∧ (d1 = 0 ∨ b = d1)

theorem ends_deriveBy_falling (h : Faithful m p.store) {n0 n1 : Nat}
    (h0 : m.Full p.store d0 n0) (h1 : m.Full p.store d1 n1) (falling : ¬ d0 < d1)
    (fresh : p.store.relation? d0 d1 = none) (n : Nat) :
    Ends m (m.relationOf d0 d1) d0 d1 (Falls d0 d1) p
      (deriveBy (relationWithin m.shape (n + 2)) d0 d1 p) := by
  have covers := Mesh.covers_of_countOf (h.count h1.count)
  by_cases bottom : d1 = 0
  · -- Only the vertices among themselves are not there from the start.
    have vertices : d0 = 0 := by
      by_contra hne
      obtain ⟨rows, -, -, hr⟩ := h.vertexRelation h0 hne
      rw [bottom, hr] at fresh
      cases fresh
    subst bottom vertices
    exact (ends_vertices h fresh n).mono fun hab => by unfold Falls; omega
  · have above : 0 < d1 := by have := covers.1; omega
    exact (ends_throughVertices h h0 h1 falling above fresh n).mono fun hab => by
      unfold Falls
      omega

theorem ends_falling (h : Faithful m p.store) {n0 n1 : Nat} (h0 : m.Full p.store d0 n0)
    (h1 : m.Full p.store d1 n1) (falling : ¬ d0 < d1) (n : Nat) :
    Ends m (m.relationOf d0 d1) d0 d1 (Falls d0 d1) p
      (relationWithin m.shape (n + 3) d0 d1 p) := by
  refine ends_of_derive h h0 h1 (n + 2) fun q same fresh => ?_
  rw [← same] at h h0 h1 fresh
  exact ends_deriveBy_falling h h0 h1 falling fresh n

/-- A relation that rises in dimension needs its reverse, and that may need the entities at the
vertices. -/
theorem ends_deriveBy_rising (h : Faithful m p.store) {n0 n1 : Nat}
    (h0 : m.Full p.store d0 n0) (h1 : m.Full p.store d1 n1) (rising : d0 < d1)
    (fresh : p.store.relation? d0 d1 = none) (n : Nat) :
    Ends m (m.relationOf d0 d1) d0 d1 (fun _ _ => True) p
      (deriveBy (relationWithin m.shape (n + 3)) d0 d1 p) := by
  have covers := Mesh.covers_of_countOf (h.count h0.count)
  have reverse : ∃ before : Int → Int → Prop, ¬ before d0 d1 ∧
      Ends m (m.relationOf d1 d0) d1 d0 before p (relationWithin m.shape (n + 3) d1 d0 p) := by
    by_cases bottom : d0 = 0
    · subst bottom
      obtain ⟨rows, -, -, hr⟩ := h.vertexRelation h1 (by omega)
      exact ⟨fun _ _ => False, by simp, ends_recorded h hr (n + 2)⟩
    · have := covers.1
      exact ⟨_, by unfold Falls; omega, ends_falling h h1 h0 (by omega) n⟩
  obtain ⟨before, untouched, first⟩ := reverse
  rw [deriveBy, if_pos rising]
  refine Ends.bind first (by simp) (fun e he => ?_) fun r u hr leads hr' frame => ?_
  · rw [Mesh.relationOf_falling (by omega)] at he
    rw [Mesh.relationOf, if_pos rising]
    cases hf : m.fallingRows d1 d0 with
    | error e' =>
      rw [hf] at he
      cases he
      rfl
    | ok rows =>
      rw [hf] at he
      cases he
  · refine Derivation.ends_transposeInto leads.faithful (h0.grows leads.grows)
      (h1.grows leads.grows) rising ?_ hr' trivial
    rw [frame untouched, fresh]

theorem ends_deriveBy (h : Faithful m p.store) {n0 n1 : Nat}
    (h0 : m.Full p.store d0 n0) (h1 : m.Full p.store d1 n1)
    (fresh : p.store.relation? d0 d1 = none) (n : Nat) :
    Ends m (m.relationOf d0 d1) d0 d1 (fun _ _ => True) p
      (deriveBy (relationWithin m.shape (n + 3)) d0 d1 p) := by
  by_cases rising : d0 < d1
  · exact ends_deriveBy_rising h h0 h1 rising fresh n
  · exact (ends_deriveBy_falling h h0 h1 rising fresh (n + 1)).mono fun _ => trivial

/-- How a request for the entities of a dimension ends that was made at `p`: with their number,
recorded, or with the failure that stands in its place. They are counted wherever they can be. -/
structure Counts (m : Mesh) (known : Int → Bool) (d : Int) (p : Progress)
    (ended : Except Fault Nat × Progress) : Prop where
  outcome : ended.1 = m.entitiesOf known d
  leads : Leads m p.store ended.2.store
  recorded : ∀ {c}, m.countOf d = .ok c → ended.2.store.count? d = some c

variable {known : Int → Bool}

/-- Where the entities cannot be counted, nothing need be recorded of them. -/
theorem Counts.of_error {e : Fault} (he : m.countOf d = .error e)
    {q : Progress} (leads : Leads m p.store q.store) : Counts m known d p (.error e, q) := by
  refine ⟨?_, leads, fun hc => absurd hc (Outcome.ne_ok_of_error he _)⟩
  rw [Mesh.entitiesOf_of_fine, he]
  intro beyond
  obtain ⟨c, hc⟩ := beyond.countOf
  exact Outcome.ne_ok_of_error he _ hc

/-- The entities of a dimension between zero and that of the cells are numbered from the touching
cells. -/
theorem counts_numberInto (h : Faithful m p.store) (h0 : 0 < d) (h1 : d < m.dim)
    (fresh : p.store.count? d = none) (unknown : m.Overflows d → known d = false)
    {touching : List (List Int)} (ht : m.touching = .ok touching)
    (hr : p.store.relation? m.dim m.dim = some (Incidence.ofRows touching)) :
    Counts m known d p (numberInto m.shape d p) := by
  have positive := h.positive
  have bottom := h.covers h.bottom
  have top := h.covers h.top
  have value := Mesh.countOf_between h0 h1
  have numbered : m.numbering d = Numbering.expected m.shape d >>= fun e =>
      Numbering.ofCells m.shape e m.cells touching := by
    rw [Mesh.numbering, ht, Outcome.ok_bind]
  unfold numberInto
  simp only [Request.bind_apply, Request.note_apply, Request.lift_apply]
  cases he : Numbering.expected m.shape d with
  | error e => exact .of_error (by rw [value, numbered, he]; rfl) (.refl h)
  | ok e =>
    rw [he, Outcome.ok_bind] at numbered
    simp only [Request.store_apply, h.dim, Store.relation_of_some top bottom h.cellVertices,
      Store.relation_of_some top top hr, Incidence.rows_ofRows]
    cases hk : Numbering.ofCells m.shape e m.cells touching with
    | error e' => exact .of_error (by rw [value, numbered, hk]; rfl) (.refl h)
    | ok k =>
      rw [hk] at numbered
      have overflows := Mesh.overflows_iff h0 h1 numbered
      have hc : m.countOf d = .ok k.count := by rw [value, numbered]; rfl
      obtain ⟨t, u, ht, hu, grows, counted, beyond, fit⟩ := h.number h0 h1 fresh numbered
      simp only [Request.write, ht, hu]
      cases words : Incidence.fits k.entityVertices with
      | false =>
        -- The number and the cells' part stay, and the vertices cannot be laid out.
        rw [Incidence.ofRows?_of_not_fits words]
        have overflow := overflows.mpr words
        refine ⟨?_, ⟨beyond words, grows⟩, fun hc' => ?_⟩
        · rw [Mesh.entitiesOf, if_pos overflow, unknown overflow]
          rfl
        · rw [hc] at hc'
          cases hc'
          exact counted
      | true =>
        obtain ⟨v, hv, faithful, later⟩ := fit words
        have fine : ¬ m.Overflows d := by simp [overflows, words]
        simp only [Incidence.ofRows?_of_fits words, Outcome.mapError_ok, hv, Request.pure_apply]
        refine ⟨?_, ⟨faithful, grows.trans later⟩, fun hc' => ?_⟩
        · rw [Mesh.entitiesOf_of_fine fine, hc]
        · rw [hc] at hc'
          cases hc'
          exact later.count counted

/-- Entities are not found where touching cells are not. -/
theorem countOf_of_error (positive : 1 ≤ m.dim) (covers : m.Covers d) (h0 : d ≠ 0) (h1 : d ≠ m.dim)
    {e : Fault} (h : m.relationOf m.dim m.dim = .error e) : m.countOf d = .error e := by
  rw [Mesh.relationOf_cells positive] at h
  rw [Mesh.countOf, if_pos covers, if_neg h0, if_neg h1, Mesh.numbering]
  cases ht : m.touching with
  | error e' =>
    rw [ht] at h
    cases h
    rfl
  | ok touching =>
    rw [ht] at h
    cases h

/-- Touching cells are found first, then the numbering is written. -/
theorem counts_uncounted (h : Faithful m p.store) (knows : m.Knows known p.store)
    (covers : m.Covers d) (hc : p.store.count? d = none) (n : Nat) :
    Counts m known d p (entitiesBy (relationWithin m.shape (n + 3)) m.shape d p) := by
  have h0 : d ≠ 0 := by
    rintro rfl
    rw [h.bottom] at hc
    cases hc
  have h1 : d ≠ m.dim := by
    rintro rfl
    rw [h.top] at hc
    cases hc
  have positive : 0 < d := by have := covers.1; omega
  have below : d < m.dim := by have := covers.2; omega
  unfold entitiesBy
  rw [Request.bind_of_ok (Request.store_apply p), if_pos (h.store_covers_iff.mpr covers),
    Request.bind_of_ok ((Request.lift_apply _ p).trans (by rw [recorded_uncounted h hc])),
    if_neg Bool.false_ne_true, h.dim, Request.bind_apply]
  have cells := ends_falling h h.full_top h.full_top (lt_irrefl _) n
  rcases hcells : relationWithin m.shape (n + 3) m.dim m.dim p with ⟨e | ⟨⟩, q⟩
  · rw [hcells] at cells
    exact .of_error (countOf_of_error h.positive covers h0 h1 cells.want_of_error) cells.leads
  · rw [hcells] at cells
    obtain ⟨r, hr⟩ := cells.want_of_ok
    have recorded := cells.recorded hr
    rw [Mesh.relationOf_cells h.positive] at hr
    obtain ⟨touching, ht, rfl⟩ := Outcome.map_eq_ok.mp hr
    have still : q.store.count? d = none := by
      -- A count would come with the entities of the cells.
      cases hq : q.store.count? d with
      | none => rfl
      | some c =>
        have := cells.leads.faithful.cells hq h1
        rw [cells.frame (by unfold Falls; omega), h.relation_fresh (Or.inr hc)] at this
        cases this
    have unknown : m.Overflows d → known d = false := fun beyond => by
      rw [← knows d beyond, hc]
      rfl
    have numbered := counts_numberInto cells.leads.faithful positive below still unknown ht recorded
    exact ⟨numbered.outcome, cells.leads.trans numbered.leads, numbered.recorded⟩

/-- A request for entities ends as the cells determine. Of what is recorded already, it matters only
whether a dimension that overflows is counted. -/
theorem counts_entitiesBy (h : Faithful m p.store) (knows : m.Knows known p.store) (n : Nat) :
    Counts m known d p (entitiesBy (relationWithin m.shape (n + 3)) m.shape d p) := by
  cases hc : p.store.count? d with
  | some c =>
    have again : ∀ {c'}, m.countOf d = .ok c' → p.store.count? d = some c' := fun hc' => by
      rw [h.count hc] at hc'
      cases hc'
      exact hc
    by_cases beyond : m.Overflows d
    · unfold entitiesBy
      rw [Request.bind_of_ok (Request.store_apply p), if_pos (h.covers hc), Request.bind_of_error
        ((Request.lift_apply _ p).trans (by rw [recorded_overflowing h beyond hc]))]
      refine ⟨?_, .refl h, again⟩
      rw [Mesh.entitiesOf, if_pos beyond, ← knows d beyond, hc]
      rfl
    · rw [entitiesBy_full _ h ⟨hc, beyond⟩]
      exact ⟨by rw [Mesh.entitiesOf_of_fine beyond, h.count hc], .refl h, again⟩
  | none =>
    by_cases covers : m.Covers d
    · exact counts_uncounted h knows covers hc n
    · unfold entitiesBy
      rw [Request.bind_of_ok (Request.store_apply p), if_neg (mt h.store_covers_iff.mp covers), h.dim]
      exact .of_error (by rw [Mesh.countOf, if_neg covers]) (.refl h)

/-- Asking for the entities of a dimension that does not overflow counts none that does. -/
theorem knows_entitiesBy (h : Faithful m p.store) (knows : m.Knows known p.store)
    (fine : ¬ m.Overflows d) (n : Nat) :
    m.Knows known (entitiesBy (relationWithin m.shape (n + 3)) m.shape d p).2.store := by
  intro other beyond
  have confined : Confined [d] _ p.store
      (entitiesBy (relationWithin m.shape (n + 3)) m.shape d ⟨p.store, p.notes⟩) :=
    confined_entitiesBy h.coherent
  have differ : other ∉ [d] := by
    rw [List.mem_singleton]
    rintro rfl
    exact fine beyond
  rw [← knows other beyond]
  exact congrArg Option.isSome (confined.frame.count differ)

/-- A request for entities and then one for a relation. -/
theorem Counts.bind {want : Except Fault Incidence} {x : Request Nat} {y : Request Unit}
    (hx : Counts m known d p (x p)) (knows : ¬ m.Overflows d → m.Knows known (x p).2.store)
    (failing : ∀ e, m.entitiesOf known d = .error e → want = .error e)
    (going : ∀ c q, m.entitiesOf known d = .ok c → Leads m p.store q.store → m.Full q.store d c →
      m.Knows known q.store → Ends m want d0 d1 (fun _ _ => True) q (y q)) :
    Ends m want d0 d1 (fun _ _ => True) p ((x >>= fun _ => y) p) := by
  have outcome := hx.outcome
  rw [Request.bind_apply]
  rcases hxp : x p with ⟨e | c, q⟩
  · rw [hxp] at hx outcome
    have hw := failing e outcome.symm
    exact ⟨by rw [hw]; rfl, hx.leads, fun hr => absurd hr (Outcome.ne_ok_of_error hw _),
      fun hab => absurd trivial hab⟩
  · rw [hxp] at hx outcome knows
    obtain ⟨fine, hc⟩ := Mesh.entitiesOf_eq_ok.mp outcome.symm
    have hy := going c q outcome.symm hx.leads ⟨hx.recorded hc, fine⟩ (knows fine)
    exact ⟨hy.outcome, hx.leads.trans hy.leads, hy.recorded, fun hab => absurd trivial hab⟩

/-- A relation that is recorded is what is asked for. -/
theorem answerOf_of_recorded (h : Faithful m s) (knows : m.Knows known s) {r : Incidence}
    (hr : s.relation? d0 d1 = some r) : m.answerOf known d0 d1 = m.relationOf d0 d1 := by
  obtain ⟨n0, n1, h0, h1⟩ := h.counted hr
  obtain ⟨fine, part⟩ := h.bare hr
  by_cases beyond : m.Overflows d1
  · have there : known d1 = true := by rw [← knows d1 beyond, h1]; rfl
    have c0 := Mesh.covers_of_countOf (h.count h0)
    have c1 := Mesh.covers_of_countOf (h.count h1)
    rw [Mesh.answerOf, if_neg (not_not.mpr c0), if_neg (not_not.mpr c1),
      if_pos ⟨part beyond, beyond, there⟩]
  · exact Mesh.answerOf_of_fine fine beyond (h.count h0) (h.count h1)

/-- Of a relation that is not recorded, the entities are asked for. -/
theorem answerOf_of_fresh (h : Faithful m s) (knows : m.Knows known s) (c0 : m.Covers d0)
    (c1 : m.Covers d1) (fresh : s.relation? d0 d1 = none) : m.answerOf known d0 d1 =
      m.entitiesOf known d0 >>= fun _ => m.entitiesOf known d1 >>= fun _ => m.relationOf d0 d1 := by
  rw [Mesh.answerOf, if_neg (not_not.mpr c0), if_neg (not_not.mpr c1), if_neg]
  rintro ⟨rfl, beyond, there⟩
  rw [← knows d1 beyond] at there
  obtain ⟨n, hn⟩ := Option.isSome_iff_exists.mp there
  have part := h.cells hn (fun top => Mesh.not_overflows_top (top ▸ beyond))
  rw [fresh] at part
  cases part

theorem ends_covered (h : Faithful m p.store) (knows : m.Knows known p.store) (c0 : m.Covers d0)
    (c1 : m.Covers d1) (n : Nat) :
    Ends m (m.answerOf known d0 d1) d0 d1 (fun _ _ => True) p
      (relationWithin m.shape (n + 4) d0 d1 p) := by
  cases hr : p.store.relation? d0 d1 with
  | some r =>
    rw [answerOf_of_recorded h knows hr]
    exact (ends_recorded h hr (n + 3)).mono fun _ => trivial
  | none =>
    have answer := answerOf_of_fresh h knows c0 c1 hr
    let q : Progress := { p with notes := p.notes ++ [.requested d0 d1] }
    have has := Store.hasRelation_of_covers (h.store_covers_iff.mpr c0) (h.store_covers_iff.mpr c1)
    refine Ends.of_same (q := q) rfl ?_
    unfold relationWithin
    rw [Request.bind_of_ok (q := q) (Request.note_apply _ p),
      Request.bind_of_ok (Request.read_apply _ q |>.trans (by rw [has, hr])), Option.isSome_none,
      if_neg Bool.false_ne_true]
    refine Counts.bind (counts_entitiesBy (p := q) h knows n)
      (fun fine => knows_entitiesBy (p := q) h knows fine n) (fun e he => ?_)
      fun n0 u hn0 leads h0 knows' => ?_
    · simp [answer, he]
    refine Counts.bind (counts_entitiesBy leads.faithful knows' n)
      (fun fine => knows_entitiesBy leads.faithful knows' fine n) (fun e he => ?_)
      fun n1 v hn1 leads' h1 _ => ?_
    · simp [answer, hn0, he]
    rw [answer, hn0, Outcome.ok_bind, hn1, Outcome.ok_bind]
    exact ends_settleBy leads'.faithful (h0.grows leads'.grows) h1 fun fresh =>
      ends_deriveBy leads'.faithful (h0.grows leads'.grows) h1 fresh n

/-- A request for a relation ends as the cells determine. Of what is recorded already, it matters only
whether a dimension that overflows is counted. -/
theorem ends_relationWithin (h : Faithful m p.store) (knows : m.Knows known p.store) (n : Nat) :
    Ends m (m.answerOf known d0 d1) d0 d1 (fun _ _ => True) p
      (relationWithin m.shape (n + 4) d0 d1 p) := by
  by_cases covered : m.Covers d0 ∧ m.Covers d1
  · exact ends_covered h knows covered.1 covered.2 n
  obtain ⟨e, he, hs⟩ :
      ∃ e, m.answerOf known d0 d1 = .error e ∧ p.store.hasRelation d0 d1 = .error e := by
    by_cases c0 : m.Covers d0
    · have c1 : ¬ m.Covers d1 := fun hc => covered ⟨c0, hc⟩
      refine ⟨.dimensionOutside d1 m.dim, by rw [Mesh.answerOf, if_neg (not_not.mpr c0), if_pos c1], ?_⟩
      simp [Store.hasRelation, Store.findRelation, Store.within,
        if_pos (h.store_covers_iff.mpr c0), if_neg (mt h.store_covers_iff.mp c1), h.dim]
    · refine ⟨.dimensionOutside d0 m.dim, by simp [Mesh.answerOf, if_pos c0], ?_⟩
      simp [Store.hasRelation, Store.findRelation, Store.within,
        if_neg (mt h.store_covers_iff.mp c0), h.dim]
  unfold relationWithin
  rw [Request.bind_of_ok (Request.note_apply _ p),
    Request.bind_of_error (Request.read_apply _ _ |>.trans (by rw [hs]))]
  exact Ends.of_error h he rfl

theorem ends_relation (d0 d1 : Int) (h : Faithful m p.store) (knows : m.Knows known p.store) :
    Ends m (m.answerOf known d0 d1) d0 d1 (fun _ _ => True) p (relation m.shape d0 d1 p) :=
  ends_relationWithin h knows 0

/-- A request for the entities of a dimension ends as the cells determine. -/
theorem counts_entities (d : Int) (h : Faithful m p.store) (knows : m.Knows known p.store) :
    Counts m known d p (entities m.shape d p) :=
  counts_entitiesBy h knows 1

end Resolution

end MeshIncidence
