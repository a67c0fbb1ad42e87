import Mathlib
import MeshIncidence.Proofs.Store.Written

/-!
What requests do to a store, said of one request alone and kept by sequences of them: that it leaves
the store as it is, that it changes it by accepted writes only, that it writes once and fails without
a write, what holds once it has succeeded, and that it can be repeated after it has succeeded.
-/
namespace MeshIncidence.Request

instance : LawfulMonad Request :=
  LawfulMonad.mk' Request
    (fun x => by
      funext p
      change Request.bind x Request.pure p = x p
      rcases h : x p with ⟨_ | _, q⟩ <;> simp [Request.bind, h, Request.pure])
    (fun _ _ => rfl)
    (fun x f g => by
      funext p
      change Request.bind (Request.bind x f) g p = Request.bind x (fun a => Request.bind (f a) g) p
      rcases h : x p with ⟨_ | _, q⟩ <;> simp [Request.bind, h])

variable {α β : Type} {x : Request α} {f : α → Request β} {on : Store → Prop}

/-- Leaves stores of a kind as they are, whether it succeeds or fails. -/
def Silent (on : Store → Prop) (x : Request α) : Prop :=
  ∀ p : Progress, on p.store → (x p).2.store = p.store

/-- Changes a store by accepted writes alone. -/
def Writes (x : Request α) : Prop := ∀ p : Progress, p.store.Written (x p).2.store

/-- Writes once at most, and fails without a write. -/
structure Single (x : Request α) : Prop where
  writes : Writes x
  atomic : ∀ (p : Progress) (e : Fault), (x p).1 = .error e → (x p).2.store = p.store

/-- What holds of the value and the store where it succeeds. -/
def Ensures (x : Request α) (post : α → Store → Prop) : Prop :=
  ∀ (p : Progress) (a : α) (q : Progress), x p = (.ok a, q) → post a q.store

/-- Once it has succeeded it does so again, with the same value and changing nothing, whatever more
has been recorded in between. -/
def Lasting (x : Request α) : Prop :=
  ∀ (p : Progress) (a : α) (q : Progress), x p = (.ok a, q) → ∀ u : Progress, q.store.Grows u.store →
    (x u).1 = .ok a ∧ (x u).2.store = u.store

/-- Succeeds on stores of a kind, with a value of a kind, and leaves them as they are. -/
def Reads (on : Store → Prop) (x : Request α) (value : α → Prop) : Prop :=
  ∀ p : Progress, on p.store → ∃ a q, x p = (.ok a, q) ∧ q.store = p.store ∧ value a

namespace Silent

theorem pure (a : α) : Silent on (Pure.pure a : Request α) := fun _ _ => rfl

theorem fail (e : Fault) : Silent on (Request.fail e : Request α) := fun _ _ => rfl

theorem note (n : Note) : Silent on (Request.note n) := fun _ _ => rfl

theorem store : Silent on Request.store := fun _ _ => rfl

theorem lift (result : Except Fault α) : Silent on (Request.lift result) := fun _ _ => rfl

theorem read (g : Store → Except Fault α) : Silent on (Request.read g) := fun _ _ => rfl

theorem bind (hx : Silent on x) (hf : ∀ a, Silent on (f a)) : Silent on (x >>= f) := by
  intro p h
  have first := hx p h
  rw [bind_apply]
  rcases hxp : x p with ⟨e | a, q⟩
  · simpa only [hxp] using first
  · have same : q.store = p.store := by simpa only [hxp] using first
    exact (hf a q (by rwa [same])).trans same

theorem discard (hx : Silent on x) {g : α → β} : Silent on (x >>= fun a => Pure.pure (g a)) :=
  hx.bind fun _ => pure _

theorem forM {g : α → Request Unit} (hg : ∀ a, Silent on (g a)) (xs : List α) :
    Silent on (xs.forM g) := by
  induction xs with
  | nil => exact pure ()
  | cons x xs ih => exact (hg x).bind fun _ => ih

theorem mapM {g : α → Request β} (hg : ∀ a, Silent on (g a)) (xs : List α) :
    Silent on (xs.mapM g) := by
  induction xs with
  | nil => exact pure []
  | cons x xs ih =>
    rw [List.mapM_cons]
    exact (hg x).bind fun y => ih.bind fun ys => pure (y :: ys)

theorem writes (h : Silent (fun _ => True) x) : Writes x := by
  intro p
  rw [h p trivial]
  exact .refl

theorem single (h : Silent (fun _ => True) x) : Single x := ⟨h.writes, fun p _ _ => h p trivial⟩

end Silent

theorem writes_write {g : Store → Except Fault Store}
    (accepted : ∀ {s t}, g s = .ok t → s.Written t) : Writes (write g) := by
  intro p
  cases h : g p.store with
  | error e =>
    rw [write_of_error h]
    exact .refl
  | ok t =>
    rw [write_of_ok h]
    exact accepted h

theorem Writes.bind (hx : Writes x) (hf : ∀ a, Writes (f a)) : Writes (x >>= f) := by
  intro p
  have first := hx p
  rw [bind_apply]
  rcases hxp : x p with ⟨e | a, q⟩
  · simpa only [hxp] using first
  · rw [hxp] at first
    exact first.trans (hf a q)

theorem Writes.discard (hx : Writes x) {g : α → β} : Writes (x >>= fun a => Pure.pure (g a)) :=
  hx.bind fun _ => (Silent.pure _).writes

theorem Writes.forM {g : α → Request Unit} (hg : ∀ a, Writes (g a)) (xs : List α) :
    Writes (xs.forM g) := by
  induction xs with
  | nil => exact (Silent.pure ()).writes
  | cons x xs ih => exact (hg x).bind fun _ => ih

theorem single_write {g : Store → Except Fault Store}
    (accepted : ∀ {s t}, g s = .ok t → s.Written t) : Single (write g) := by
  refine ⟨writes_write accepted, fun p e h => ?_⟩
  cases hg : g p.store with
  | error e' => rw [write_of_error hg]
  | ok t =>
    rw [write_of_ok hg] at h
    cases h

/-- Nothing is written before the only write. -/
theorem Single.bind (hx : Silent (fun _ => True) x) (hf : ∀ a, Single (f a)) : Single (x >>= f) := by
  refine ⟨hx.writes.bind fun a => (hf a).writes, fun p e h => ?_⟩
  have first := hx p trivial
  rw [bind_apply] at h ⊢
  rcases hxp : x p with ⟨e' | a, q⟩
  · simpa only [hxp] using first
  · simp only [hxp] at h first ⊢
    exact ((hf a).atomic q e h).trans first

theorem Single.discard (hx : Single x) {g : α → β} : Single (x >>= fun a => Pure.pure (g a)) := by
  refine ⟨hx.writes.discard, fun p e h => ?_⟩
  have first := hx.atomic p
  rw [bind_apply] at h ⊢
  rcases hxp : x p with ⟨e' | a, q⟩
  · simpa only [hxp] using first e' (by rw [hxp])
  · simp [hxp] at h

/-- What the last step ensures, the sequence does. -/
theorem Ensures.bind {post : β → Store → Prop} (hf : ∀ a, Ensures (f a) post) :
    Ensures (x >>= f) post := by
  intro p b r h
  obtain ⟨a, q, -, hq⟩ := bind_eq_ok_iff.mp h
  exact hf a q b r hq

theorem ensures_fail {post : α → Store → Prop} (e : Fault) : Ensures (fail e) post := by
  intro p a q h
  cases h

theorem write_eq_ok {g : Store → Except Fault Store} {p q : Progress} {v : Unit}
    (h : write g p = (.ok v, q)) : g p.store = .ok q.store := by
  cases hg : g p.store with
  | error e =>
    rw [write_of_error hg] at h
    cases h
  | ok t =>
    rw [write_of_ok hg] at h
    cases h
    rfl

theorem Lasting.bind (hx : Lasting x) (hf : ∀ a, Lasting (f a)) (writes : ∀ a, Writes (f a)) :
    Lasting (x >>= f) := by
  intro p b r h u grows
  obtain ⟨a, q, hp, hq⟩ := bind_eq_ok_iff.mp h
  have second := hf a q b r hq
  have between : q.store.Grows r.store := by
    have := (writes a q).grows
    rwa [hq] at this
  -- The first request finds its own again, since the second one has only added to it.
  obtain ⟨value, same⟩ := hx p a q hp u (between.trans grows)
  rw [bind_apply]
  rcases hu : x u with ⟨_ | _, v⟩
  · simp [hu] at value
  · simp only [hu] at value same
    cases value
    rw [← same] at grows ⊢
    exact second v grows

theorem Lasting.pure (a : α) : Lasting (Pure.pure a : Request α) := by
  intro p b q h u grows
  cases h
  exact ⟨rfl, rfl⟩

theorem Lasting.discard (hx : Lasting x) {g : α → β} : Lasting (x >>= fun a => Pure.pure (g a)) :=
  hx.bind (fun _ => .pure _) fun _ => (Silent.pure _).writes

theorem Lasting.forM {g : α → Request Unit} (hg : ∀ a, Lasting (g a)) (writes : ∀ a, Writes (g a))
    (xs : List α) : Lasting (xs.forM g) := by
  induction xs with
  | nil => exact .pure ()
  | cons x xs ih => exact (hg x).bind (fun _ => ih) fun _ => Writes.forM writes xs

namespace Reads

variable {value : α → Prop} {value' : β → Prop}

theorem pure {a : α} (h : value a) : Reads on (Pure.pure a : Request α) value :=
  fun p _ => ⟨a, p, rfl, rfl, h⟩

theorem lift {a : α} {result : Except Fault α} (ok : result = .ok a) (h : value a) :
    Reads on (Request.lift result) value :=
  fun p _ => ⟨a, p, by rw [lift_apply, ok], rfl, h⟩

theorem read {g : Store → Except Fault α} (h : ∀ s, on s → ∃ a, g s = .ok a ∧ value a) :
    Reads on (Request.read g) value := by
  intro p hp
  obtain ⟨a, ha, ok⟩ := h p.store hp
  exact ⟨a, p, by rw [read_apply, ha], rfl, ok⟩

theorem bind (hx : Reads on x value) (hf : ∀ a, value a → Reads on (f a) value') :
    Reads on (x >>= f) value' := by
  intro p hp
  obtain ⟨a, q, hq, same, ha⟩ := hx p hp
  obtain ⟨b, r, hr, same', hb⟩ := hf a ha q (by rwa [same])
  exact ⟨b, r, by rw [bind_of_ok hq, hr], same'.trans same, hb⟩

theorem weaken (hx : Reads on x value) : Reads on x fun _ => True := by
  intro p hp
  obtain ⟨a, q, hq, same, -⟩ := hx p hp
  exact ⟨a, q, hq, same, trivial⟩

theorem discard (hx : Reads on x value) {g : α → β} :
    Reads on (x >>= fun a => Pure.pure (g a)) fun _ => True :=
  hx.bind fun _ _ => pure trivial

theorem forM {g : α → Request Unit} {xs : List α} (hg : ∀ x ∈ xs, Reads on (g x) fun _ => True) :
    Reads on (xs.forM g) fun _ => True := by
  induction xs with
  | nil => exact pure trivial
  | cons x xs ih =>
    rw [List.forall_mem_cons] at hg
    exact hg.1.bind fun _ _ => ih hg.2

theorem mapM {g : α → Request β} {xs : List α} (hg : ∀ x ∈ xs, Reads on (g x) fun _ => True) :
    Reads on (xs.mapM g) fun _ => True := by
  induction xs with
  | nil => exact pure trivial
  | cons x xs ih =>
    rw [List.forall_mem_cons] at hg
    rw [List.mapM_cons]
    exact hg.1.bind fun y _ => (ih hg.2).bind fun ys _ => pure trivial

end Reads

end MeshIncidence.Request
