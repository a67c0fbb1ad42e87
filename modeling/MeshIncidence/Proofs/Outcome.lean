import Mathlib

/-!
Outcomes that are a value or a failure: how they go through sequencing, mapping and lists.
-/
namespace MeshIncidence.Outcome

variable {ε ε' α α' β β' : Type}

@[simp] theorem ok_bind (a : α) (f : α → Except ε β) : ((.ok a : Except ε α) >>= f) = f a := rfl

@[simp] theorem error_bind (e : ε) (f : α → Except ε β) :
    ((.error e : Except ε α) >>= f) = .error e := rfl

@[simp] theorem map_ok (f : α → β) (a : α) : (.ok a : Except ε α).map f = .ok (f a) := rfl

@[simp] theorem map_error (f : α → β) (e : ε) : (.error e : Except ε α).map f = .error e := rfl

@[simp] theorem mapError_ok (f : ε → ε') (a : α) : (.ok a : Except ε α).mapError f = .ok a := rfl

@[simp] theorem mapError_error (f : ε → ε') (e : ε) :
    (.error e : Except ε α).mapError f = .error (f e) := rfl

/-- A failure has no value. -/
theorem ne_ok_of_error {x : Except ε α} {e : ε} (h : x = .error e) (a : α) : x ≠ .ok a := by
  rw [h]
  simp

theorem bind_eq_ok {x : Except ε α} {f : α → Except ε β} {b : β} :
    (x >>= f) = .ok b ↔ ∃ a, x = .ok a ∧ f a = .ok b := by
  cases x <;> simp

theorem map_eq_ok {x : Except ε α} {f : α → β} {b : β} :
    x.map f = .ok b ↔ ∃ a, x = .ok a ∧ f a = b := by
  cases x <;> simp

theorem mapError_eq_ok {x : Except ε α} {f : ε → ε'} {a : α} :
    x.mapError f = .ok a ↔ x = .ok a := by
  cases x <;> simp

/-- A list maps to values exactly where each entry does. -/
theorem mapM_eq_ok {f : α → Except ε β} {xs : List α} {ys : List β} :
    xs.mapM f = .ok ys ↔ List.Forall₂ (fun x y => f x = .ok y) xs ys := by
  induction xs generalizing ys with
  | nil =>
    rw [List.mapM_nil, List.forall₂_nil_left_iff]
    exact ⟨fun h => (Except.ok.inj h).symm, fun h => by rw [h]; rfl⟩
  | cons x xs ih =>
    rw [List.mapM_cons, bind_eq_ok]
    constructor
    · intro h
      rcases h with ⟨y, hy, h⟩
      obtain ⟨rest, hrest, h⟩ := bind_eq_ok.mp h
      cases h
      exact List.Forall₂.cons hy (ih.mp hrest)
    · intro h
      cases h with
      | cons hy hrest => exact ⟨_, hy, bind_eq_ok.mpr ⟨_, ih.mpr hrest, rfl⟩⟩

theorem mapM_eq_map {f : α → Except ε β} {g : α → β} {xs : List α}
    (h : ∀ x ∈ xs, f x = .ok (g x)) : xs.mapM f = .ok (xs.map g) := by
  rw [mapM_eq_ok, List.forall₂_map_right_iff, List.forall₂_same]
  exact h

theorem length_of_mapM {f : α → Except ε β} {xs : List α} {ys : List β}
    (h : xs.mapM f = .ok ys) : ys.length = xs.length :=
  (mapM_eq_ok.mp h).length_eq.symm

theorem exists_mapM_eq_ok {f : α → Except ε β} {xs : List α} :
    (∃ ys, xs.mapM f = .ok ys) ↔ ∀ x ∈ xs, ∃ y, f x = .ok y := by
  induction xs with
  | nil => exact ⟨fun _ x hx => absurd hx List.not_mem_nil, fun _ => ⟨[], rfl⟩⟩
  | cons x xs ih =>
    rw [List.forall_mem_cons, ← ih]
    constructor
    · rintro ⟨ys, h⟩
      cases mapM_eq_ok.mp h with
      | cons hy hrest => exact ⟨⟨_, hy⟩, _, mapM_eq_ok.mpr hrest⟩
    · rintro ⟨⟨y, hy⟩, ys, hrest⟩
      exact ⟨y :: ys, mapM_eq_ok.mpr (.cons hy (mapM_eq_ok.mp hrest))⟩

theorem mem_of_mapM {f : α → Except ε β} {xs : List α} {ys : List β} (h : xs.mapM f = .ok ys)
    {y : β} : y ∈ ys ↔ ∃ x ∈ xs, f x = .ok y := by
  have each := mapM_eq_ok.mp h
  clear h
  induction each with
  | nil => simp
  | cons hy _ ih => simp [ih, hy, eq_comm]

theorem toOption_join_eq_some {x : Except ε (Option β)} {b : β} :
    x.toOption.join = some b ↔ x = .ok (some b) := by
  cases x <;> simp [Except.toOption]

/-- Of optional values, those that are there. -/
theorem filterMap_id_of_mapM {f : α → Except ε (Option β)} {xs : List α} {ys : List (Option β)}
    (h : xs.mapM f = .ok ys) : ys.filterMap id = xs.filterMap fun x => (f x).toOption.join := by
  have each := mapM_eq_ok.mp h
  clear h
  induction each with
  | nil => rfl
  | cons hy _ ih =>
    rw [List.filterMap_cons, List.filterMap_cons, hy, ih]
    rfl

/-- Steps without a value succeed in a row exactly where each does. -/
theorem forM_eq_ok {f : α → Except ε Unit} {xs : List α} :
    xs.forM f = .ok () ↔ ∀ x ∈ xs, f x = .ok () := by
  induction xs with
  | nil => exact ⟨fun _ x hx => absurd hx List.not_mem_nil, fun _ => rfl⟩
  | cons x xs ih =>
    rw [List.forall_mem_cons, ← ih]
    change (f x >>= fun _ => xs.forM f) = .ok () ↔ _
    rw [bind_eq_ok]
    exact ⟨fun ⟨_, hx, hrest⟩ => ⟨hx, hrest⟩, fun ⟨hx, hrest⟩ => ⟨(), hx, hrest⟩⟩

theorem forM_congr {f g : α → Except ε Unit} {xs : List α} (h : ∀ x ∈ xs, f x = g x) :
    xs.forM f = xs.forM g := by
  induction xs with
  | nil => rfl
  | cons x xs ih =>
    rw [List.forall_mem_cons] at h
    change (f x >>= fun _ => xs.forM f) = (g x >>= fun _ => xs.forM g)
    rw [h.1, ih h.2]

/-- Where each value is translated, so are all values, and failures stay. -/
theorem mapM_translated {f : α → Except ε β} {f' : α → Except ε β'} {h : β → β'}
    (each : ∀ x, f' x = (f x).map h) (xs : List α) :
    xs.mapM f' = (xs.mapM f).map (List.map h) := by
  induction xs with
  | nil => rfl
  | cons x xs ih =>
    rw [List.mapM_cons, List.mapM_cons, each, ih]
    cases f x with
    | error e => rfl
    | ok y => cases xs.mapM f <;> rfl

/-- Where each step is translated, so are all steps in a row. -/
theorem foldlM_translated {f : β → α → Except ε β} {f' : β' → α' → Except ε β'} {g : α → α'}
    {h : β → β'} (each : ∀ b a, f' (h b) (g a) = (f b a).map h) (xs : List α) (b : β) :
    (xs.map g).foldlM f' (h b) = (xs.foldlM f b).map h := by
  induction xs generalizing b with
  | nil => rfl
  | cons x xs ih =>
    rw [List.map_cons, List.foldlM_cons, List.foldlM_cons, each]
    cases f b x with
    | error e => rfl
    | ok c => exact ih c

/-- What every step keeps holds after all of them. -/
theorem foldlM_preserves {P : β → Prop} {f : β → α → Except ε β} {xs : List α}
    (step : ∀ a ∈ xs, ∀ b c, P b → f b a = .ok c → P c) {b c : β} (hb : P b)
    (h : xs.foldlM f b = .ok c) : P c := by
  induction xs generalizing b with
  | nil =>
    cases h
    exact hb
  | cons x xs ih =>
    rw [List.forall_mem_cons] at step
    rw [List.foldlM_cons] at h
    obtain ⟨b', hb', h⟩ := bind_eq_ok.mp h
    exact ih step.2 (step.1 b b' hb hb') h

/-- Where each step that succeeds is followed by a step on related entries, so are all steps in a row. -/
theorem foldlM_simulated {R : β → β' → Prop} {S : α → α' → Prop} {f : β → α → Except ε β}
    {f' : β' → α' → Except ε β'}
    (step : ∀ a a', S a a' → ∀ b b' c', R b b' → f' b' a' = .ok c' → ∃ c, f b a = .ok c ∧ R c c')
    {xs : List α} {xs' : List α'} (related : List.Forall₂ S xs xs') {b : β} {b' c' : β'}
    (hb : R b b') (h : xs'.foldlM f' b' = .ok c') : ∃ c, xs.foldlM f b = .ok c ∧ R c c' := by
  induction related generalizing b b' with
  | nil =>
    cases h
    exact ⟨b, rfl, hb⟩
  | cons ha _ ih =>
    rw [List.foldlM_cons] at h
    obtain ⟨d', hd', h⟩ := bind_eq_ok.mp h
    obtain ⟨d, hd, hdd⟩ := step _ _ ha _ _ _ hb hd'
    obtain ⟨c, hc, hcc⟩ := ih hdd h
    exact ⟨c, by rw [List.foldlM_cons, hd, ok_bind, hc], hcc⟩

/-- Every failure is of a kind. -/
def FailsAs (P : ε → Prop) (x : Except ε α) : Prop := ∀ e, x = .error e → P e

namespace FailsAs

variable {P : ε → Prop} {x : Except ε α}

theorem ok (a : α) : FailsAs P (.ok a : Except ε α) := by
  intro e h
  cases h

theorem error {e : ε} (h : P e) : FailsAs P (.error e : Except ε α) := by
  intro e' h'
  cases h'
  exact h

theorem bind {f : α → Except ε β} (hx : FailsAs P x) (hf : ∀ a, FailsAs P (f a)) :
    FailsAs P (x >>= f) := by
  cases x with
  | error e => exact error (hx e rfl)
  | ok a => exact hf a

theorem map {f : α → β} (hx : FailsAs P x) : FailsAs P (x.map f) := by
  cases x with
  | error e => exact error (hx e rfl)
  | ok a => exact ok (f a)

theorem mapError {f : ε' → ε} (h : ∀ e, P (f e)) (y : Except ε' α) : FailsAs P (y.mapError f) := by
  cases y with
  | error e => exact error (h e)
  | ok a => exact ok a

theorem mapM {f : α → Except ε β} {xs : List α} (hf : ∀ x ∈ xs, FailsAs P (f x)) :
    FailsAs P (xs.mapM f) := by
  induction xs with
  | nil => exact ok []
  | cons x xs ih =>
    rw [List.forall_mem_cons] at hf
    rw [List.mapM_cons]
    exact hf.1.bind fun y => (ih hf.2).bind fun ys => ok (y :: ys)

theorem foldlM {f : β → α → Except ε β} (hf : ∀ b a, FailsAs P (f b a)) (xs : List α) (b : β) :
    FailsAs P (xs.foldlM f b) := by
  induction xs generalizing b with
  | nil => exact ok b
  | cons x xs ih =>
    rw [List.foldlM_cons]
    exact (hf b x).bind ih

end FailsAs

end MeshIncidence.Outcome
