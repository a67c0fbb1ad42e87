import Mathlib
import MeshIncidence.Proofs.Resolution.Tampered

/-!
Requests for a relation go round through one another: one for a relation asks for entities, and these
for the cells that touch. On the store of an accepted mesh, whatever has been written to it, the
round is never longer than four. What a fifth request inside the others would do does not matter,
since it is not made.
-/
namespace MeshIncidence

namespace Request

variable {α β : Type} {x y : Request α} {f g : α → Request β}

/-- Ends as the other does, unless nesting is spent on the way. -/
def Approximates (x y : Request α) : Prop := ∀ p, (x p).1 = .error .nestingSpent ∨ x p = y p

namespace Approximates

theorem refl (x : Request α) : Approximates x x := fun _ => .inr rfl

theorem spent (y : Request α) : Approximates (fail .nestingSpent) y := fun _ => .inl rfl

theorem bind (hx : Approximates x y) (hf : ∀ a, Approximates (f a) (g a)) :
    Approximates (x >>= f) (y >>= g) := by
  intro p
  rw [bind_apply, bind_apply]
  rcases hx p with spent | same
  · left
    rcases hxp : x p with ⟨e | a, q⟩
    · simpa [hxp] using spent
    · simp [hxp] at spent
  · rw [← same]
    rcases hxp : x p with ⟨e | a, q⟩
    · exact .inr rfl
    · exact hf a q

theorem ite {c : Prop} [Decidable c] {x' y' : Request α} (hx : Approximates x y)
    (hy : Approximates x' y') : Approximates (if c then x else x') (if c then y else y') := by
  split
  · exact hx
  · exact hy

end Approximates

end Request

open Request

namespace Resolution

variable {shape : Shape} {resolve resolve' : Int → Int → Request Unit}

/-- One request for a relation. Those inside it are asked for through `resolve`. -/
def activation (resolve : Int → Int → Request Unit) (shape : Shape) (d0 d1 : Int) : Request Unit := do
  note (.requested d0 d1)
  if ← read fun s => s.hasRelation d0 d1 then Pure.pure ()
  else do
    let _ ← entitiesBy resolve shape d0
    let _ ← entitiesBy resolve shape d1
    settleBy resolve d0 d1

/-- Requests for relations, so many of them inside one another, and `beyond` inside the last. -/
def relationOver (beyond : Int → Int → Request Unit) (shape : Shape) : Nat → Int → Int → Request Unit
  | 0 => beyond
  | n + 1 => activation (relationOver beyond shape n) shape

theorem relationWithin_eq_relationOver (shape : Shape) (n : Nat) :
    relationWithin shape n = relationOver (fun _ _ => fail .nestingSpent) shape n := by
  induction n with
  | zero => rfl
  | succ n ih =>
    rw [relationOver, ← ih]
    rfl

theorem relationWithin_add (shape : Shape) (n more : Nat) :
    relationWithin shape (n + more) = relationOver (relationWithin shape more) shape n := by
  induction n with
  | zero => rw [Nat.zero_add, relationOver]
  | succ n ih =>
    rw [Nat.succ_add, relationOver, ← ih]
    rfl

theorem approximates_entitiesBy (h : ∀ a b, Approximates (resolve a b) (resolve' a b)) (d : Int) :
    Approximates (entitiesBy resolve shape d) (entitiesBy resolve' shape d) := by
  refine .bind (.refl _) fun s => .ite (.bind (.refl _) fun there => .ite (.refl _) ?_) (.refl _)
  exact .bind (h _ _) fun _ => .refl _

theorem approximates_deriveBy (h : ∀ a b, Approximates (resolve a b) (resolve' a b)) (d0 d1 : Int) :
    Approximates (deriveBy resolve d0 d1) (deriveBy resolve' d0 d1) := by
  refine .ite (.bind (h _ _) fun _ => .refl _) (.ite (.refl _) ?_)
  exact .bind (.refl _) fun s => .bind (h _ _) fun _ => .bind (h _ _) fun _ => .refl _

theorem approximates_activation (h : ∀ a b, Approximates (resolve a b) (resolve' a b)) (d0 d1 : Int) :
    Approximates (activation resolve shape d0 d1) (activation resolve' shape d0 d1) := by
  refine .bind (.refl _) fun _ => .bind (.refl _) fun there => .ite (.refl _) ?_
  refine .bind (approximates_entitiesBy h d0) fun _ => ?_
  refine .bind (approximates_entitiesBy h d1) fun _ => ?_
  refine .bind (.refl _) fun there => .ite (.refl _) ?_
  exact .bind (approximates_deriveBy h d0 d1) fun _ => .refl _

theorem approximates_relationOver (beyond : Int → Int → Request Unit) (n : Nat) (d0 d1 : Int) :
    Approximates (relationWithin shape n d0 d1) (relationOver beyond shape n d0 d1) := by
  rw [relationWithin_eq_relationOver]
  induction n generalizing d0 d1 with
  | zero => exact .spent _
  | succ n ih => exact approximates_activation ih d0 d1

end Resolution

namespace Request

variable {α : Type} {x y : Request α}

/-- Where no misstep is made, nesting is not spent. -/
theorem Approximates.run_eq (h : Approximates x y) (orderly : Orderly x) {s : Store}
    (coherent : s.Coherent) : (x.run s).1 ≠ .error .nestingSpent ∧ y.run s = x.run s := by
  -- A request that runs out of nesting would make a misstep.
  have unspent : (x.run s).1 ≠ .error .nestingSpent := fun spent => by
    have := orderly.steady ⟨s, []⟩ coherent _ spent
    cases this
  exact ⟨unspent, ((h ⟨s, []⟩).resolve_left unspent).symm⟩

end Request

namespace Mesh

variable {m : Mesh} {s : Store}

/-- On whatever has been written to the store of an accepted mesh, requests for relations and for
entities come to an end, with no more than four requests for relations inside one another: whatever
is put in the place of a fifth, the same comes of them, notes included. So it does where more nesting
is allowed. -/
theorem nesting_suffices (accepted : m.Accepted) (written : m.store.Written s)
    (beyond : Int → Int → Request Unit) (more : Nat) (d0 d1 : Int) :
    let related := (Resolution.relation m.shape d0 d1).run s
    let counted := (Resolution.entities m.shape d0).run s
    related.1 ≠ .error .nestingSpent ∧ counted.1 ≠ .error .nestingSpent ∧
      (Resolution.relationOver beyond m.shape 4 d0 d1).run s = related ∧
      (Resolution.entitiesBy (Resolution.relationOver beyond m.shape 4) m.shape d0).run s = counted ∧
      (Resolution.relationWithin m.shape (4 + more) d0 d1).run s = related := by
  have coherent := accepted.coherent written
  have relations := Resolution.orderly_relation m.shape d0 d1
  have any : ∀ beyond a b, Approximates (Resolution.relation m.shape a b)
      (Resolution.relationOver beyond m.shape 4 a b) := fun beyond a b =>
    Resolution.approximates_relationOver beyond 4 a b
  obtain ⟨related, same⟩ := (any beyond d0 d1).run_eq relations coherent
  obtain ⟨counted, same'⟩ := (Resolution.approximates_entitiesBy (any beyond) d0).run_eq
    (Resolution.orderly_entities m.shape d0) coherent
  refine ⟨related, counted, same, same', ?_⟩
  rw [Resolution.relationWithin_add]
  exact ((any _ d0 d1).run_eq relations coherent).2

/-- Four are needed: the edges of each triangle are looked for on triangles that touch, which takes
the triangles at each vertex, and these the vertices of each triangle. -/
theorem nesting_suffices_strip :
    let related := (Resolution.relation strip.shape 1 2).run tampered
    let beyond : Int → Int → Request Unit := fun _ _ => fail (.negativeCount 0)
    ((Resolution.relationWithin strip.shape 3 1 2).run strip.store).1 = .error .nestingSpent ∧
      strip.Accepted ∧ strip.store.Written tampered ∧
      related.1 = .error .entryOutside ∧ related.1 ≠ .error .nestingSpent ∧
      (Resolution.relationOver beyond strip.shape 4 1 2).run tampered = related := by
  have spent :
      ((Resolution.relationWithin strip.shape 3 1 2).run strip.store).1 = .error .nestingSpent := by cbv
  have failed : ((Resolution.relation strip.shape 1 2).run tampered).1 = .error .entryOutside := by
    cbv
  obtain ⟨unspent, -, same, -⟩ := nesting_suffices strip_accepted tampered_written
    (fun _ _ => fail (.negativeCount 0)) 0 1 2
  exact ⟨spent, strip_accepted, tampered_written, failed, unspent, same⟩

end Mesh

end MeshIncidence
