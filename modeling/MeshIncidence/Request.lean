import MeshIncidence.Store

/-!
Requests against a store. A request may record counts and relations, leaves notes of what it does,
and succeeds or fails; a failed request keeps what it has recorded and noted so far.
-/
namespace MeshIncidence

/-- Something worth noting while a request runs. -/
inductive Note where
  | requested (d0 d1 : Int)
  | derived (d0 d1 : Int)
  | numbering (dim : Int)
  | numbered (count : Nat) (dim : Int)
  | transposing (d0 d1 : Int)
  | composing (d0 d1 d : Int)
  | composed (d0 d1 : Int) (rows widest : Nat)
  deriving DecidableEq, Repr

namespace Note

def text : Note → String
  | requested d0 d1 => s!"Requesting connectivity {d0} - {d1}."
  | derived d0 d1 => s!"Computed connectivity {d0} - {d1}."
  | numbering dim => s!"Creating mesh entities of dimension {dim}."
  | numbered count dim => s!"Created {count} entities of dimension {dim}."
  | transposing d0 d1 => s!"Computing mesh connectivity {d0} - {d1} from transpose."
  | composing d0 d1 d =>
    s!"Computing mesh connectivity {d0} - {d1} from intersection {d0} - {d} - {d1}."
  | composed d0 d1 rows widest =>
    s!"Connectivity {d0} - {d1}: {rows} rows, at most {widest} entries per row."

end Note

structure Progress where
  store : Store
  notes : List Note
  deriving DecidableEq, Repr

def Request (α : Type) : Type := Progress → Except Fault α × Progress

namespace Request

variable {α β : Type}

def pure (a : α) : Request α := fun p => (.ok a, p)

def bind (x : Request α) (f : α → Request β) : Request β := fun p =>
  match x p with
  | (.ok a, q) => f a q
  | (.error e, q) => (.error e, q)

instance : Monad Request where
  pure := pure
  bind := bind

def fail (e : Fault) : Request α := fun p => (.error e, p)

def note (n : Note) : Request Unit := fun p => (.ok (), { p with notes := p.notes ++ [n] })

/-- The store as it is now. -/
def store : Request Store := fun p => (.ok p.store, p)

/-- An outcome that does not touch the store. -/
def lift (x : Except Fault α) : Request α := fun p => (x, p)

/-- Reads from the store as it is now. -/
def read (f : Store → Except Fault α) : Request α := fun p => (f p.store, p)

/-- Writes to the store, or leaves it if the write is refused. -/
def write (f : Store → Except Fault Store) : Request Unit := fun p =>
  match f p.store with
  | .ok s => (.ok (), { p with store := s })
  | .error e => (.error e, p)

/-- Runs a request on a store. -/
def run (x : Request α) (s : Store) : Except Fault α × Progress := x ⟨s, []⟩

@[simp] theorem pure_apply (a : α) (p : Progress) : (Pure.pure a : Request α) p = (.ok a, p) := rfl

@[simp] theorem fail_apply (e : Fault) (p : Progress) :
    (fail e : Request α) p = (.error e, p) := rfl

@[simp] theorem note_apply (n : Note) (p : Progress) :
    note n p = (.ok (), { p with notes := p.notes ++ [n] }) := rfl

@[simp] theorem store_apply (p : Progress) : store p = (.ok p.store, p) := rfl

@[simp] theorem lift_apply (x : Except Fault α) (p : Progress) : lift x p = (x, p) := rfl

@[simp] theorem read_apply (f : Store → Except Fault α) (p : Progress) :
    read f p = (f p.store, p) := rfl

theorem write_of_ok {f : Store → Except Fault Store} {p : Progress} {s : Store}
    (h : f p.store = .ok s) : write f p = (.ok (), { p with store := s }) := by
  simp [write, h]

theorem write_of_error {f : Store → Except Fault Store} {p : Progress} {e : Fault}
    (h : f p.store = .error e) : write f p = (.error e, p) := by
  simp [write, h]

theorem bind_apply (x : Request α) (f : α → Request β) (p : Progress) :
    (x >>= f) p =
      match x p with
      | (.ok a, q) => f a q
      | (.error e, q) => (.error e, q) := rfl

theorem bind_of_ok {x : Request α} {f : α → Request β} {p q : Progress} {a : α}
    (h : x p = (.ok a, q)) : (x >>= f) p = f a q := by
  change bind x f p = f a q
  simp [bind, h]

theorem bind_of_error {x : Request α} {f : α → Request β} {p q : Progress} {e : Fault}
    (h : x p = (.error e, q)) : (x >>= f) p = (.error e, q) := by
  change bind x f p = (.error e, q)
  simp [bind, h]

/-- A sequence succeeds exactly when both of its parts do. -/
theorem bind_eq_ok_iff {x : Request α} {f : α → Request β} {p r : Progress} {b : β} :
    (x >>= f) p = (.ok b, r) ↔ ∃ a q, x p = (.ok a, q) ∧ f a q = (.ok b, r) := by
  cases hx : x p with
  | mk result q =>
    cases result with
    | error e => simp [bind_of_error hx]
    | ok a =>
      rw [bind_of_ok hx]
      constructor
      · exact fun h => ⟨a, q, rfl, h⟩
      · rintro ⟨c, t, h, hf⟩
        cases h
        exact hf

end Request

end MeshIncidence
