import MeshIncidence.Incidence.Build
import MeshIncidence.Text.Quoted

/-!
What is known of a mesh: how many entities each dimension has, and incidence relations between
dimensions. Counts and relations are written once. A recorded dimension may have no entities, which
is not the same as a dimension that was never recorded.
-/
namespace MeshIncidence

structure Store where
  dim : Int
  counts : List (Int × Nat)
  relations : List ((Int × Int) × Incidence)
  deriving DecidableEq, Repr

namespace Store

/-- Nothing known yet, for cells of dimension `dim`. -/
def blank? (dim : Int) : Except Fault Store :=
  if dim < 1 then .error (.storeDimension dim) else .ok ⟨dim, [], []⟩

def count? (s : Store) (dim : Int) : Option Nat := s.counts.lookup dim

def relation? (s : Store) (d0 d1 : Int) : Option Incidence := s.relations.lookup (d0, d1)

/-- The recorded count, or zero. -/
def sizeOf (s : Store) (dim : Int) : Nat := (s.count? dim).getD 0

/-- Dimensions from zero up to that of the cells. -/
def Covers (s : Store) (dim : Int) : Prop := 0 ≤ dim ∧ dim ≤ s.dim

instance (s : Store) (dim : Int) : Decidable (s.Covers dim) :=
  inferInstanceAs (Decidable (0 ≤ dim ∧ dim ≤ s.dim))

/-- Answers only for a dimension the store covers. -/
def within {α : Type} (s : Store) (dim : Int) (answer : Except Fault α) : Except Fault α :=
  if s.Covers dim then answer else .error (.dimensionOutside dim s.dim)

def hasCount (s : Store) (dim : Int) : Except Fault Bool :=
  s.within dim (.ok (s.count? dim).isSome)

def size (s : Store) (dim : Int) : Except Fault Nat := s.within dim (.ok (s.sizeOf dim))

/-- Records the count of a dimension. -/
def setCount (s : Store) (dim size : Int) : Except Fault Store :=
  s.within dim <|
    match s.count? dim with
    | some n => .error (.inconsistent (.countRecorded dim n))
    | none =>
      if size < 0 then .error (.negativeCount size)
      else .ok { s with counts := s.counts ++ [(dim, size.toNat)] }

def findRelation (s : Store) (d0 d1 : Int) : Except Fault (Option Incidence) :=
  s.within d0 (s.within d1 (.ok (s.relation? d0 d1)))

def hasRelation (s : Store) (d0 d1 : Int) : Except Fault Bool :=
  (s.findRelation d0 d1).map Option.isSome

/-- A relation that has to be there. -/
def relation (s : Store) (d0 d1 : Int) : Except Fault Incidence :=
  s.findRelation d0 d1 >>= fun
    | none => .error (.inconsistent (.relationMissing d0 d1))
    | some r => .ok r

/-- Records a relation. Its sources have to be recorded, one row each. -/
def setRelation (s : Store) (d0 d1 : Int) (r : Incidence) : Except Fault Store :=
  s.within d0 <| s.within d1 <|
    if (s.relation? d0 d1).isSome then .error (.inconsistent (.relationRecorded d0 d1))
    else match s.count? d0 with
      | none => .error (.inconsistent (.sourcesMissing d0 d1))
      | some n =>
        if r.sourceCount ≠ n then .error (.inconsistent (.rowCount d0 d1 r.sourceCount n))
        else .ok { s with relations := s.relations ++ [((d0, d1), r)] }

theorem setCount_ok {s t : Store} {dim size : Int} (h : s.setCount dim size = .ok t) :
    s.Covers dim ∧ s.count? dim = none ∧ 0 ≤ size ∧
      t = { s with counts := s.counts ++ [(dim, size.toNat)] } := by
  unfold setCount within at h
  split at h
  · rename_i covers
    split at h
    · cases h
    · rename_i none
      split at h
      · cases h
      · rename_i nonneg
        exact ⟨covers, none, by omega, by cases h; rfl⟩
  · cases h

theorem setRelation_ok {s t : Store} {d0 d1 : Int} {r : Incidence}
    (h : s.setRelation d0 d1 r = .ok t) :
    s.Covers d0 ∧ s.Covers d1 ∧ s.relation? d0 d1 = none ∧ s.count? d0 = some r.sourceCount ∧
      t = { s with relations := s.relations ++ [((d0, d1), r)] } := by
  unfold setRelation within at h
  split at h
  · rename_i c0
    split at h
    · rename_i c1
      split at h
      · cases h
      · rename_i fresh
        split at h
        · cases h
        · rename_i n hn
          split at h
          · cases h
          · rename_i rows
            have rows : r.sourceCount = n := by simpa using rows
            exact ⟨c0, c1, by simpa using fresh, by rw [rows]; exact hn, by cases h; rfl⟩
    · cases h
  · cases h

theorem lookup_append_singleton {κ α : Type} [BEq κ] [LawfulBEq κ] [DecidableEq κ]
    (entries : List (κ × α))
    (key new : κ) (value : α) :
    (entries ++ [(new, value)]).lookup key =
      (entries.lookup key).or (if key = new then some value else none) := by
  rw [List.lookup_append]
  congr 1
  by_cases h : key = new
  · simp [h]
  · simp [List.lookup_cons, h, beq_false_of_ne h]

/-- Recording a count changes what is known of that dimension alone. -/
theorem count?_setCount {s t : Store} {dim size : Int} (h : s.setCount dim size = .ok t)
    (d : Int) : t.count? d = if d = dim then some size.toNat else s.count? d := by
  obtain ⟨-, fresh, -, rfl⟩ := setCount_ok h
  unfold count? at *
  rw [lookup_append_singleton]
  split
  · rename_i hd
    rw [hd, fresh]
    rfl
  · simp

/-- Recording a relation changes what is known of that pair alone. -/
theorem relation?_setRelation {s t : Store} {d0 d1 : Int} {r : Incidence}
    (h : s.setRelation d0 d1 r = .ok t) (a b : Int) :
    t.relation? a b = if a = d0 ∧ b = d1 then some r else s.relation? a b := by
  obtain ⟨-, -, fresh, -, rfl⟩ := setRelation_ok h
  unfold relation? at *
  rw [lookup_append_singleton]
  simp only [Prod.mk.injEq]
  split
  · rename_i hp
    rw [hp.1, hp.2, fresh]
    rfl
  · simp

theorem relations_setCount {s t : Store} {dim size : Int} (h : s.setCount dim size = .ok t) :
    t.relations = s.relations ∧ t.dim = s.dim := by
  obtain ⟨-, -, -, rfl⟩ := setCount_ok h
  exact ⟨rfl, rfl⟩

theorem counts_setRelation {s t : Store} {d0 d1 : Int} {r : Incidence}
    (h : s.setRelation d0 d1 r = .ok t) : t.counts = s.counts ∧ t.dim = s.dim := by
  obtain ⟨-, -, -, -, rfl⟩ := setRelation_ok h
  exact ⟨rfl, rfl⟩

/-- The dimensions the store covers, ascending. -/
def dimensions (s : Store) : List Int := (List.range (s.dim + 1).toNat).map Int.ofNat

/-- Lexicographic order of pairs. -/
def pairLe (p q : Int × Int) : Bool := decide (p.1 < q.1 ∨ p.1 = q.1 ∧ p.2 ≤ q.2)

/-- Recorded dimensions, ascending. -/
def recordedDims (s : Store) : List Int :=
  (s.counts.map Prod.fst).mergeSort fun a b => decide (a ≤ b)

/-- Recorded pairs of dimensions, in lexicographic order. -/
def recordedPairs (s : Store) : List (Int × Int) := (s.relations.map Prod.fst).mergeSort pairLe

/-- Recorded counts by ascending dimension. -/
def recordedCounts (s : Store) : List (Int × Nat) :=
  s.recordedDims.map fun d => (d, s.sizeOf d)

/-- Recorded relations in lexicographic order of their pairs. -/
def recordedRelations (s : Store) : List ((Int × Int) × Incidence) :=
  s.recordedPairs.filterMap fun p => (s.relation? p.1 p.2).map fun r => (p, r)

def countsText (s : Store) : String :=
  Text.braced (s.recordedCounts.map fun entry => s!"{entry.1}: {entry.2}")

def pairsText (s : Store) : String :=
  Text.bracketed (s.recordedPairs.map fun p => s!"{p.1}-{p.2}")

def text (s : Store) : String :=
  s!"TopologyStore(dim={s.dim}, sizes=" ++ s.countsText ++ ", connectivity=" ++ s.pairsText ++ ")"

end Store

end MeshIncidence
