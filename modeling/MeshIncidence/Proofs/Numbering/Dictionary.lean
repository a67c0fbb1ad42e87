import Mathlib
import MeshIncidence.Numbering
import MeshIncidence.Proofs.Derivation.Gathering

/-!
Numbering by a dictionary. Parts are entered by their keys, cell after cell, each key once and with the
next number; the same key anywhere has the same number. What has been entered is a snapshot: the keys
in the order of their first occurrence, and for each cell the places of its keys among them.
-/
namespace MeshIncidence.Numbering

/-- Enters one key of a cell. -/
def enter (cell : Nat) (n : Numbering) (key : List Int) : Numbering :=
  if key ∈ n.entityVertices then n.assign cell (n.entityVertices.idxOf key)
  else (n.extend key).assign cell n.count

/-- Enters the keys of all cells, in order. -/
def byDictionary (keys : List (List (List Int))) : Numbering :=
  keys.zipIdx.foldl (fun n cell => cell.1.foldl (enter cell.2) n) (initial keys.length)

/-- The keys of cells that are done, and of one that is not, in the order of first occurrence. -/
def firsts (walked : List (List (List Int))) (here : List (List Int)) : List (List Int) :=
  (walked.flatten ++ here).eraseDups

def places (keys : List (List Int)) (row : List (List Int)) : List Nat := row.map keys.idxOf

/-- What is entered after some cells, a part of the next one and before `rest` others. -/
def snapshot (walked : List (List (List Int))) (here : List (List Int)) (rest : Nat) : Numbering where
  cellEntities := walked.map (places (firsts walked here)) ++
    places (firsts walked here) here :: List.replicate rest []
  entityVertices := firsts walked here

variable {walked : List (List (List Int))} {here row : List (List Int)} {key : List Int} {rest : Nat}

/-- Different keys have different places. -/
theorem nodup_places {keys : List (List Int)} (different : row.Nodup)
    (known : ∀ key ∈ row, key ∈ keys) : (places keys row).Nodup :=
  different.map_on fun a ha _ _ same => (List.idxOf_inj (known a ha)).mp same

theorem mem_firsts : key ∈ firsts walked here ↔ key ∈ walked.flatten ∨ key ∈ here := by
  rw [firsts, List.mem_eraseDups, List.mem_append]

theorem firsts_concat : firsts walked (here ++ [key]) =
    if key ∈ firsts walked here then firsts walked here else firsts walked here ++ [key] := by
  simp only [firsts, ← List.append_assoc, List.mem_eraseDups]
  split
  · rename_i h
    exact eraseDups_concat_of_mem h
  · rename_i h
    exact eraseDups_concat_of_not_mem h

/-- Numbers that were given stay. -/
theorem places_concat (key : List Int) (h : ∀ k ∈ row, k ∈ firsts walked here) :
    places (firsts walked (here ++ [key])) row = places (firsts walked here) row := by
  refine List.map_congr_left fun k hk => ?_
  rw [firsts_concat]
  split
  · rfl
  · exact List.idxOf_append_of_mem (h k hk)

/-- A new key gets the next number, a known one the number it has. -/
theorem idxOf_concat : (firsts walked (here ++ [key])).idxOf key =
    (firsts walked here).idxOf key := by
  rw [firsts_concat]
  split
  · rfl
  · rename_i new
    rw [List.idxOf_append, if_neg new, List.idxOf_cons_self, List.idxOf_eq_length new, Nat.zero_add]

theorem modify_append_cons {α : Type} (before after : List α) (a : α) (f : α → α) :
    (before ++ a :: after).modify before.length f = before ++ f a :: after := by
  induction before with
  | nil => simp
  | cons b before ih => simp [ih]

/-- Entering a key takes a snapshot to the next one. -/
theorem enter_snapshot :
    enter walked.length (snapshot walked here rest) key = snapshot walked (here ++ [key]) rest := by
  have kept : walked.map (places (firsts walked (here ++ [key]))) =
      walked.map (places (firsts walked here)) := by
    refine List.map_congr_left fun row hrow => places_concat key fun k hk => ?_
    exact mem_firsts.mpr (Or.inl (List.mem_flatten.mpr ⟨row, hrow, hk⟩))
  have next : places (firsts walked (here ++ [key])) (here ++ [key]) =
      places (firsts walked here) here ++ [(firsts walked here).idxOf key] := by
    have old : ∀ k ∈ here, k ∈ firsts walked here := fun k hk => mem_firsts.mpr (Or.inr hk)
    rw [places, List.map_append, List.map_singleton, idxOf_concat]
    exact congrArg (· ++ [(firsts walked here).idxOf key]) (places_concat key old)
  have assigned : ∀ vertices : List (List Int),
      assign { snapshot walked here rest with entityVertices := vertices } walked.length
        ((firsts walked here).idxOf key) =
      { cellEntities := (snapshot walked (here ++ [key]) rest).cellEntities
        entityVertices := vertices } := by
    intro vertices
    have position : walked.length = (walked.map (places (firsts walked here))).length := by simp
    simp only [assign, snapshot, kept, next]
    rw [position, modify_append_cons]
  have known : (snapshot walked here rest).entityVertices = firsts walked here := rfl
  have after : (snapshot walked (here ++ [key]) rest).entityVertices =
      if key ∈ firsts walked here then firsts walked here else firsts walked here ++ [key] :=
    firsts_concat
  rw [enter, known]
  split
  · rename_i old
    rw [if_pos old] at after
    calc assign (snapshot walked here rest) walked.length ((firsts walked here).idxOf key)
        = ⟨(snapshot walked (here ++ [key]) rest).cellEntities, firsts walked here⟩ :=
          assigned (firsts walked here)
      _ = snapshot walked (here ++ [key]) rest := by simp [← after]
  · rename_i new
    rw [if_neg new] at after
    have number : (snapshot walked here rest).count = (firsts walked here).idxOf key := by
      rw [count, known, List.idxOf_eq_length new]
    rw [number]
    calc assign ((snapshot walked here rest).extend key) walked.length
          ((firsts walked here).idxOf key)
        = ⟨(snapshot walked (here ++ [key]) rest).cellEntities, firsts walked here ++ [key]⟩ :=
          assigned (firsts walked here ++ [key])
      _ = snapshot walked (here ++ [key]) rest := by simp [← after]

theorem foldl_enter_snapshot (row : List (List Int)) :
    row.foldl (enter walked.length) (snapshot walked here rest) =
      snapshot walked (here ++ row) rest := by
  induction row generalizing here with
  | nil => simp
  | cons key row ih => rw [List.foldl_cons, enter_snapshot, ih, List.append_assoc, List.singleton_append]

/-- What is entered between two cells. -/
def finished (walked : List (List (List Int))) (rest : Nat) : Numbering where
  cellEntities := walked.map (places (firsts walked [])) ++ List.replicate rest []
  entityVertices := firsts walked []

theorem finished_succ : finished walked (rest + 1) = snapshot walked [] rest := by
  simp [finished, snapshot, places, List.replicate_succ]

theorem snapshot_row : snapshot walked row rest = finished (walked ++ [row]) rest := by
  have : firsts (walked ++ [row]) [] = firsts walked row := by simp [firsts]
  simp [finished, snapshot, this]

theorem foldl_finished (walked todo : List (List (List Int))) :
    (todo.zipIdx walked.length).foldl (fun n cell => cell.1.foldl (enter cell.2) n)
      (finished walked todo.length) = finished (walked ++ todo) 0 := by
  induction todo generalizing walked with
  | nil => simp
  | cons row todo ih =>
    have position : walked.length + 1 = (walked ++ [row]).length := by simp
    rw [List.zipIdx_cons, List.foldl_cons, List.length_cons, finished_succ, foldl_enter_snapshot,
      List.nil_append, snapshot_row, position, ih, List.append_assoc, List.singleton_append]

theorem initial_eq (cells : Nat) : initial cells = finished [] cells := by
  simp [initial, finished, firsts]

theorem byDictionary_eq_finished (keys : List (List (List Int))) :
    byDictionary keys = finished keys 0 := by
  rw [byDictionary, initial_eq]
  exact foldl_finished [] keys

/-- The dictionary lists every key where it first occurs, and refers to it by its place there. -/
theorem byDictionary_eq (keys : List (List (List Int))) :
    byDictionary keys =
      ⟨keys.map (places keys.flatten.eraseDups), keys.flatten.eraseDups⟩ := by
  rw [byDictionary_eq_finished]
  simp [finished, firsts]

end MeshIncidence.Numbering
