import Mathlib
import MeshIncidence.Derivation
import MeshIncidence.Proofs.Outcome

/-!
Rows that are gathered on a way through other rows. If every number on the way refers to a row that is
there, a row is found: what is met and belongs, each entity once, where it is first met.
-/
namespace MeshIncidence

section Distinct

variable {α : Type} [BEq α] [LawfulBEq α]

theorem nodup_eraseDups (l : List α) : l.eraseDups.Nodup := by
  induction hn : l.length using Nat.strong_induction_on generalizing l with
  | _ n ih =>
    cases l with
    | nil => simp
    | cons a l =>
      rw [List.eraseDups_cons, List.nodup_cons, List.mem_eraseDups]
      refine ⟨by simp, ih _ ?_ _ rfl⟩
      rw [← hn, List.length_cons]
      exact Nat.lt_succ_of_le (List.length_filter_le _ _)

theorem eraseDups_concat_of_mem {l : List α} {a : α} (h : a ∈ l) :
    (l ++ [a]).eraseDups = l.eraseDups := by
  rw [List.eraseDups_append]
  simp [List.removeAll, h]

theorem eraseDups_concat_of_not_mem {l : List α} {a : α} (h : a ∉ l) :
    (l ++ [a]).eraseDups = l.eraseDups ++ [a] := by
  rw [List.eraseDups_append]
  simp [List.removeAll, h, List.eraseDups_cons]

theorem eraseDups_of_nodup {l : List α} (h : l.Nodup) : l.eraseDups = l := by
  induction l with
  | nil => simp
  | cons a l ih =>
    obtain ⟨new, rest⟩ := List.nodup_cons.mp h
    have kept : (l.filter fun b => !b == a) = l :=
      List.filter_eq_self.mpr fun b hb => by simpa using ne_of_mem_of_not_mem hb new
    rw [List.eraseDups_cons, kept, ih rest]

/-- The first of each kept entry is the first of each, where it is kept. -/
theorem filter_eraseDups (p : α → Bool) (l : List α) :
    l.eraseDups.filter p = (l.filter p).eraseDups := by
  induction l using List.reverseRecOn with
  | nil => simp
  | append_singleton l a ih =>
    rw [List.filter_append l [a]]
    by_cases kept : p a
    · rw [List.filter_cons_of_pos kept, List.filter_nil]
      by_cases known : a ∈ l
      · rw [eraseDups_concat_of_mem known, ih,
          eraseDups_concat_of_mem (List.mem_filter.mpr ⟨known, kept⟩)]
      · rw [eraseDups_concat_of_not_mem known, List.filter_append, ih, List.filter_cons_of_pos kept,
          List.filter_nil, eraseDups_concat_of_not_mem fun h => known (List.mem_filter.mp h).1]
    · rw [List.filter_cons_of_neg kept, List.filter_nil, List.append_nil, ← ih]
      by_cases known : a ∈ l
      · rw [eraseDups_concat_of_mem known]
      · rw [eraseDups_concat_of_not_mem known, List.filter_append, List.filter_cons_of_neg kept,
          List.filter_nil, List.append_nil]

end Distinct

namespace Derivation

/-- The row of an entity, or no entries. -/
def rowAt (rows : List (List Int)) (e : Int) : List Int := rows.getD e.toNat []

theorem rowAt_natCast {rows : List (List Int)} {i : Nat} (h : i < rows.length) :
    rowAt rows i = rows[i] := by
  rw [rowAt, Int.toNat_natCast, List.getD_eq_getElem _ _ h]

theorem rowAt_mem {rows : List (List Int)} {e : Int} (h0 : 0 ≤ e) (h1 : e < rows.length) :
    rowAt rows e ∈ rows := by
  obtain ⟨i, rfl⟩ := Int.eq_ofNat_of_zero_le h0
  have hi : i < rows.length := by omega
  rw [rowAt_natCast hi]
  exact List.getElem_mem hi

theorem rowOf_eq {rows : List (List Int)} {e : Int} (h0 : 0 ≤ e) (h1 : e < rows.length) :
    rowOf rows e = .ok (rowAt rows e) := by
  obtain ⟨k, rfl⟩ := Int.eq_ofNat_of_zero_le h0
  have hk : k < rows.length := by omega
  simp [rowOf, rowAt, Position.entry?_natCast, hk]

/-- A row grows by what is met, belongs and is not in it, each entity once. -/
theorem foldlM_gather {keeps : Keeps} {keep : Int → Bool} {met : List Int} (row : List Int)
    (pure : ∀ e ∈ met, keeps e = .ok (keep e)) :
    met.foldlM (gather keeps) row =
      .ok (row ++ ((met.filter keep).filter fun e => !row.contains e).eraseDups) := by
  induction met generalizing row with
  | nil =>
    rw [List.foldlM_nil]
    simp [Pure.pure, Except.pure]
  | cons e met ih =>
    have rest : ∀ e' ∈ met, keeps e' = .ok (keep e') := fun e' he' =>
      pure e' (List.mem_cons_of_mem _ he')
    rw [List.foldlM_cons, gather]
    by_cases known : row.contains e
    · have dropped : ¬ (!row.contains e) = true := by rw [known]; decide
      rw [if_pos known, Outcome.ok_bind, ih row rest, List.filter_cons]
      split
      · rw [List.filter_cons, if_neg dropped]
      · rfl
    · rw [if_neg known, pure e (List.mem_cons_self ..), Outcome.map_ok, Outcome.ok_bind]
      by_cases belongs : keep e
      · have later : (met.filter keep).filter (fun x => !(row ++ [e]).contains x) =
            ((met.filter keep).filter fun x => !row.contains x).filter fun x => !x == e := by
          rw [eq_comm, List.filter_filter]
          refine List.filter_congr fun x _ => ?_
          by_cases hx : x = e <;> simp [hx]
        rw [if_pos belongs, ih (row ++ [e]) rest, later, List.filter_cons, if_pos belongs,
          List.filter_cons, if_pos (by simpa using known), List.eraseDups_cons, List.append_assoc,
          List.singleton_append]
      · rw [if_neg belongs, ih row rest, List.filter_cons, if_neg belongs]

/-- Whatever is met and kept, a row lists no entity twice. -/
theorem nodup_row {onward : List (List Int)} {keeps : Keeps} {between found : List Int}
    (h : row onward keeps between = .ok found) : found.Nodup := by
  obtain ⟨met, -, h⟩ := Outcome.bind_eq_ok.mp h
  refine Outcome.foldlM_preserves (P := List.Nodup) (fun e _ row row' nodup step => ?_) List.nodup_nil h
  unfold gather at step
  split at step
  · cases step
    exact nodup
  rename_i new
  obtain ⟨keep, -, rfl⟩ := Outcome.map_eq_ok.mp step
  split
  · exact List.concat_eq_append ▸ nodup.concat (by simpa using new)
  · exact nodup

theorem nodup_rows {onward : List (List Int)} {between : List (List Int × Keeps)}
    {found : List (List Int)} (h : rows onward between = .ok found) {row : List Int}
    (hrow : row ∈ found) : row.Nodup := by
  obtain ⟨entry, -, each⟩ := (Outcome.mem_of_mapM h).mp hrow
  exact nodup_row each

theorem reached_eq {onward : List (List Int)} {between : List Int}
    (inside : ∀ e ∈ between, 0 ≤ e ∧ e < onward.length) :
    reached onward between = .ok (between.flatMap (rowAt onward)) := by
  have rows : between.mapM (rowOf onward) = .ok (between.map (rowAt onward)) :=
    Outcome.mapM_eq_map fun e he => rowOf_eq (inside e he).1 (inside e he).2
  rw [reached, rows, Outcome.map_ok, List.flatMap_def]

/-- One row: what is met and belongs, each entity once, in the order of meeting. -/
theorem row_eq {onward : List (List Int)} {keeps : Keeps} (keep : Int → Bool) {between : List Int}
    (inside : ∀ e ∈ between, 0 ≤ e ∧ e < onward.length)
    (pure : ∀ e ∈ between.flatMap (rowAt onward), keeps e = .ok (keep e)) :
    row onward keeps between =
      .ok ((between.flatMap (rowAt onward)).filter keep).eraseDups := by
  rw [row, reached_eq inside, Outcome.ok_bind, foldlM_gather [] pure]
  simp

/-- The neighbours of the entity `e`. -/
def neighboursOf (onward : List (List Int)) (between : List Int) (e : Nat) : List Int :=
  ((between.flatMap (rowAt onward)).filter fun x : Int => decide (x ≠ e)).eraseDups

theorem neighbourRows_eq {onward between : List (List Int)}
    (inside : ∀ row ∈ between, ∀ e ∈ row, 0 ≤ e ∧ e < onward.length) :
    neighbourRows onward between =
      .ok (between.zipIdx.map fun entry => neighboursOf onward entry.1 entry.2) := by
  rw [neighbourRows, rows, List.mapM_map]
  refine Outcome.mapM_eq_map fun entry hentry => ?_
  exact row_eq (fun x => decide (x ≠ (entry.2 : Int)))
    (inside entry.1 (List.fst_mem_of_mem_zipIdx hentry)) fun e _ => rfl

/-- The parts met that lie within the given vertices. -/
def partsOf (onward partVertices : List (List Int)) (between vertices : List Int) : List Int :=
  ((between.flatMap (rowAt onward)).filter fun x =>
    VertexList.subsetOf (rowAt partVertices x) vertices).eraseDups

theorem partRows_eq {onward between vertices partVertices : List (List Int)}
    (inside : ∀ row ∈ between, ∀ e ∈ row, 0 ≤ e ∧ e < onward.length)
    (met : ∀ row ∈ onward, ∀ e ∈ row, 0 ≤ e ∧ e < partVertices.length) :
    partRows onward between vertices partVertices =
      .ok ((between.zip vertices).map fun entry =>
        partsOf onward partVertices entry.1 entry.2) := by
  rw [partRows, rows, List.mapM_map]
  refine Outcome.mapM_eq_map fun entry hentry => ?_
  have hin := inside entry.1 (List.of_mem_zip hentry).1
  refine row_eq (fun x => VertexList.subsetOf (rowAt partVertices x) entry.2) hin fun e he => ?_
  obtain ⟨b, hb, he⟩ := List.mem_flatMap.mp he
  have := met _ (rowAt_mem (hin b hb).1 (hin b hb).2) e he
  change contained entry.2 partVertices e = _
  simp [contained, rowOf_eq this.1 this.2]

/-- Rows of parts, on a way through the vertices of the wholes themselves. -/
theorem partRows_self_eq {onward wholes partVertices : List (List Int)}
    (inside : ∀ row ∈ wholes, ∀ e ∈ row, 0 ≤ e ∧ e < onward.length)
    (met : ∀ row ∈ onward, ∀ e ∈ row, 0 ≤ e ∧ e < partVertices.length) :
    partRows onward wholes wholes partVertices =
      .ok (wholes.map fun whole => partsOf onward partVertices whole whole) := by
  have pairs : wholes.zip wholes = wholes.map fun whole => (whole, whole) := by
    simpa using List.zip_map' (f := id) (g := id) (l := wholes)
  rw [partRows_eq inside met, pairs, List.map_map]
  rfl

theorem length_rows {onward : List (List Int)} {between : List (List Int × Keeps)}
    {found : List (List Int)} (h : rows onward between = .ok found) :
    found.length = between.length :=
  Outcome.length_of_mapM h

theorem length_neighbourRows {onward between found : List (List Int)}
    (h : neighbourRows onward between = .ok found) : found.length = between.length := by
  have := length_rows h
  simpa using this

theorem length_partRows {onward between vertices partVertices found : List (List Int)}
    (same : vertices.length = between.length)
    (h : partRows onward between vertices partVertices = .ok found) :
    found.length = between.length := by
  have := length_rows h
  simpa [same] using this

end Derivation

end MeshIncidence
