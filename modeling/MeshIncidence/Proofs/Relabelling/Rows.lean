import Mathlib
import MeshIncidence.Proofs.Derivation.Neighbours
import MeshIncidence.Proofs.Relabelling.Numbering

/-!
Rows of vertices by other names. Turned round, such rows list the same entities under the vertices' new
names. So a way through the vertices meets the same entities as before, in the same order where
the vertices stand in the same order, and in some order else.
-/
namespace MeshIncidence

/-- Names for the numbers below `n`, each a number below `n` again. -/
structure Renames (n : Nat) (rename : Int → Int) : Prop where
  injective : Function.Injective rename
  inside : ∀ v, 0 ≤ rename v ∧ rename v < n ↔ 0 ≤ v ∧ v < n

/-- Rows of the same entries by other names, in any order within a row. -/
def RowsRenamed (rename : Int → Int) (rows rows' : List (List Int)) : Prop :=
  List.Forall₂ (fun row row' => row'.Perm (row.map rename)) rows rows'

section Distinct

variable {α β : Type} [BEq α] [LawfulBEq α] [BEq β] [LawfulBEq β]

theorem eraseDups_map {f : α → β} (injective : Function.Injective f) (l : List α) :
    (l.map f).eraseDups = l.eraseDups.map f := by
  -- Induction on the length, since what follows an entry is filtered before it is gone through.
  induction hn : l.length using Nat.strong_induction_on generalizing l with
  | _ n ih =>
    cases l with
    | nil => simp
    | cons a l =>
      have shorter : (l.filter fun b => !b == a).length < n := by
        rw [← hn, List.length_cons]
        exact Nat.lt_succ_of_le (List.length_filter_le _ _)
      have others : (l.map f).filter (fun b => !b == f a) = (l.filter fun b => !b == a).map f := by
        rw [List.filter_map]
        congr 1
        refine List.filter_congr fun b _ => ?_
        by_cases h : b = a
        · simp [h]
        · simp [h, injective.ne h]
      rw [List.map_cons, List.eraseDups_cons, List.eraseDups_cons, others, ih _ shorter _ rfl,
        List.map_cons]

theorem eraseDups_perm {l l' : List α} (h : l.Perm l') : l.eraseDups.Perm l'.eraseDups := by
  rw [List.perm_ext_iff_of_nodup (nodup_eraseDups _) (nodup_eraseDups _)]
  simp [h.mem_iff]

end Distinct

variable {rename : Int → Int} {n : Nat} {rows rows' : List (List Int)}

namespace RowsRenamed

theorem of_map (rename : Int → Int) (rows : List (List Int)) :
    RowsRenamed rename rows (rows.map (List.map rename)) := by
  rw [RowsRenamed, List.forall₂_map_right_iff, List.forall₂_same]
  exact fun row _ => List.Perm.refl _

theorem of_renamed (rename : Int → Int) (rows : List (List Int)) :
    RowsRenamed rename rows (rows.map (VertexList.renamed rename)) := by
  rw [RowsRenamed, List.forall₂_map_right_iff, List.forall₂_same]
  exact fun row _ => VertexList.renamed_perm row

/-- The new names are in use where the old ones were. -/
theorem inside (h : RowsRenamed rename rows rows') (renames : Renames n rename)
    (old : ∀ row ∈ rows, ∀ v ∈ row, 0 ≤ v ∧ v < n) : ∀ row ∈ rows', ∀ v ∈ row, 0 ≤ v ∧ v < n := by
  induction h with
  | nil => simp
  | cons first _ ih =>
    rw [List.forall_mem_cons] at old ⊢
    refine ⟨fun v hv => ?_, ih old.2⟩
    obtain ⟨u, hu, rfl⟩ := List.mem_map.mp (first.mem_iff.mp hv)
    exact (renames.inside u).mpr (old.1 u hu)

theorem column_eq (h : RowsRenamed rename rows rows') (injective : Function.Injective rename)
    (v : Int) : Incidence.column rows' (rename v) = Incidence.column rows v := by
  refine (Incidence.column_eq_column (h.imp fun row row' perm => ?_)).symm
  rw [perm.count_eq, List.count_map_of_injective _ _ injective]

/-- A vertex has the same entities by its new name. -/
theorem rowAt_turned (h : RowsRenamed rename rows rows') (renames : Renames n rename) {v : Int}
    (hv : 0 ≤ v ∧ v < n) : Derivation.rowAt (Incidence.turned rows' n) (rename v) =
      Derivation.rowAt (Incidence.turned rows n) v := by
  rw [Incidence.rowAt_turned hv, Incidence.rowAt_turned ((renames.inside v).mpr hv),
    h.column_eq renames.injective]

end RowsRenamed

namespace Incidence

/-- The order within rows does not show once they are turned round. -/
theorem turned_of_perm (perm : List.Forall₂ List.Perm rows rows') (n : Nat) :
    turned rows' n = turned rows n := by
  refine List.map_congr_left fun j _ => ?_
  exact (column_eq_column (perm.imp fun row row' h => h.count_eq j)).symm

theorem inside_of_perm (perm : List.Forall₂ List.Perm rows rows')
    (inside : ∀ row ∈ rows, ∀ e ∈ row, 0 ≤ e ∧ e < n) : ∀ row ∈ rows', ∀ e ∈ row, 0 ≤ e ∧ e < n := by
  induction perm with
  | nil => simp
  | cons first _ ih =>
    rw [List.forall_mem_cons] at inside ⊢
    exact ⟨fun e he => inside.1 e (first.mem_iff.mpr he), ih inside.2⟩

end Incidence

namespace Derivation

variable {onward onward' : List (List Int)} {between between' : List Int}

/-- By new names, the same is met in the same order. -/
theorem met_renamed (agree : ∀ v ∈ between, rowAt onward' (rename v) = rowAt onward v) :
    (between.map rename).flatMap (rowAt onward') = between.flatMap (rowAt onward) := by
  rw [List.flatMap_map]
  exact List.flatMap_congr agree

theorem neighboursOf_renamed (agree : ∀ v ∈ between, rowAt onward' (rename v) = rowAt onward v)
    (e : Nat) : neighboursOf onward' (between.map rename) e = neighboursOf onward between e := by
  rw [neighboursOf, met_renamed agree, neighboursOf]

theorem neighboursOf_perm (agree : ∀ v ∈ between, rowAt onward' (rename v) = rowAt onward v)
    (order : between'.Perm (between.map rename)) (e : Nat) :
    (neighboursOf onward between e).Perm (neighboursOf onward' between' e) := by
  rw [← neighboursOf_renamed agree]
  exact eraseDups_perm (((order.flatMap_right _).filter _).symm)

/-- Neighbours by new names, where the entities met are the ones renamed. -/
theorem neighboursOf_names (injective : Function.Injective rename) (onward : List (List Int))
    (between : List Int) {v k : Nat} (name : (k : Int) = rename v) :
    neighboursOf (onward.map (List.map rename)) between k =
      (neighboursOf onward between v).map rename := by
  have met : between.flatMap (rowAt (onward.map (List.map rename))) =
      (between.flatMap (rowAt onward)).map rename := by
    rw [List.map_flatMap]
    exact List.flatMap_congr fun e _ => getD_map_rows List.map_nil _ _
  rw [neighboursOf, neighboursOf, met, List.filter_map, ← eraseDups_map injective]
  simp [Function.comp_def, name, injective.eq_iff]

/-- The parts met are the same, since a part is compared with the whole. -/
theorem partsOf_perm {parts : List (List Int)} {whole : List Int}
    (injective : Function.Injective rename)
    (agree : ∀ v ∈ whole, rowAt onward' (rename v) = rowAt onward v) :
    (partsOf onward parts whole whole).Perm
      (partsOf onward' (parts.map (VertexList.renamed rename)) (VertexList.renamed rename whole)
        (VertexList.renamed rename whole)) := by
  have part : ∀ x, rowAt (parts.map (VertexList.renamed rename)) x =
      VertexList.renamed rename (rowAt parts x) := fun x =>
    getD_map_rows VertexList.renamed_nil _ _
  simp only [partsOf, part, VertexList.subsetOf_renamed injective, ← met_renamed agree]
  exact eraseDups_perm
    ((((VertexList.renamed_perm whole).flatMap_right _).filter _).symm)

variable {wholes parts : List (List Int)}

theorem neighbourRows_perm
    (agree : ∀ whole ∈ wholes, ∀ v ∈ whole, rowAt onward' (rename v) = rowAt onward v) :
    List.Forall₂ List.Perm (wholes.zipIdx.map fun entry => neighboursOf onward entry.1 entry.2)
      ((wholes.map (VertexList.renamed rename)).zipIdx.map fun entry =>
        neighboursOf onward' entry.1 entry.2) := by
  rw [List.zipIdx_map, List.map_map, List.forall₂_map_left_iff, List.forall₂_map_right_iff,
    List.forall₂_same]
  intro entry hentry
  exact neighboursOf_perm (agree entry.1 (List.fst_mem_of_mem_zipIdx hentry))
    (VertexList.renamed_perm entry.1) entry.2

theorem partRows_perm (injective : Function.Injective rename)
    (agree : ∀ whole ∈ wholes, ∀ v ∈ whole, rowAt onward' (rename v) = rowAt onward v) :
    List.Forall₂ List.Perm (wholes.map fun whole => partsOf onward parts whole whole)
      ((wholes.map (VertexList.renamed rename)).map fun whole =>
        partsOf onward' (parts.map (VertexList.renamed rename)) whole whole) := by
  rw [List.map_map, List.forall₂_map_left_iff, List.forall₂_map_right_iff, List.forall₂_same]
  exact fun whole hwhole => partsOf_perm injective (agree whole hwhole)

end Derivation

end MeshIncidence
