import Mathlib
import MeshIncidence.Fault.Message
import MeshIncidence.Proofs.Audit.Lists

/-!
Reporting and refusing. An audit that refuses findings fails where its report has items: at the first item of
the first list that is not empty, whatever is recorded and whichever checks are made. The failure names the
dimension or the pair of that item.
-/
namespace MeshIncidence

namespace Report

/-- An entry of one of the lists of a report. -/
inductive Item where
  | dim (d : Int)
  | beyond (pair : Int × Int)
  | duplicate (entities : Int × Nat × Nat)
  | uneven (pair : Int × Int)
  deriving DecidableEq, Repr

/-- The entries of all lists, list after list. -/
def items (r : Report) : List Item :=
  (r.inconsistentDims.getD []).map .dim ++ (r.outOfBoundsPairs.getD []).map .beyond ++
  (r.duplicateEntities.getD []).map .duplicate ++ (r.nonInversePairs.getD []).map .uneven

theorem valid_iff_items {r : Report} : r.valid = true ↔ r.items = [] := by
  simp only [valid, items, Bool.and_eq_true, List.isEmpty_iff, List.append_eq_nil_iff,
    List.map_eq_nil_iff]

namespace Item

/-- The dimension that the failure at an item carries. -/
def dim? : Item → Option Int
  | dim d => some d
  | duplicate (d, _, _) => some d
  | _ => none

/-- The pair of dimensions that the failure at an item carries. -/
def pair? : Item → Option (Int × Int)
  | beyond pair | uneven pair => some pair
  | _ => none

/-- The failure at an item, with what its text says of the store. -/
def fault (s : Store) : Item → Fault
  | dim d =>
    .inconsistent (if (s.count? d).isSome then .entitiesUnlinked d else .entitiesUncounted d)
  | beyond (d0, d1) => .inconsistent (.outOfBounds d0 d1 (s.sizeOf d1))
  | duplicate (d, i, j) =>
    let rows := (s.relation? d 0).elim [] Incidence.rows
    .inconsistent (.sharedVertices d i j (VertexList.distinct (rows.getD j [])))
  | uneven (d0, d1) => .inconsistent (.notInverse d0 d1)

variable (s : Store) (item : Item)

theorem kind_fault : (item.fault s).kind = .inconsistent := by
  cases item <;> rfl

theorem dim?_fault : (item.fault s).dim? = item.dim? := by
  cases item with
  | dim d =>
    simp only [fault]
    split <;> rfl
  | _ => rfl

theorem pair?_fault : (item.fault s).pair? = item.pair? := by
  cases item with
  | dim d =>
    simp only [fault]
    split <;> rfl
  | _ => rfl

end Item

end Report

/-- Where a finding goes in a report. -/
def Finding.item : Finding → Report.Item
  | unlinked d | uncounted d => .dim d
  | outOfBounds d0 d1 _ => .beyond (d0, d1)
  | shared d first second _ => .duplicate (d, first, second)
  | notInverse d0 d1 => .uneven (d0, d1)

namespace Audit

variable {checks : Checks} {s : Store} {findings found : List Finding} {r : Report}

theorem map_filterMap_eq_items {α : Type} {name : Finding → Option α} {place : α → Report.Item}
    (named : ∀ f ∈ findings, (name f).map place = some f.item) :
    (findings.filterMap name).map place = findings.map Finding.item := by
  rw [List.map_filterMap, List.filterMap_congr named]
  exact congrFun List.filterMap_eq_map _

/-- A list of a report has one item for each finding of a check, and what is recorded tells from the item
which failure the finding is. -/
structure Listed {α : Type} (s : Store) (list : List Finding → List α) (place : α → Report.Item)
    (findings : List Finding) : Prop where
  items : (list findings).map place = findings.map Finding.item
  fault : ∀ f ∈ findings, f.item.fault s = .inconsistent f.inconsistency

theorem Listed.map_made {α : Type} {list : List Finding → List α} {place : α → Report.Item}
    (h : Listed s list place findings) (check : Bool) :
    ((made check (list findings)).getD []).map place =
      (if check then findings else []).map Finding.item := by
  cases check
  · rfl
  · exact h.items

theorem listed_consistency (s : Store) : Listed s dims .dim (consistency s) := by
  constructor
  case items =>
    refine map_filterMap_eq_items fun f hf => ?_
    obtain ⟨d, -, hf⟩ := List.mem_filterMap.mp hf
    rcases dimFinding_eq_some hf with rfl | rfl <;> rfl
  case fault =>
    intro f hf
    obtain ⟨d, -, hf⟩ := List.mem_filterMap.mp hf
    unfold dimFinding at hf
    dsimp only at hf
    split at hf
    · rename_i counted
      split at hf
      · cases hf
      · cases hf
        exact congrArg Fault.inconsistent (if_pos counted)
    · rename_i uncounted
      split at hf
      · cases hf
        exact congrArg Fault.inconsistent (if_neg uncounted)
      · cases hf

theorem listed_bounds (s : Store) : Listed s pairs .beyond (bounds s) := by
  have outside : ∀ f ∈ bounds s, ∃ d0 d1, f = .outOfBounds d0 d1 (s.sizeOf d1) := by
    intro f hf
    obtain ⟨entry, -, hf⟩ := List.mem_filterMap.mp hf
    rw [boundsFinding_eq] at hf
    split at hf
    · cases hf
    · exact ⟨_, _, (Option.some.inj hf).symm⟩
  constructor
  case items =>
    refine map_filterMap_eq_items fun f hf => ?_
    obtain ⟨d0, d1, rfl⟩ := outside f hf
    rfl
  case fault =>
    intro f hf
    obtain ⟨d0, d1, rfl⟩ := outside f hf
    rfl

theorem listed_duplicates (s : Store) : Listed s triples .duplicate (duplicates s) := by
  constructor
  case items =>
    refine map_filterMap_eq_items fun f hf => ?_
    obtain ⟨d, r, i, j, -, rfl⟩ := mem_duplicates.mp hf
    rfl
  case fault =>
    intro f hf
    obtain ⟨d, r, i, j, ⟨-, -, hr, -⟩, rfl⟩ := mem_duplicates.mp hf
    simp only [Finding.item, Report.Item.fault, hr, Option.elim_some, Finding.inconsistency]

theorem listed_inverses (h : inverses s = .ok found) : Listed s pairs .uneven found := by
  have uneven : ∀ f ∈ found, ∃ d0 d1, f = .notInverse d0 d1 := by
    intro f hf
    obtain ⟨entry, -, hf⟩ := (mem_inverses h).mp hf
    exact ⟨_, _, inverseFinding_eq_some hf⟩
  constructor
  case items =>
    refine map_filterMap_eq_items fun f hf => ?_
    obtain ⟨d0, d1, rfl⟩ := uneven f hf
    rfl
  case fault =>
    intro f hf
    obtain ⟨d0, d1, rfl⟩ := uneven f hf
    rfl

/-- A report is there where relations could be compared, if they were to be. Its items are the findings of
the checks that were made, in their order. -/
theorem items_of_report (h : report checks s = .ok r) : ∃ found,
    (if checks.inverses then inverses s else .ok []) = .ok found ∧
      r.items = (plainFindings checks s ++ found).map Finding.item ∧
      ∀ f ∈ plainFindings checks s ++ found, f.item.fault s = .inconsistent f.inconsistency := by
  rw [report_eq_lists] at h
  obtain ⟨found, hfound, rfl⟩ := Outcome.map_eq_ok.mp h
  have listed : Listed s pairs .uneven found := by
    split at hfound
    · exact listed_inverses hfound
    · cases hfound
      exact ⟨rfl, fun f hf => absurd hf List.not_mem_nil⟩
  have compared : (if checks.inverses then found else []) = found := by
    split
    · rfl
    · rename_i unchecked
      rw [if_neg unchecked] at hfound
      exact Except.ok.inj hfound
  refine ⟨found, hfound, ?_, fun f hf => ?_⟩
  · simp only [Report.items, lists, (listed_consistency s).map_made, (listed_bounds s).map_made,
      (listed_duplicates s).map_made, listed.map_made, compared, plainFindings, List.map_append]
  · have made : ∀ {check : Bool} {findings}, f ∈ (if check then findings else []) → f ∈ findings := by
      intro check findings hf
      cases check
      · cases hf
      · exact hf
    simp only [plainFindings, List.mem_append] at hf
    rcases hf with ((hf | hf) | hf) | hf
    · exact (listed_consistency s).fault f (made hf)
    · exact (listed_bounds s).fault f (made hf)
    · exact (listed_duplicates s).fault f (made hf)
    · exact listed.fault f hf

/-- Whatever a store holds and whichever checks are made, refusing agrees with reporting. If the report has
nothing in its lists it is returned, and otherwise the failure is that of the first item of the first list
that is not empty. -/
theorem enforce_agrees_with_report (h : report checks s = .ok r) :
    (r.valid = true → enforce checks s = .ok r) ∧
    (r.valid = false → ∃ item, r.items.head? = some item ∧ enforce checks s = .error (item.fault s) ∧
      (item.fault s).kind = .inconsistent ∧ (item.fault s).dim? = item.dim? ∧
      (item.fault s).pair? = item.pair?) := by
  obtain ⟨found, compared, items, faults⟩ := items_of_report h
  rw [enforce_eq_refuse compared, h, Bool.eq_false_iff, Ne, Report.valid_iff_items, items]
  cases all : plainFindings checks s ++ found with
  | nil => exact ⟨fun _ => rfl, fun some => absurd rfl some⟩
  | cons f findings =>
    refine ⟨fun none => absurd none (by simp), fun _ => ⟨f.item, rfl, ?_,
      f.item.kind_fault s, f.item.dim?_fault s, f.item.pair?_fault s⟩⟩
    rw [faults f (by rw [all]; exact List.mem_cons_self ..)]
    rfl

end Audit

/-- A battered strip without the first two checks. The twin edges are found before the relation that is not
its reverse, so the failure is about their dimension. -/
theorem Mesh.enforce_battered :
    Audit.report ⟨false, false, true, true⟩ battered =
      .ok ⟨none, none, some [(1, 0, 2)], some [(0, 2)]⟩ ∧
    ∃ fault, Audit.enforce ⟨false, false, true, true⟩ battered = .error fault ∧
      fault = .inconsistent (.sharedVertices 1 0 2 [1, 2]) ∧
      fault.kind = .inconsistent ∧ fault.dim? = some 1 ∧ fault.pair? = none := by
  have reported : Audit.report ⟨false, false, true, true⟩ battered =
      .ok ⟨none, none, some [(1, 0, 2)], some [(0, 2)]⟩ := by cbv
  obtain ⟨item, first, refused, kind, dim, pair⟩ :=
    (Audit.enforce_agrees_with_report reported).2 rfl
  cases first
  exact ⟨reported, _, refused, by cbv, kind, dim, pair⟩

end MeshIncidence
