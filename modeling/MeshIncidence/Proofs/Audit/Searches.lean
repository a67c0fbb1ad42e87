import Mathlib
import MeshIncidence.Audit
import MeshIncidence.Proofs.Outcome
import MeshIncidence.Proofs.VertexList

/-!
What the searches of an audit come to. Each of them goes through what is recorded and tells what it finds
on the way; together that is to tell the findings that are there, one after the other. Where findings are
tolerated they are listed, and otherwise the first one is the failure. To know the first entity with each
set of vertices is as good as to search the entities before.
-/
namespace MeshIncidence.Audit

variable {s : Store} {checks : Checks} {tolerant : Bool} {findings found : List Finding} {d : Int}

/-- What is wrong with the dimensions. -/
def consistency (s : Store) : List Finding := s.dimensions.filterMap (dimFinding s)

/-- What is wrong with the entries of relations. -/
def bounds (s : Store) : List Finding := s.recordedRelations.filterMap (boundsFinding s)

/-- An entity with the vertices of an earlier one. -/
def sharedFinding (dim : Int) (rows : List (List Int)) (entity : List Int × Nat) :
    Option Finding :=
  match (rows.take entity.2).findIdx? fun row => VertexList.sameSet row entity.1 with
  | none => none
  | some first => some (.shared dim first entity.2 (VertexList.distinct entity.1))

def sharedIn (s : Store) (dim : Int) : List Finding :=
  match s.relation? dim 0 with
  | none => []
  | some r => r.rows.zipIdx.filterMap (sharedFinding dim r.rows)

def duplicates (s : Store) : List Finding :=
  (s.dimensions.filter fun dim => decide (1 ≤ dim)).flatMap (sharedIn s)

/-- Relations that are not their reverses turned round, if all that have one can be compared with it. -/
def inverses (s : Store) : Except Fault (List Finding) :=
  (s.recordedRelations.mapM (inverseFinding s)).map fun findings => findings.filterMap id

/-- Findings of the checks that read relations alone, in the order of the checks. -/
def plainFindings (checks : Checks) (s : Store) : List Finding :=
  (if checks.consistency then consistency s else []) ++
  (if checks.bounds then bounds s else []) ++
  (if checks.duplicates then duplicates s else [])

/-- Fails at a finding. -/
def refuse : Option Finding → Except Fault Unit
  | none => .ok ()
  | some finding => .error (.inconsistent finding.inconsistency)

theorem refuse_append (a b : List Finding) :
    refuse (a ++ b).head? = refuse a.head? >>= fun _ => refuse b.head? := by
  cases a <;> rfl

/-- Whether findings are let pass. -/
def allow (tolerant : Bool) (findings : List Finding) : Except Fault Unit :=
  if tolerant then .ok () else refuse findings.head?

theorem allow_append (a b : List Finding) :
    allow tolerant (a ++ b) = allow tolerant a >>= fun _ => allow tolerant b := by
  cases tolerant
  · exact refuse_append a b
  · rfl

/-- Findings told one after the other. -/
theorem foldlM_tell : findings.foldlM (tell tolerant) found =
    (allow tolerant findings).map fun _ => found ++ findings := by
  induction findings generalizing found with
  | nil => cases tolerant <;> simp [allow, refuse, pure, Except.pure]
  | cons f findings ih =>
    rw [List.foldlM_cons]
    cases tolerant with
    | false => rfl
    | true =>
      change List.foldlM (tell true) (found ++ [f]) findings = _
      rw [ih, List.append_assoc]
      rfl

section Search

variable {α : Type} {find : α → Except Fault (Option Finding)} {places : List α}

/-- Places that can all be looked at. -/
theorem foldlM_lookAt {each : List (Option Finding)} (h : places.mapM find = .ok each) :
    places.foldlM (lookAt tolerant find) found =
      (each.filterMap id).foldlM (tell tolerant) found := by
  have each := Outcome.mapM_eq_ok.mp h
  clear h
  induction each generalizing found with
  | nil => rfl
  | @cons place f? places each hf _ ih =>
    rw [List.foldlM_cons, lookAt, hf, Outcome.ok_bind]
    cases f? with
    | none => exact ih
    | some f =>
      have listed : id (some f) = some f := rfl
      rw [List.filterMap_cons_some listed, List.foldlM_cons]
      exact congrArg _ (funext fun _ => ih)

/-- Where findings are tolerated, only a place that cannot be looked at is a failure. -/
theorem foldlM_lookAt_tolerant : places.foldlM (lookAt true find) found =
    (places.mapM find).map fun each => found ++ each.filterMap id := by
  induction places generalizing found with
  | nil => exact congrArg Except.ok (List.append_nil found).symm
  | cons place places ih =>
    rw [List.foldlM_cons, List.mapM_cons, lookAt]
    cases find place with
    | error e => rfl
    | ok f? =>
      cases f? with
      | none =>
        refine (@ih found).trans ?_
        cases places.mapM find <;> rfl
      | some f =>
        refine (@ih (found ++ [f])).trans ?_
        cases places.mapM find with
        | error e => rfl
        | ok each => simp

theorem search_tolerant :
    search true find places = (places.mapM find).map fun each => each.filterMap id :=
  foldlM_lookAt_tolerant

theorem search_pure {look : α → Option Finding} :
    search tolerant (fun place => .ok (look place)) places =
      (places.filterMap look).foldlM (tell tolerant) [] := by
  rw [search, foldlM_lookAt (Outcome.mapM_eq_map fun _ _ => rfl), List.filterMap_map]
  rfl

end Search

/-- The first row with each set of vertices is known by these. -/
structure FirstSeen (rows : List (List Int)) (seen : List (List Int × Nat)) : Prop where
  lookup : ∀ vertices : List Int, seen.lookup (VertexList.distinct vertices) =
    rows.findIdx? fun row => VertexList.sameSet row vertices

namespace FirstSeen

variable {rows : List (List Int)} {seen : List (List Int × Nat)} {row : List Int} {first : Nat}

theorem empty : FirstSeen [] [] := ⟨fun _ => rfl⟩

/-- One more row with vertices that are known. -/
theorem repeated (h : FirstSeen rows seen)
    (known : seen.lookup (VertexList.distinct row) = some first) : FirstSeen (rows ++ [row]) seen := by
  refine ⟨fun vertices => ?_⟩
  rw [h.lookup, List.findIdx?_append, List.findIdx?_singleton]
  split
  · rename_i same
    have listed : rows.findIdx? (fun row => VertexList.sameSet row vertices) = some first := by
      rw [VertexList.sameSet_eq_beq, beq_iff_eq] at same
      rw [← h.lookup, same, known]
    rw [listed]
    rfl
  · simp

/-- One more row with other vertices. -/
theorem fresh (h : FirstSeen rows seen) (unknown : seen.lookup (VertexList.distinct row) = none) :
    FirstSeen (rows ++ [row]) ((VertexList.distinct row, rows.length) :: seen) := by
  refine ⟨fun vertices => ?_⟩
  rw [List.lookup_cons, h.lookup, List.findIdx?_append, List.findIdx?_singleton,
    VertexList.sameSet_eq_beq]
  cases same : VertexList.distinct vertices == VertexList.distinct row with
  | false => simp
  | true =>
    rw [beq_iff_eq] at same
    rw [← h.lookup, same, unknown]
    simp

end FirstSeen

/-- To compare entities with those that are known is to search the entities before. -/
theorem foldlM_compareEntity {before after : List (List Int)} {seen : List (List Int × Nat)}
    (known : FirstSeen before seen) :
    ((after.zipIdx before.length).foldlM (compareEntity tolerant d) (seen, found)).map Prod.snd =
      ((after.zipIdx before.length).filterMap (sharedFinding d (before ++ after))).foldlM
        (tell tolerant) found := by
  induction after generalizing before seen found with
  | nil => rfl
  | cons row after ih =>
    have next : ∀ {seen found}, FirstSeen (before ++ [row]) seen →
        ((after.zipIdx (before.length + 1)).foldlM (compareEntity tolerant d) (seen, found)).map
            Prod.snd =
          ((after.zipIdx (before.length + 1)).filterMap
            (sharedFinding d (before ++ row :: after))).foldlM (tell tolerant) found := by
      intro seen found known
      have rest := @ih found _ seen known
      rwa [List.length_append, List.length_singleton, List.append_assoc] at rest
    rw [List.zipIdx_cons, List.foldlM_cons, compareEntity]
    have earlier : (before ++ row :: after).take before.length = before := by simp
    cases place : seen.lookup (VertexList.distinct row) with
    | none =>
      have finding : sharedFinding d (before ++ row :: after) (row, before.length) = none := by
        simp [sharedFinding, earlier, ← known.lookup, place]
      rw [List.filterMap_cons_none finding]
      exact next (known.fresh place)
    | some first =>
      have finding : sharedFinding d (before ++ row :: after) (row, before.length) =
          some (.shared d first before.length (VertexList.distinct row)) := by
        simp [sharedFinding, earlier, ← known.lookup, place]
      rw [List.filterMap_cons_some finding, List.foldlM_cons]
      dsimp only
      cases told : tell tolerant found (.shared d first before.length (VertexList.distinct row)) with
      | error e => rfl
      | ok found' => exact next (known.repeated place)

theorem compareEntities_eq : compareEntities tolerant s found d =
    (sharedIn s d).foldlM (tell tolerant) found := by
  rw [compareEntities, sharedIn]
  cases s.relation? d 0 with
  | none => rfl
  | some r => exact foldlM_compareEntity FirstSeen.empty

theorem foldlM_compareEntities {ds : List Int} :
    ds.foldlM (compareEntities tolerant s) found =
      (ds.flatMap (sharedIn s)).foldlM (tell tolerant) found := by
  induction ds generalizing found with
  | nil => rfl
  | cons d ds ih =>
    rw [List.foldlM_cons, List.flatMap_cons, List.foldlM_append, compareEntities_eq]
    exact congrArg _ (funext fun _ => ih)

/-- A list for a check that is made. -/
def made {α : Type} (check : Bool) (findings : List α) : Option (List α) :=
  if check then some findings else none

/-- A check that tells its findings. -/
theorem ifAsked_tell (check : Bool) : ifAsked check (findings.foldlM (tell tolerant) []) =
    (allow tolerant (if check then findings else [])).map fun _ => made check findings := by
  cases check with
  | false => cases tolerant <;> rfl
  | true =>
    rw [ifAsked, if_pos rfl, if_pos rfl, foldlM_tell]
    cases allow tolerant findings <;> rfl

/-- The lists of the checks that are made, given what the last of them finds. -/
def lists (checks : Checks) (s : Store) (found : List Finding) : Report where
  inconsistentDims := made checks.consistency (dims (consistency s))
  outOfBoundsPairs := made checks.bounds (pairs (bounds s))
  duplicateEntities := made checks.duplicates (triples (duplicates s))
  nonInversePairs := made checks.inverses (pairs found)

theorem map_made {α β : Type} (name : List α → List β) (check : Bool) (xs : List α) :
    (made check xs).map name = made check (name xs) := by
  cases check <;> rfl

/-- The checks that read relations alone come to their findings, told in order before the last check. -/
theorem inspect_eq : inspect tolerant checks s =
    allow tolerant (plainFindings checks s) >>= fun _ =>
      (ifAsked checks.inverses (search tolerant (inverseFinding s) s.recordedRelations)).map
        fun uneven => { lists checks s [] with nonInversePairs := uneven.map pairs } := by
  rw [inspect, search_pure, ← consistency, search_pure, ← bounds, foldlM_compareEntities,
    ← duplicates, ifAsked_tell, ifAsked_tell, ifAsked_tell, plainFindings, allow_append, allow_append]
  simp only [lists, ← map_made]
  cases allow tolerant (if checks.consistency then consistency s else []) with
  | error e => rfl
  | ok =>
    cases allow tolerant (if checks.bounds then bounds s else []) with
    | error e => rfl
    | ok =>
      cases allow tolerant (if checks.duplicates then duplicates s else []) with
      | error e => rfl
      | ok => cases ifAsked checks.inverses _ <;> rfl

/-- A report is there where relations can be compared, if they are to be. -/
theorem report_eq_lists : report checks s =
    (if checks.inverses then inverses s else .ok []).map (lists checks s) := by
  rw [report, inspect_eq, search_tolerant, ← inverses]
  cases compared : checks.inverses with
  | false => simp [ifAsked, lists, made, compared, allow]
  | true =>
    cases inverses s with
    | error e => rfl
    | ok found => simp [ifAsked, lists, made, compared, allow]

/-- Where relations can be compared, the first finding is a failure. -/
theorem enforce_eq_refuse (h : (if checks.inverses then inverses s else .ok []) = .ok found) :
    enforce checks s =
      refuse (plainFindings checks s ++ found).head? >>= fun _ => report checks s := by
  have compared : ifAsked checks.inverses (search false (inverseFinding s) s.recordedRelations) =
      (refuse found.head?).map fun _ => made checks.inverses found := by
    split at h
    · obtain ⟨each, looked, rfl⟩ := Outcome.map_eq_ok.mp h
      rw [search, foldlM_lookAt looked, ifAsked_tell, if_pos ‹_›]
      rfl
    · cases h
      rw [ifAsked, made, if_neg ‹_›, if_neg ‹_›]
      rfl
  rw [report_eq_lists, h, enforce, inspect_eq, compared, refuse_append]
  have plain : allow false (plainFindings checks s) = refuse (plainFindings checks s).head? := rfl
  rw [plain]
  cases refuse (plainFindings checks s).head? with
  | error e => rfl
  | ok =>
    cases refuse found.head? with
    | error e => rfl
    | ok =>
      simp only [Outcome.ok_bind, Outcome.map_ok, map_made]
      rfl

end MeshIncidence.Audit
