import Mathlib
import MeshIncidence.Fault.Message
import MeshIncidence.Proofs.Numbering.Repeats

/-!
Numbering that fails. A shape may contradict its own template: the template has no parts or one that does
not lie within a cell, or a cell is split into other parts than the template says. This is all that can
make numbering fail where the shape answers at all, and it does so for the dimension concerned. A cell is
only split when it is its turn, so an earlier cell may have been numbered by then.
-/
namespace MeshIncidence

namespace Numbering

variable {shape : Shape} {e : Expected} {walked : List Stop} {before : List (List Nat)} {here : Stop}
  {row : List Nat} {rest : Nat} {n : Numbering} {touching : List Int}

/-- The cell is split into more or fewer parts than expected, or one of another length. -/
def Misfits (shape : Shape) (e : Expected) (cell : List Int) : Prop :=
  ∃ parts, shape.split cell e.dim = .ok parts ∧
    (parts.length ≠ e.parts ∨ ∃ part ∈ parts, part.length ≠ e.partVertices)

/-- A cell is a stop, or it does not fit. -/
theorem exists_splits_of_fits {entry : List Int × List Int}
    (split : ∃ parts, shape.split entry.1 e.dim = .ok parts) (fits : ¬ Misfits shape e entry.1) :
    ∃ stop, Splits shape e entry stop := by
  obtain ⟨parts, split⟩ := split
  have number : parts.length = e.parts := by
    by_contra other
    exact fits ⟨parts, split, .inl other⟩
  have width : ∀ part ∈ parts, part.length = e.partVertices := by
    intro part hpart
    by_contra other
    exact fits ⟨parts, split, .inr ⟨part, hpart, other⟩⟩
  exact ⟨⟨parts.map VertexList.ascending, entry.2⟩, rfl, parts, split, number, width, rfl⟩

theorem exists_stops {todo : List (List Int × List Int)}
    (fitting : ∀ entry ∈ todo, ∃ stop, Splits shape e entry stop) :
    ∃ stops, List.Forall₂ (Splits shape e) todo stops := by
  induction todo with
  | nil => exact ⟨[], .nil⟩
  | cons entry todo ih =>
    rw [List.forall_mem_cons] at fitting
    obtain ⟨stop, splits⟩ := fitting.1
    obtain ⟨stops, others⟩ := ih fitting.2
    exact ⟨stop :: stops, .cons splits others⟩

/-- Parts are numbered up to the first of another length. -/
theorem Walking.foldlM_misfit {parts : List (List Int)} (h : Walking walked before here row rest n)
    (inside : ∀ e ∈ here.touching, 0 ≤ e) (misfit : ∃ part ∈ parts, part.length ≠ e.partVertices) :
    ∃ found, parts.foldlM (placeChecked shape e walked.length here.touching) n =
      .error (.inconsistent (.subentityLength shape.name e.dim found e.partVertices)) := by
  induction parts generalizing here row n with
  | nil =>
    obtain ⟨part, hpart, -⟩ := misfit
    cases hpart
  | cons part parts ih =>
    rw [List.foldlM_cons, placeChecked]
    by_cases width : part.length = e.partVertices
    · have later : ∃ part ∈ parts, part.length ≠ e.partVertices := by
        obtain ⟨other, hother, differs⟩ := misfit
        rcases List.mem_cons.mp hother with rfl | hother
        · exact absurd width differs
        · exact ⟨other, hother, differs⟩
      obtain ⟨_, n₁, placed, next⟩ := h.place inside part
      obtain ⟨found, failed⟩ := ih next inside later
      rw [if_neg (not_not.mpr width), placed, Outcome.ok_bind]
      exact ⟨found, failed⟩
    · rw [if_pos width]
      exact ⟨part.length, rfl⟩

theorem Walked.visit_misfit {cell : List Int} (h : Walked walked before (rest + 1) n)
    (inside : ∀ e ∈ touching, 0 ≤ e) (misfit : Misfits shape e cell) :
    ∃ cause, Numbering.visit shape e n ((cell, touching), walked.length) = .error (.inconsistent cause) ∧
      cause.dim? = some e.dim := by
  obtain ⟨parts, split, other⟩ := misfit
  rw [Numbering.visit, split, Outcome.mapError_ok, Outcome.ok_bind]
  by_cases number : parts.length = e.parts
  · obtain ⟨found, failed⟩ :=
      (h.enter touching).foldlM_misfit inside (other.resolve_left (not_not.mpr number))
    rw [if_neg (not_not.mpr number)]
    exact ⟨_, failed, rfl⟩
  · rw [if_pos number]
    exact ⟨_, rfl, rfl⟩

/-- Cells are numbered up to the first that does not fit. -/
theorem Walked.foldlM_misfit {todo : List (List Int × List Int)}
    (h : Walked walked before todo.length n) (inside : ∀ entry ∈ todo, ∀ e ∈ entry.2, 0 ≤ e)
    (split : ∀ entry ∈ todo, ∃ parts, shape.split entry.1 e.dim = .ok parts)
    (misfit : ∃ entry ∈ todo, Misfits shape e entry.1) :
    ∃ cause, (todo.zipIdx walked.length).foldlM (Numbering.visit shape e) n =
        .error (.inconsistent cause) ∧
      cause.dim? = some e.dim := by
  induction todo generalizing walked before n with
  | nil =>
    obtain ⟨entry, hentry, -⟩ := misfit
    cases hentry
  | cons entry todo ih =>
    rw [List.forall_mem_cons] at inside split
    rw [List.zipIdx_cons, List.foldlM_cons]
    by_cases fits : Misfits shape e entry.1
    · obtain ⟨cause, failed, dim⟩ := h.visit_misfit inside.1 fits
      rw [failed, Outcome.error_bind]
      exact ⟨cause, rfl, dim⟩
    · have later : ∃ entry ∈ todo, Misfits shape e entry.1 := by
        obtain ⟨other, hother, misfit⟩ := misfit
        rcases List.mem_cons.mp hother with rfl | hother
        · exact absurd misfit fits
        · exact ⟨other, hother, misfit⟩
      obtain ⟨stop, splits⟩ := exists_splits_of_fits split.1 fits
      obtain ⟨row, n₁, visited, next⟩ := h.visit inside.1 splits
      have position : walked.length + 1 = (walked ++ [stop]).length := by simp
      rw [visited, Outcome.ok_bind, position]
      exact ih next inside.2 split.2 later

theorem ofCells_misfit {cells touching : List (List Int)} (same : touching.length = cells.length)
    (inside : ∀ row ∈ touching, ∀ e ∈ row, 0 ≤ e)
    (split : ∀ cell ∈ cells, ∃ parts, shape.split cell e.dim = .ok parts)
    (misfit : ∃ cell ∈ cells, Misfits shape e cell) :
    ∃ cause, ofCells shape e cells touching = .error (.inconsistent cause) ∧
      cause.dim? = some e.dim := by
  have length : (cells.zip touching).length = cells.length := by simp [same]
  have start : Walked [] [] (cells.zip touching).length (initial cells.length) := by
    rw [length]
    exact walked_initial cells.length
  refine start.foldlM_misfit (fun entry he => inside entry.2 (List.of_mem_zip he).2)
    (fun entry he => split entry.1 (List.of_mem_zip he).1) ?_
  obtain ⟨cell, hcell, misfit⟩ := misfit
  obtain ⟨c, hc, rfl⟩ := List.mem_iff_getElem.mp hcell
  have there : c < (cells.zip touching).length := by omega
  refine ⟨(cells.zip touching)[c], List.getElem_mem there, ?_⟩
  rw [List.getElem_zip]
  exact misfit

/-- Where the template and the corners are there, only what they hold can be refused. -/
theorem expected_inconsistent {dim : Int} {template : List (List Int)} {corners : Nat} {cause : Fault}
    (ht : shape.template dim = .ok template) (hc : shape.vertexCount = .ok corners)
    (failed : expected shape dim = .error cause) :
    cause.kind = .inconsistent ∧ cause.dim? = some dim := by
  rw [expected, ht, Outcome.mapError_ok, Outcome.ok_bind] at failed
  cases template with
  | nil =>
    cases failed
    exact ⟨rfl, rfl⟩
  | cons first others =>
    dsimp only at failed
    rw [hc, Outcome.mapError_ok, Outcome.ok_bind] at failed
    split at failed
    · cases failed
      exact ⟨rfl, rfl⟩
    · cases failed

variable {stop : Stop} {stops : List Stop} {entry : List Int × List Int} {vertices key : List (List Int)}

theorem Splits.length_keys (h : Splits shape e entry stop) : stop.keys.length = e.parts := by
  obtain ⟨-, parts, -, number, -, keys⟩ := h
  rw [keys, List.length_map, number]

/-- The keys of a stop ascend, and have the length of its parts. -/
theorem Splits.ascending_of_mem (h : Splits shape e entry stop) {key : List Int}
    (hkey : key ∈ stop.keys) : key.Pairwise (· ≤ ·) ∧ key.length = e.partVertices := by
  obtain ⟨-, parts, -, -, width, keys⟩ := h
  rw [keys] at hkey
  obtain ⟨part, hpart, rfl⟩ := List.mem_map.mp hkey
  refine ⟨VertexList.pairwise_ascending part, ?_⟩
  rw [VertexList.length_ascending, width part hpart]

theorem splits_of_mem {todo : List (List Int × List Int)}
    (splits : List.Forall₂ (Splits shape e) todo stops) (hstop : stop ∈ stops) :
    ∃ entry ∈ todo, Splits shape e entry stop := by
  obtain ⟨c, hc, rfl⟩ := List.mem_iff_getElem.mp hstop
  have there : c < todo.length := by rw [splits.length_eq]; exact hc
  exact ⟨todo[c], List.getElem_mem there, (List.forall₂_iff_get.mp splits).2 c there hc⟩

theorem Splits.fits_keys (h : Splits shape e entry stop) {parts : List (List Int)}
    (split : shape.split entry.1 e.dim = .ok parts) :
    Incidence.fits stop.keys = Incidence.fits parts := by
  obtain ⟨-, parts', split', -, -, keys⟩ := h
  rw [split] at split'
  cases split'
  rw [keys, Bool.eq_iff_iff, Incidence.fits_iff, Incidence.fits_iff]
  simp [VertexList.mem_ascending]

/-- The vertices of the entities are words where those of all keys are. -/
theorem Past.fits_iff {rows : List (List Nat)} (past : Past vertices stops rows)
    (numbered : vertices = entries stops) :
    Incidence.fits vertices = true ↔ ∀ stop ∈ stops, Incidence.fits stop.keys = true := by
  simp only [Incidence.fits_iff]
  constructor
  · intro fits stop hstop key hkey v hv
    obtain ⟨c, hc, rfl⟩ := List.mem_iff_getElem.mp hstop
    obtain ⟨p, hp, rfl⟩ := List.mem_iff_getElem.mp hkey
    -- The key has a number, whose vertices are the same.
    obtain ⟨e, -, ⟨row, hrow, same⟩, -⟩ := past.exists_number hc hp
    obtain ⟨-, -, sup⟩ := VertexList.sameVertices_iff.mp same
    exact fits row (List.mem_of_getElem? hrow) v (sup v hv)
  · intro fits row hrow
    rw [numbered] at hrow
    obtain ⟨c, hc, hrow⟩ := mem_entries.mp hrow
    exact fits _ (List.getElem_mem hc) row (mem_fresh.mp hrow).1

/-- Every cell has a number for each part that is expected. -/
theorem Past.length_of_mem {rows : List (List Nat)} (past : Past vertices stops rows)
    (splits : ∀ stop ∈ stops, ∃ entry, Splits shape e entry stop) (hrow : row ∈ rows) :
    row.length = e.parts := by
  obtain ⟨c, hc, rfl⟩ := List.mem_iff_getElem.mp hrow
  have there : c < stops.length := by rw [← past.length_eq]; exact hc
  obtain ⟨entry, split⟩ := splits _ (List.getElem_mem there)
  rw [(past.stands there hc).length_eq, split.length_keys]

/-- Every entity has the vertices of a part that is expected, in ascending order. -/
theorem ascending_of_mem_entries (splits : ∀ stop ∈ stops, ∃ entry, Splits shape e entry stop)
    {key : List Int} (hkey : key ∈ entries stops) :
    key.Pairwise (· ≤ ·) ∧ key.length = e.partVertices := by
  obtain ⟨c, hc, hkey⟩ := mem_entries.mp hkey
  obtain ⟨entry, split⟩ := splits _ (List.getElem_mem hc)
  exact split.ascending_of_mem (mem_fresh.mp hkey).1

end Numbering

namespace Mesh

variable {m : Mesh} {d : Int} {s : Store} {template touching : List (List Int)}

/-- The shape contradicts its own template of a dimension. -/
inductive Contradicted (m : Mesh) (d : Int) (template : List (List Int)) : Prop
  | empty (none : template = [])
  | outside {n : Nat} {part : List Int} {i : Int} (corners : m.shape.vertexCount = .ok n)
      (listed : part ∈ template) (place : i ∈ part) (beyond : i < 0 ∨ n ≤ i)
  | count {cell : List Int} {parts : List (List Int)} (there : cell ∈ m.cells)
      (split : m.shape.split cell d = .ok parts) (other : parts.length ≠ template.length)
  | length {cell part : List Int} {parts : List (List Int)} (there : cell ∈ m.cells)
      (split : m.shape.split cell d = .ok parts) (produced : part ∈ parts)
      (other : part.length ≠ (template.headD []).length)

/-- The vertices that the shape splits off the cells are words. -/
def SplitsWords (m : Mesh) (d : Int) : Prop :=
  ∀ cell ∈ m.cells, ∀ parts, m.shape.split cell d = .ok parts → Incidence.fits parts = true

theorem Contradicted.of_misfits {cell : List Int} (there : cell ∈ m.cells)
    (h : Numbering.Misfits m.shape ⟨d, template.length, (template.headD []).length⟩ cell) :
    m.Contradicted d template := by
  obtain ⟨parts, split, other | ⟨part, produced, other⟩⟩ := h
  · exact .count there split other
  · exact .length there split produced other

section Answering

variable (sound : m.Sound) (ht : m.touching = .ok touching)
  (answers : m.shape.template d = .ok template)
  (splits : ∀ cell ∈ m.cells, ∃ parts, m.shape.split cell d = .ok parts)

include sound ht answers splits

/-- A dimension in which the shape contradicts itself is not numbered. -/
theorem Contradicted.numbering_fails (h : m.Contradicted d template) :
    ∃ cause, m.numbering d = .error cause ∧ cause.kind = .inconsistent ∧ cause.dim? = some d := by
  obtain ⟨n, corners, -⟩ := sound.width
  rw [numbering, ht, Outcome.ok_bind]
  cases he : Numbering.expected m.shape d with
  | error cause =>
    exact ⟨cause, rfl, Numbering.expected_inconsistent answers corners he⟩
  | ok e =>
    rw [Outcome.ok_bind]
    obtain ⟨first, others, n', answers', corners', places, rfl⟩ := Numbering.expected_eq_ok.mp he
    rw [answers] at answers'
    cases answers'
    -- The template is in order, so a cell is not.
    have misfit : ∃ cell ∈ m.cells,
        Numbering.Misfits m.shape ⟨d, (first :: others).length, first.length⟩ cell := by
      cases h with
      | empty none => cases none
      | outside corners'' listed place beyond =>
        rw [corners'] at corners''
        cases corners''
        have := places _ listed _ place
        omega
      | count there split other => exact ⟨_, there, _, split, .inl other⟩
      | length there split produced other => exact ⟨_, there, _, split, .inr ⟨_, produced, other⟩⟩
    obtain ⟨cause, failed, dim⟩ := Numbering.ofCells_misfit (length_touching ht)
      (fun row hrow e => nonneg_of_mem_touching ht hrow) splits misfit
    exact ⟨_, failed, rfl, dim⟩

/-- Any other dimension is numbered as the template says, with vertices as the shape splits them off. -/
theorem exists_numbering_of_consistent (consistent : ¬ m.Contradicted d template) :
    ∃ k, m.numbering d = .ok k ∧ k.cellRows.length = m.cells.length ∧
      (∀ row ∈ k.cellRows, m.shape.localCount d = .ok row.length) ∧
      (∀ row ∈ k.entityVertices, row.Pairwise (· ≤ ·) ∧
        m.shape.localVertexCount d = .ok row.length) ∧
      (Incidence.fits k.entityVertices = true ↔ m.SplitsWords d) := by
  obtain ⟨n, corners, -⟩ := sound.width
  obtain ⟨first, others, rfl⟩ := List.exists_cons_of_ne_nil fun none => consistent (.empty none)
  have places : ∀ part ∈ first :: others, ∀ i ∈ part, 0 ≤ i ∧ i < n := by
    intro part listed i place
    by_contra beyond
    exact consistent (.outside corners listed place (by omega))
  have he := Numbering.expected_eq_ok.mpr
    ⟨first, others, n, answers, corners, places, rfl⟩
  have fitting : ∀ entry ∈ m.cells.zip touching, ∃ stop,
      Numbering.Splits m.shape ⟨d, (first :: others).length, first.length⟩ entry stop := by
    intro entry hentry
    have there := (List.of_mem_zip hentry).1
    exact Numbering.exists_splits_of_fits (splits _ there) fun misfits =>
      consistent (.of_misfits there misfits)
  obtain ⟨stops, stopping⟩ := Numbering.exists_stops fitting
  obtain ⟨k, hk, vertices, past⟩ := Numbering.ofCells_of_splits (length_touching ht)
    (fun row hrow e => nonneg_of_mem_touching ht hrow) stopping
  have numbered : m.numbering d = .ok k := by
    rw [numbering, ht, Outcome.ok_bind, he, Outcome.ok_bind, hk]
  have each : ∀ stop ∈ stops, ∃ entry,
      Numbering.Splits m.shape ⟨d, (first :: others).length, first.length⟩ entry stop := by
    intro stop hstop
    obtain ⟨entry, -, stopped⟩ := Numbering.splits_of_mem stopping hstop
    exact ⟨entry, stopped⟩
  refine ⟨k, numbered, length_cellRows_numbering numbered, fun row hrow => ?_, fun row hrow => ?_,
    (past.fits_iff vertices).trans ?_⟩
  · obtain ⟨numbers, hnumbers, rfl⟩ := List.mem_map.mp hrow
    rw [List.length_map, past.length_of_mem each hnumbers, Shape.localCount, answers]
    rfl
  · rw [vertices] at hrow
    obtain ⟨ascends, width⟩ := Numbering.ascending_of_mem_entries each hrow
    refine ⟨ascends, ?_⟩
    rw [width, Shape.localVertexCount, answers]
    rfl
  · constructor
    · intro fits cell hcell parts split
      obtain ⟨c, hc, rfl⟩ := List.mem_iff_getElem.mp hcell
      have hc' : c < (m.cells.zip touching).length := by simp [hc, length_touching ht]
      have there : c < stops.length := by rw [← stopping.length_eq]; exact hc'
      have stop := (List.forall₂_iff_get.mp stopping).2 c hc' there
      rw [← stop.fits_keys (by simpa using split)]
      exact fits _ (List.getElem_mem there)
    · intro words stop hstop
      obtain ⟨entry, hentry, stopped⟩ := Numbering.splits_of_mem stopping hstop
      have there := (List.of_mem_zip hentry).1
      obtain ⟨parts, split⟩ := splits _ there
      rw [stopped.fits_keys split]
      exact words _ there parts split

end Answering

/-- In every store that demands lead to and that has not counted the dimension, where the shape has a
template of it between that of the vertices and that of the cells and splits every cell, the entities are
refused as inconsistent exactly if the shape contradicts its template. Otherwise, if it splits off words
alone, they are found: every cell has a number for each part of the template, and every entity has as many
vertices as the template's first part, in ascending order. Vertices that are no words cannot be recorded. -/
theorem entities_refused_iff (accepted : m.Accepted) (small : m.pointCount + 1 < Word.bound)
    (above : 0 < d) (below : d < m.dim) (reached : m.Reaches s) (unknown : s.count? d = none)
    (answers : m.shape.template d = .ok template)
    (splits : ∀ cell ∈ m.cells, ∃ parts, m.shape.split cell d = .ok parts) :
    let ended := (Resolution.entities m.shape d).run s
    ((∃ e, ended.1 = .error e ∧ e.kind = .inconsistent ∧ e.dim? = some d) ↔
      m.Contradicted d template) ∧
    (¬ m.Contradicted d template → m.SplitsWords d → ∃ n numbers vertices, ended.1 = .ok n ∧
      ended.2.store.relation? m.dim d = some (Incidence.ofRows numbers) ∧
      numbers.length = m.cells.length ∧
      (∀ row ∈ numbers, m.shape.localCount d = .ok row.length) ∧
      ended.2.store.relation? d 0 = some (Incidence.ofRows vertices) ∧ vertices.length = n ∧
      ∀ row ∈ vertices, row.Pairwise (· ≤ ·) ∧ m.shape.localVertexCount d = .ok row.length) ∧
    (¬ m.Contradicted d template → ¬ m.SplitsWords d → ended.1 = .error (.encoding .notAWord)) := by
  intro ended
  have sound := accepted.sound
  obtain ⟨touching, ht⟩ := sound.touching_exists small
  have counts : Resolution.Counts m _ d ⟨s, []⟩ ended := reached.counts accepted d
  have outcome : ended.1 = if m.Overflows d then .error (.encoding .notAWord)
      else (m.numbering d).map Numbering.count := by
    rw [counts.outcome, entitiesOf, unknown, countOf_between above below]
    rfl
  have consistent : ¬ m.Contradicted d template → ∃ k, m.numbering d = .ok k ∧
      (k.cellRows.length = m.cells.length ∧
        ∀ row ∈ k.cellRows, m.shape.localCount d = .ok row.length) ∧
      (∀ row ∈ k.entityVertices, row.Pairwise (· ≤ ·) ∧
        m.shape.localVertexCount d = .ok row.length) ∧
      (m.Overflows d ↔ ¬ m.SplitsWords d) := by
    intro h
    obtain ⟨k, hk, length, numbers, vertices, fits⟩ :=
      exists_numbering_of_consistent sound ht answers splits h
    refine ⟨k, hk, ⟨length, numbers⟩, vertices, ?_⟩
    rw [overflows_iff above below hk, ← fits, Bool.not_eq_true]
  refine ⟨⟨?_, fun contradicted => ?_⟩, fun h words => ?_, fun h others => ?_⟩
  · rintro ⟨e, failed, kind, -⟩
    by_contra h
    obtain ⟨k, hk, -⟩ := consistent h
    rw [outcome, hk] at failed
    split at failed
    · cases failed
      cases kind
    · cases failed
  · obtain ⟨cause, failed, kind, dim⟩ := contradicted.numbering_fails sound ht answers splits
    have fine : ¬ m.Overflows d := by
      rintro ⟨-, -, k, hk, -⟩
      rw [failed] at hk
      cases hk
    exact ⟨cause, by rw [outcome, if_neg fine, failed]; rfl, kind, dim⟩
  · obtain ⟨k, hk, ⟨length, numbers⟩, vertices, overflows⟩ := consistent h
    have fine : ¬ m.Overflows d := fun beyond => overflows.mp beyond words
    have found : ended.1 = .ok k.count := by rw [outcome, if_neg fine, hk]; rfl
    have count := counts.recorded (entitiesOf_eq_ok.mp (counts.outcome.symm.trans found)).2
    obtain ⟨hvertices, hnumbers⟩ :=
      counts.leads.faithful.relations_of_numbering above below hk ⟨count, fine⟩
    exact ⟨k.count, k.cellRows, k.entityVertices, found, hnumbers, length, numbers, hvertices, rfl,
      vertices⟩
  · obtain ⟨-, -, -, -, overflows⟩ := consistent h
    rw [outcome, if_pos (overflows.mpr others)]

/-- Two triangles of a shape that gives the last edge of the second one a third vertex. -/
def stretched : Mesh :=
  ⟨Shape.custom "stretched" 2 [[[0], [1], [2]], [[0, 1], [0, 2], [1, 2]], [[0, 1, 2]]]
      (some .lengthenLast) (some 1),
    [[0, 1, 2], [1, 2, 3]], 4,
    ⟨2, [(0, 4), (2, 2)], [((2, 0), Incidence.ofRows [[0, 1, 2], [1, 2, 3]])]⟩⟩

/-- The edges are refused at the second triangle. -/
theorem entities_refused_iff_stretched :
    let s := Demand.after stretched.shape stretched.store [.relation 2 2]
    let ended := (Resolution.entities stretched.shape 1).run s
    stretched.Accepted ∧ stretched.pointCount + 1 < Word.bound ∧ (0 : Int) < 1 ∧ 1 < stretched.dim ∧
      stretched.Reaches s ∧ s.count? 1 = none ∧
      stretched.shape.template 1 = .ok [[0, 1], [0, 2], [1, 2]] ∧
      (∀ cell ∈ stretched.cells, ∃ parts, stretched.shape.split cell 1 = .ok parts) ∧
      stretched.Contradicted 1 [[0, 1], [0, 2], [1, 2]] ∧
      ∃ e, ended.1 = .error e ∧ e.kind = .inconsistent ∧ e.dim? = some 1 := by
  have unknown :
      (Demand.after stretched.shape stretched.store [.relation 2 2]).count? 1 = none := by cbv
  intro s ended
  have accepted : stretched.Accepted :=
    ⟨Registry.builtin, ⟨[2, 3], .word, [0, 1, 2, 1, 2, 3]⟩, .given stretched.shape, none, rfl, rfl⟩
  have small : stretched.pointCount + 1 < Word.bound := by decide
  have reached : stretched.Reaches s := ⟨_, rfl⟩
  have answers : stretched.shape.template 1 = .ok [[0, 1], [0, 2], [1, 2]] := rfl
  have first : stretched.shape.split [0, 1, 2] 1 = .ok [[0, 1], [0, 2], [1, 2]] := by cbv
  have second : stretched.shape.split [1, 2, 3] 1 = .ok [[1, 2], [1, 3], [2, 3, 2]] := by cbv
  have splits : ∀ cell ∈ stretched.cells, ∃ parts, stretched.shape.split cell 1 = .ok parts := by
    intro cell hcell
    simp only [stretched, List.mem_cons, List.not_mem_nil, or_false] at hcell
    obtain rfl | rfl := hcell
    · exact ⟨_, first⟩
    · exact ⟨_, second⟩
  have produced : [2, 3, 2] ∈ ([[1, 2], [1, 3], [2, 3, 2]] : List (List Int)) := by decide
  have contradicted : stretched.Contradicted 1 [[0, 1], [0, 2], [1, 2]] :=
    .length (by simp [stretched]) second produced (by decide)
  obtain ⟨refused, -⟩ :=
    entities_refused_iff accepted small (by decide) (by decide) reached unknown answers splits
  exact ⟨accepted, small, by decide, by decide, reached, unknown, answers, splits, contradicted,
    refused.mpr contradicted⟩

/-- The one edge of the overlong triangle has two vertices, as its template says, and is not found. -/
theorem entities_not_found_overlong :
    overlong.Accepted ∧ overlong.pointCount + 1 < Word.bound ∧ (0 : Int) < 1 ∧ 1 < overlong.dim ∧
      overlong.Reaches overlong.store ∧ overlong.store.count? 1 = none ∧
      overlong.shape.template 1 = .ok [[0, 1]] ∧
      overlong.shape.split [0, 1, 2] 1 = .ok [[0, Word.bound]] ∧
      ¬ overlong.Contradicted 1 [[0, 1]] ∧
      ((Resolution.entities overlong.shape 1).run overlong.store).1 = .error (.encoding .notAWord) := by
  refine ⟨overlong_accepted, by decide, by decide, by decide, ⟨[], rfl⟩, rfl, rfl, rfl, ?_, by cbv⟩
  intro contradicted
  cases contradicted with
  | empty none => cases none
  | outside corners listed place beyond =>
    cases corners
    simp only [List.mem_singleton] at listed
    subst listed
    simp only [List.mem_cons, List.not_mem_nil, or_false] at place
    rcases place with rfl | rfl
    · exact absurd beyond (by decide)
    · exact absurd beyond (by decide)
  | count there split other =>
    cases split
    exact other rfl
  | length there split produced other =>
    cases split
    simp only [List.mem_singleton] at produced
    subst produced
    exact other rfl

end Mesh

end MeshIncidence
