import Mathlib
import MeshIncidence.Proofs.Numbering.Dictionary
import MeshIncidence.Proofs.Numbering.Steps
import MeshIncidence.Proofs.VertexList

/-!
Numbering, whatever the parts are. A cell is a stop: the keys of its parts, and the cells it touches. A
key is known at a stop if a touching stop before it has a key with the same vertices. A known key gets a
number of an earlier stop and any other a new one, even if the stop itself has the same vertices twice.
-/
namespace MeshIncidence

namespace Numbering

/-- What numbering the parts of a cell goes by. -/
structure Stop where
  keys : List (List Int)
  touching : List Int

variable {walked stops : List Stop} {stop here : Stop} {touching : List Int} {key : List Int}

/-- Whether a touching stop has a key with the same vertices. -/
def known (walked : List Stop) (touching key : List Int) : Bool :=
  walked.zipIdx.any fun stop =>
    touching.contains (stop.2 : Int) && stop.1.keys.any fun k => VertexList.sameVertices k key

theorem known_iff : known walked touching key = true ↔
    ∃ i, ∃ h : i < walked.length, (i : Int) ∈ touching ∧
      ∃ k ∈ walked[i].keys, VertexList.sameVertices k key = true := by
  simp only [known, List.any_eq_true, Bool.and_eq_true, List.contains_iff_mem, Prod.exists]
  constructor
  · rintro ⟨stop, i, hstop, touches, has⟩
    have there : walked[i]? = some stop := List.mem_zipIdx_iff_getElem?.mp hstop
    obtain ⟨h, rfl⟩ := List.getElem?_eq_some_iff.mp there
    exact ⟨i, h, touches, has⟩
  · rintro ⟨i, h, touches, has⟩
    exact ⟨walked[i], i, List.mem_zipIdx_iff_getElem?.mpr (List.getElem?_eq_getElem h), touches, has⟩

theorem known_cons_of_later {other : Int} (later : (walked.length : Int) ≤ other) :
    known walked (other :: touching) key = known walked touching key := by
  rw [Bool.eq_iff_iff, known_iff, known_iff]
  refine exists_congr fun i => exists_congr fun h => and_congr_left fun _ => ?_
  rw [List.mem_cons]
  exact or_iff_right (by omega)

theorem known_cons_of_earlier {i : Nat} (h : i < walked.length) :
    known walked ((i : Int) :: touching) key =
      ((walked[i].keys.any fun k => VertexList.sameVertices k key) || known walked touching key) := by
  rw [Bool.eq_iff_iff, Bool.or_eq_true, known_iff, known_iff, List.any_eq_true]
  constructor
  · rintro ⟨j, hj, touches, has⟩
    rcases List.mem_cons.mp touches with same | later
    · have same : j = i := by omega
      subst same
      exact .inl has
    · exact .inr ⟨j, hj, later, has⟩
  · rintro (has | ⟨j, hj, touches, has⟩)
    · exact ⟨i, h, List.mem_cons_self .., has⟩
    · exact ⟨j, hj, List.mem_cons_of_mem _ touches, has⟩

/-- The keys of a stop that get new numbers. -/
def fresh (walked : List Stop) (stop : Stop) : List (List Int) :=
  stop.keys.filter fun key => !known walked stop.touching key

/-- The keys that get new numbers, stop after stop. -/
def entries (stops : List Stop) : List (List Int) :=
  (List.range stops.length).flatMap fun c => stops[c]?.elim [] (fresh (stops.take c))

theorem mem_fresh : key ∈ fresh walked stop ↔
    key ∈ stop.keys ∧ known walked stop.touching key = false := by
  rw [fresh, List.mem_filter, Bool.not_eq_true']

/-- The first stop has nothing before it. -/
@[simp] theorem fresh_nil (stop : Stop) : fresh [] stop = stop.keys := by
  simp [fresh, known]

theorem mem_entries : key ∈ entries stops ↔
    ∃ c, ∃ h : c < stops.length, key ∈ fresh (stops.take c) stops[c] := by
  rw [entries, List.mem_flatMap]
  constructor
  · rintro ⟨c, hc, has⟩
    have h := List.mem_range.mp hc
    exact ⟨c, h, by simpa [h] using has⟩
  · rintro ⟨c, h, has⟩
    exact ⟨c, List.mem_range.mpr h, by simpa [h] using has⟩

theorem entries_concat (stops : List Stop) (stop : Stop) :
    entries (stops ++ [stop]) = entries stops ++ fresh stops stop := by
  have earlier : ∀ c ∈ List.range stops.length,
      (stops ++ [stop])[c]?.elim [] (fresh ((stops ++ [stop]).take c)) =
        stops[c]?.elim [] (fresh (stops.take c)) := by
    intro c hc
    have h := List.mem_range.mp hc
    rw [List.getElem?_append_left h, List.take_append_of_le_length h.le]
  rw [entries, List.length_append, List.length_singleton, List.range_succ, List.flatMap_append,
    List.flatMap_congr earlier, List.flatMap_singleton, ← entries]
  simp

/-- A relation holds between the new keys of a stop and those of any later one. -/
theorem pairwise_entries {R : List Int → List Int → Prop} : (entries stops).Pairwise R ↔
    (∀ c, ∀ h : c < stops.length, (fresh (stops.take c) stops[c]).Pairwise R) ∧
      ∀ b c, ∀ hb : b < c, ∀ hc : c < stops.length, ∀ k ∈ fresh (stops.take b) stops[b],
        ∀ l ∈ fresh (stops.take c) stops[c], R k l := by
  rw [entries, List.pairwise_flatMap, List.pairwise_iff_getElem]
  refine and_congr ?_ ?_
  · refine forall_congr' fun c => ?_
    rw [List.mem_range]
    exact forall_congr' fun h => by simp [h]
  · simp only [List.length_range, List.getElem_range]
    constructor
    · intro each b c hb hc k hk l hl
      exact each b c (hb.trans hc) hc hb k (by simpa [hb.trans hc] using hk) l (by simpa [hc] using hl)
    · intro each b c hb hc lt k hk l hl
      exact each b c lt hc k (by simpa [hb] using hk) l (by simpa [hc] using hl)

/-- The entity has the vertices of the key. -/
def Names (vertices : List (List Int)) (e : Nat) (key : List Int) : Prop :=
  ∃ v, vertices[e]? = some v ∧ VertexList.sameVertices v key = true

/-- A row has numbers for the keys of a stop, and for the known ones numbers of earlier stops. -/
def Stands (vertices : List (List Int)) (walked : List Stop) (before : List (List Nat))
    (stop : Stop) (row : List Nat) : Prop :=
  List.Forall₂ (fun e key => Names vertices e key ∧
    (known walked stop.touching key = true → e ∈ before.flatten)) row stop.keys

/-- Rows of numbers for the keys of all stops. -/
inductive Past (vertices : List (List Int)) : List Stop → List (List Nat) → Prop
  | start : Past vertices [] []
  | next {walked : List Stop} {before : List (List Nat)} {stop : Stop} {row : List Nat}
      (past : Past vertices walked before) (stands : Stands vertices walked before stop row) :
      Past vertices (walked ++ [stop]) (before ++ [row])

variable {vertices : List (List Int)} {before : List (List Nat)} {row : List Nat} {e : Nat}

theorem Names.mono (h : Names vertices e key) (more : List (List Int)) :
    Names (vertices ++ more) e key := by
  obtain ⟨v, hv, same⟩ := h
  have there := (List.getElem?_eq_some_iff.mp hv).1
  exact ⟨v, (List.getElem?_append_left there).trans hv, same⟩

theorem Stands.mono (h : Stands vertices walked before stop row) (more : List (List Int)) :
    Stands (vertices ++ more) walked before stop row :=
  h.imp fun _ _ each => ⟨each.1.mono more, each.2⟩

theorem Stands.names (h : Stands vertices walked before stop row) :
    List.Forall₂ (Names vertices) row stop.keys :=
  h.imp fun _ _ each => each.1

namespace Past

theorem mono (h : Past vertices walked before) (more : List (List Int)) :
    Past (vertices ++ more) walked before := by
  induction h with
  | start => exact .start
  | next _ stands ih => exact .next ih (stands.mono more)

theorem length_eq (h : Past vertices walked before) : before.length = walked.length := by
  induction h with
  | start => rfl
  | next _ _ ih => rw [List.length_append, List.length_append, ih]; rfl

/-- The row of a stop, among those before it. -/
theorem stands (h : Past vertices stops before) {c : Nat} (hc : c < stops.length)
    (hc' : c < before.length) :
    Stands vertices (stops.take c) (before.take c) stops[c] before[c] := by
  induction h with
  | start => exact absurd hc (Nat.not_lt_zero c)
  | @next walked before stop row past stands ih =>
    have same := past.length_eq
    rw [List.length_append, List.length_singleton] at hc
    by_cases earlier : c < walked.length
    · have earlier' : c < before.length := by omega
      rw [List.take_append_of_le_length earlier.le, List.take_append_of_le_length earlier'.le,
        List.getElem_append_left earlier, List.getElem_append_left earlier']
      exact ih earlier earlier'
    · have last : c = walked.length := by omega
      have last' : c = before.length := by omega
      rw [List.take_left' last.symm, List.take_left' last'.symm,
        List.getElem_concat_length last, List.getElem_concat_length last']
      exact stands

/-- Every key of a stop has a number, and a known one the number of an earlier stop. -/
theorem exists_number (h : Past vertices stops before) {c : Nat} (hc : c < stops.length) {p : Nat}
    (hp : p < stops[c].keys.length) : ∃ e, (before.getD c [])[p]? = some e ∧
      Names vertices e stops[c].keys[p] ∧
      (known (stops.take c) stops[c].touching stops[c].keys[p] = true →
        ∃ b < c, e ∈ before.getD b []) := by
  have hc' : c < before.length := by rw [h.length_eq]; exact hc
  have stands := h.stands hc hc'
  have hp' : p < before[c].length := by rw [stands.length_eq]; exact hp
  obtain ⟨names, old⟩ := stands.get hp' hp
  refine ⟨before[c][p], by simp [hc', hp'], names, fun seen => ?_⟩
  obtain ⟨row, hrow, he⟩ := List.mem_flatten.mp (old seen)
  obtain ⟨b, hb, rfl⟩ := List.mem_take_iff_getElem.mp hrow
  have there : b < before.length := by omega
  exact ⟨b, by omega, by simpa [there] using he⟩

end Past

section Search

variable {n : Numbering} {keys : List (List Int)} {after : List (List Nat)}

theorem verticesOf_of_names (h : Names n.entityVertices e key) (other : List Int) :
    VertexList.sameVertices (n.verticesOf e) other = VertexList.sameVertices key other := by
  obtain ⟨v, hv, same⟩ := h
  rw [verticesOf, List.getD_eq_getElem?_getD, hv, Option.getD_some]
  exact VertexList.sameVertices_congr same other

/-- Looking for a key in a row of numbers is looking for it among the keys they stand for. -/
theorem find?_isSome (names : List.Forall₂ (Names n.entityVertices) row keys) (key : List Int) :
    (row.find? fun e => VertexList.sameVertices (n.verticesOf e) key).isSome =
      keys.any fun k => VertexList.sameVertices k key := by
  induction names with
  | nil => rfl
  | cons head _ ih =>
    rw [List.find?_cons, List.any_cons, verticesOf_of_names head]
    split
    · rename_i same
      rw [same]
      rfl
    · rename_i differ
      rw [differ, Bool.false_or, ih]

/-- What is found has the vertices that were looked for. -/
theorem names_of_find? (names : List.Forall₂ (Names n.entityVertices) row keys)
    (h : (row.find? fun e => VertexList.sameVertices (n.verticesOf e) key) = some e) :
    Names n.entityVertices e key := by
  induction names with
  | nil => cases h
  | cons head _ ih =>
    rw [List.find?_cons] at h
    split at h
    · rename_i same
      cases h
      obtain ⟨v, hv, -⟩ := head
      rw [verticesOf, List.getD_eq_getElem?_getD, hv, Option.getD_some] at same
      exact ⟨v, hv, same⟩
    · exact ih h

/-- The search among touching stops always ends. It finds an entity exactly for known keys, and then one
of an earlier stop that has the vertices of the key. -/
theorem find_exact (key : List Int) (past : Past n.entityVertices walked before)
    (cells : n.cellEntities = before ++ after) (inside : ∀ e ∈ touching, 0 ≤ e) :
    ∃ found, n.find walked.length key touching = .ok found ∧
      found.isSome = known walked touching key ∧
      ∀ e, found = some e → e ∈ before.flatten ∧ Names n.entityVertices e key := by
  induction touching with
  | nil =>
    refine ⟨none, rfl, ?_, by simp⟩
    rw [Option.isSome_none, eq_comm, Bool.eq_false_iff, Ne, known_iff]
    simp
  | cons other touching ih =>
    have ih := ih fun e he => inside e (List.mem_cons_of_mem _ he)
    obtain ⟨i, rfl⟩ := Int.eq_ofNat_of_zero_le (inside other (List.mem_cons_self ..))
    rw [find]
    split
    · rename_i later
      rw [known_cons_of_later later]
      exact ih
    · rename_i earlier
      have hi : i < walked.length := by omega
      have hi' : i < before.length := by rw [past.length_eq]; exact hi
      have names := (past.stands hi hi').names
      have entry : Position.entry? n.cellEntities (i : Int) = some before[i] := by
        rw [Position.entry?_natCast, cells, List.getElem?_append_left hi', List.getElem?_eq_getElem]
      have here := find?_isSome names key
      rw [entry, known_cons_of_earlier hi, ← here]
      dsimp only
      split
      · rename_i e found
        rw [found]
        refine ⟨some e, rfl, rfl, ?_⟩
        rintro _ ⟨⟩
        have listed := List.mem_of_find?_eq_some found
        exact ⟨List.mem_flatten.mpr ⟨_, List.getElem_mem hi', listed⟩, names_of_find? names found⟩
      · rename_i none
        rw [none]
        exact ih

end Search

/-- Numbers given to some stops, and none yet to `rest` others. -/
structure Walked (stops : List Stop) (rows : List (List Nat)) (rest : Nat) (n : Numbering) :
    Prop where
  cells : n.cellEntities = rows ++ List.replicate rest []
  vertices : n.entityVertices = entries stops
  past : Past n.entityVertices stops rows

/-- Numbers given to some stops and to a part of the next one, and none yet to `rest` others. -/
structure Walking (walked : List Stop) (before : List (List Nat)) (here : Stop) (row : List Nat)
    (rest : Nat) (n : Numbering) : Prop where
  cells : n.cellEntities = before ++ row :: List.replicate rest []
  vertices : n.entityVertices = entries walked ++ fresh walked here
  past : Past n.entityVertices walked before
  stands : Stands n.entityVertices walked before here row

variable {rest : Nat} {n : Numbering}

theorem walked_initial (cells : Nat) : Walked [] [] cells (initial cells) :=
  ⟨rfl, rfl, .start⟩

/-- A stop is reached. -/
theorem Walked.enter (h : Walked walked before (rest + 1) n) (touching : List Int) :
    Walking walked before ⟨[], touching⟩ [] rest n where
  cells := by rw [h.cells, List.replicate_succ]
  vertices := by rw [h.vertices, fresh, List.filter_nil, List.append_nil]
  past := h.past
  stands := List.Forall₂.nil

/-- A stop is left. -/
theorem Walking.leave (h : Walking walked before here row rest n) :
    Walked (walked ++ [here]) (before ++ [row]) rest n where
  cells := by rw [h.cells, List.append_assoc, List.singleton_append]
  vertices := by rw [h.vertices, entries_concat]
  past := .next h.past h.stands

theorem fresh_concat (walked : List Stop) (here : Stop) (key : List Int) :
    fresh walked { here with keys := here.keys ++ [key] } =
      fresh walked here ++ if known walked here.touching key then [] else [key] := by
  simp only [fresh, List.filter_append, List.filter_cons, List.filter_nil]
  cases known walked here.touching key <;> rfl

/-- One more key of a stop is numbered. -/
theorem Walking.place (h : Walking walked before here row rest n)
    (inside : ∀ e ∈ here.touching, 0 ≤ e) (part : List Int) :
    ∃ e n', n.place walked.length here.touching part = .ok n' ∧
      Walking walked before { here with keys := here.keys ++ [VertexList.ascending part] }
        (row ++ [e]) rest n' := by
  have position : walked.length = before.length := h.past.length_eq.symm
  have assigned : ∀ e, n.cellEntities.modify walked.length (fun row => row ++ [e]) =
      before ++ (row ++ [e]) :: List.replicate rest [] := by
    intro e
    rw [h.cells, position, modify_append_cons]
  obtain ⟨found, hfound, some, names⟩ :=
    find_exact (VertexList.ascending part) h.past h.cells inside
  have grown := fresh_concat walked here (VertexList.ascending part)
  rw [Numbering.place, hfound, Outcome.ok_bind]
  cases found with
  | some e =>
    obtain ⟨earlier, names⟩ := names e rfl
    rw [← some, Option.isSome_some, if_pos rfl, List.append_nil] at grown
    refine ⟨e, _, rfl, assigned e, by rw [grown]; exact h.vertices, h.past, ?_⟩
    exact List.rel_append h.stands (.cons ⟨names, fun _ => earlier⟩ .nil)
  | none =>
    rw [← some, Option.isSome_none, if_neg (by simp)] at grown
    refine ⟨n.count, _, rfl, assigned n.count, ?_, h.past.mono _, ?_⟩
    · rw [grown, ← List.append_assoc, ← h.vertices]
      rfl
    · have names : Names (n.entityVertices ++ [VertexList.ascending part]) n.count
          (VertexList.ascending part) :=
        ⟨VertexList.ascending part, by simp [count], VertexList.sameVertices_refl _⟩
      refine List.rel_append (h.stands.mono _) (.cons ⟨names, fun old => ?_⟩ .nil)
      rw [← some] at old
      cases old

variable {shape : Shape} {e : Expected} {n' : Numbering}

/-- What becomes of a cell and those it touches: a stop, if the shape splits the cell as expected. -/
structure Splits (shape : Shape) (e : Expected) (entry : List Int × List Int) (stop : Stop) :
    Prop where
  touching : stop.touching = entry.2
  parts : ∃ parts, shape.split entry.1 e.dim = .ok parts ∧ parts.length = e.parts ∧
    (∀ part ∈ parts, part.length = e.partVertices) ∧ stop.keys = parts.map VertexList.ascending

/-- All parts of a cell are numbered, if they have the right length. -/
theorem Walking.foldlM {parts : List (List Int)} (h : Walking walked before here row rest n)
    (inside : ∀ e ∈ here.touching, 0 ≤ e) (width : ∀ part ∈ parts, part.length = e.partVertices) :
    ∃ row' n', parts.foldlM (placeChecked shape e walked.length here.touching) n = .ok n' ∧
      Walking walked before { here with keys := here.keys ++ parts.map VertexList.ascending }
        row' rest n' := by
  induction parts generalizing here row n with
  | nil => exact ⟨row, n, rfl, by simpa using h⟩
  | cons part parts ih =>
    rw [List.forall_mem_cons] at width
    obtain ⟨_, n₁, placed, next⟩ := h.place inside part
    obtain ⟨row', n₂, done, ended⟩ := ih next inside width.2
    refine ⟨row', n₂, ?_, by simpa using ended⟩
    rw [List.foldlM_cons, placeChecked_eq_ok.mpr ⟨width.1, placed⟩, Outcome.ok_bind]
    exact done

/-- No part of another length is numbered. -/
theorem length_of_foldlM {parts : List (List Int)} {cell : Nat} {touching : List Int}
    (done : parts.foldlM (placeChecked shape e cell touching) n = .ok n') :
    ∀ part ∈ parts, part.length = e.partVertices := by
  induction parts generalizing n with
  | nil => simp
  | cons part parts ih =>
    rw [List.foldlM_cons] at done
    obtain ⟨n₁, first, done⟩ := Outcome.bind_eq_ok.mp done
    exact List.forall_mem_cons.mpr ⟨(placeChecked_eq_ok.mp first).1, ih done⟩

theorem Walked.visit {cell touching : List Int} (h : Walked walked before (rest + 1) n)
    (inside : ∀ e ∈ touching, 0 ≤ e) (splits : Splits shape e (cell, touching) stop) :
    ∃ row n', visit shape e n ((cell, touching), walked.length) = .ok n' ∧
      Walked (walked ++ [stop]) (before ++ [row]) rest n' := by
  obtain ⟨same, parts, split, number, width, keys⟩ := splits
  obtain ⟨row, n', done, ended⟩ := (h.enter touching).foldlM inside width
  refine ⟨row, n', visit_eq_ok.mpr ⟨parts, split, number, done⟩, ?_⟩
  cases stop
  cases same
  cases keys
  exact ended.leave

theorem exists_splits_of_visit {entry : List Int × List Int} {c : Nat}
    (done : visit shape e n (entry, c) = .ok n') : ∃ stop, Splits shape e entry stop := by
  obtain ⟨parts, split, number, done⟩ := visit_eq_ok.mp done
  exact ⟨⟨_, _⟩, rfl, parts, split, number, length_of_foldlM done, rfl⟩

theorem Walked.foldlM {todo : List (List Int × List Int)} (h : Walked walked before todo.length n)
    (inside : ∀ entry ∈ todo, ∀ e ∈ entry.2, 0 ≤ e)
    (splits : List.Forall₂ (Splits shape e) todo stops) :
    ∃ rows n', (todo.zipIdx walked.length).foldlM (Numbering.visit shape e) n = .ok n' ∧
      Walked (walked ++ stops) (before ++ rows) 0 n' := by
  induction splits generalizing walked before n with
  | nil => exact ⟨[], n, rfl, by simpa using h⟩
  | @cons entry stop todo stops head _ ih =>
    rw [List.forall_mem_cons] at inside
    obtain ⟨row, n₁, first, next⟩ := h.visit inside.1 head
    obtain ⟨rows, n₂, done, ended⟩ := ih next inside.2
    have position : walked.length + 1 = (walked ++ [stop]).length := by simp
    refine ⟨row :: rows, n₂, ?_, by simpa using ended⟩
    rw [List.zipIdx_cons, List.foldlM_cons, first, Outcome.ok_bind, position]
    exact done

theorem exists_splits_of_foldlM {todo : List (List Int × List Int)} {c : Nat}
    (done : (todo.zipIdx c).foldlM (visit shape e) n = .ok n') :
    ∃ stops, List.Forall₂ (Splits shape e) todo stops := by
  induction todo generalizing n c with
  | nil => exact ⟨[], .nil⟩
  | cons entry todo ih =>
    rw [List.zipIdx_cons, List.foldlM_cons] at done
    obtain ⟨n₁, first, done⟩ := Outcome.bind_eq_ok.mp done
    obtain ⟨stop, head⟩ := exists_splits_of_visit first
    obtain ⟨stops, others⟩ := ih done
    exact ⟨stop :: stops, .cons head others⟩

/-- Cells that are split as expected are numbered: by the new keys, and with a row for each cell. -/
theorem ofCells_of_splits {cells touching : List (List Int)}
    (same : touching.length = cells.length) (inside : ∀ row ∈ touching, ∀ e ∈ row, 0 ≤ e)
    (splits : List.Forall₂ (Splits shape e) (cells.zip touching) stops) :
    ∃ n, ofCells shape e cells touching = .ok n ∧ n.entityVertices = entries stops ∧
      Past n.entityVertices stops n.cellEntities := by
  have length : (cells.zip touching).length = cells.length := by simp [same]
  have start : Walked [] [] (cells.zip touching).length (initial cells.length) := by
    rw [length]
    exact walked_initial cells.length
  obtain ⟨rows, n, done, ended⟩ :=
    start.foldlM (fun entry he => inside entry.2 (List.of_mem_zip he).2) splits
  have cellEntities : n.cellEntities = rows := by simpa using ended.cells
  exact ⟨n, done, ended.vertices, by rw [cellEntities]; exact ended.past⟩

end Numbering

end MeshIncidence
