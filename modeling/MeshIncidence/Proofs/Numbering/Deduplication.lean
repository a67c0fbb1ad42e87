import Mathlib
import MeshIncidence.Proofs.Numbering.Admitted
import MeshIncidence.Proofs.Resolution.Laziness

/-!
Parts are never numbered twice. A part is looked for among the cells that touch its own, and these hold
every part with the same vertices, because parts have vertices. So the numbering of a dimension in
which the shape splits well is that of a dictionary of all parts of all cells.
-/
namespace MeshIncidence

namespace Numbering

variable {stops : List Stop} {vertices keys : List (List Int)} {row : List Nat} {rows : List (List Nat)}

/-- Keys in ascending order have the same vertices only where they are equal. -/
theorem sameVertices_keys {a b : List Int} (ha : a.Pairwise (· < ·)) (hb : b.Pairwise (· < ·)) :
    VertexList.sameVertices a b = true ↔ a = b := by
  rw [VertexList.sameVertices_iff_perm (ha.imp ne_of_lt), ← VertexList.ascending_eq_iff_perm,
    VertexList.ascending_of_pairwise (ha.imp le_of_lt),
    VertexList.ascending_of_pairwise (hb.imp le_of_lt)]

/-- New keys are those in the order of first occurrence, if no stop has a key twice and a key is known
exactly where an earlier stop has it. -/
theorem entries_eq_eraseDups (different : ∀ stop ∈ stops, stop.keys.Nodup)
    (complete : ∀ c, ∀ h : c < stops.length, ∀ key ∈ stops[c].keys,
      known (stops.take c) stops[c].touching key = true ↔ ∃ stop ∈ stops.take c, key ∈ stop.keys) :
    entries stops = (stops.map Stop.keys).flatten.eraseDups := by
  induction stops using List.reverseRecOn with
  | nil => rfl
  | append_singleton stops stop ih =>
    have earlier := ih (fun stop hstop => different stop (List.mem_append_left _ hstop)) (by
      intro c h key hkey
      have seen := complete c (by simp; omega) key (by rwa [List.getElem_append_left h])
      rwa [List.getElem_append_left h, List.take_append_of_le_length h.le] at seen)
    have new : fresh stops stop = stop.keys.removeAll (stops.map Stop.keys).flatten := by
      refine List.filter_congr fun key hkey => congrArg _ ?_
      have seen := complete stops.length (by simp) key (by simpa using hkey)
      rw [List.getElem_concat_length rfl, List.take_left] at seen
      rw [Bool.eq_iff_iff, seen, List.elem_iff, ← List.flatMap_def, List.mem_flatMap]
    have kept : (stop.keys.removeAll (stops.map Stop.keys).flatten).eraseDups =
        stop.keys.removeAll (stops.map Stop.keys).flatten :=
      eraseDups_of_nodup ((different stop (by simp)).filter _)
    rw [entries_concat, earlier, new, List.map_append, List.flatten_append, List.eraseDups_append,
      List.map_singleton, List.flatten_singleton, kept]

/-- Keys that are told apart have their places for numbers. -/
theorem row_eq_places (nodup : vertices.Nodup) (strict : ∀ v ∈ vertices, v.Pairwise (· < ·))
    (strict' : ∀ key ∈ keys, key.Pairwise (· < ·))
    (names : List.Forall₂ (Names vertices) row keys) : row = places vertices keys := by
  induction names with
  | nil => rfl
  | @cons e key row keys head _ ih =>
    rw [List.forall_mem_cons] at strict'
    obtain ⟨v, hv, same⟩ := head
    obtain ⟨he, rfl⟩ := List.getElem?_eq_some_iff.mp hv
    have key_eq := (sameVertices_keys (strict _ (List.getElem_mem he)) strict'.1).mp same
    rw [places, List.map_cons, ← places, ← ih strict'.2, ← key_eq, nodup.idxOf_getElem]

theorem Past.rows_eq (past : Past vertices stops rows) (nodup : vertices.Nodup)
    (strict : ∀ v ∈ vertices, v.Pairwise (· < ·))
    (strict' : ∀ stop ∈ stops, ∀ key ∈ stop.keys, key.Pairwise (· < ·)) :
    rows = stops.map fun stop => places vertices stop.keys := by
  induction past with
  | start => rfl
  | @next walked before stop row _ stands ih =>
    have last := row_eq_places nodup strict (strict' stop (by simp)) stands.names
    rw [List.map_append, List.map_singleton, ← last,
      ← ih fun stop hstop => strict' stop (List.mem_append_left _ hstop)]

end Numbering

namespace Mesh

variable {m : Mesh} {d : Int} {parts touching : List (List Int)} {k : Numbering} {s : Store}

/-- The keys of all parts, cell by cell. -/
def keys (m : Mesh) (parts : List (List Int)) : List (List (List Int)) :=
  m.cells.map (Numbering.keysOf parts)

theorem admits_of_regular (regular : m.shape.Regular d parts) : m.Admits d parts := by
  obtain ⟨w, -, width⟩ := regular.width
  exact ⟨regular.template, regular.nonempty, regular.inside, fun _ => ⟨w, width⟩⟩

/-- A part has been seen where an earlier cell has its key, since it has a vertex by which the cells
touch. -/
theorem seen_iff_of_regular (sound : m.Sound) (regular : m.shape.Regular d parts) {c : Nat}
    (hc : c < m.cells.length) {p : List Int} (hp : p ∈ parts) : m.Seen parts c hc p ↔
      ∃ other ∈ m.cells.take c, Shape.keyOf m.cells[c] p ∈ Numbering.keysOf parts other := by
  have nodup : ∀ {cell part}, cell ∈ m.cells → part ∈ parts → (Shape.pickAt cell part).Nodup :=
    fun hcell hpart => Shape.nodup_pickAt (sound.nodup _ hcell) (regular.nodup _ hpart)
      (regular.places (sound.vertexCount hcell) hpart)
  have cell := List.getElem_mem hc
  have same : ∀ {other q}, other ∈ m.cells → q ∈ parts →
      (Shape.keyOf other q = Shape.keyOf m.cells[c] p ↔
        ∀ v, v ∈ Shape.pickAt other q ↔ v ∈ Shape.pickAt m.cells[c] p) :=
    fun hother hq => VertexList.ascending_eq_iff (nodup hother hq) (nodup cell hp)
  constructor
  · rintro ⟨other, earlier, -, q, hq, alike⟩
    exact ⟨other, earlier, List.mem_map.mpr ⟨q, hq, (same (List.mem_of_mem_take earlier) hq).mpr alike⟩⟩
  · rintro ⟨other, earlier, key⟩
    obtain ⟨q, hq, key⟩ := List.mem_map.mp key
    have hother := List.mem_of_mem_take earlier
    have alike := (same hother hq).mp key
    have some : p ≠ [] :=
      fun empty => regular.keyOf_ne_nil m.cells[c] hp (Shape.keyOf_eq_nil_iff.mpr empty)
    exact ⟨other, earlier, (admits_of_regular regular).touching_of_alike sound hother cell hq hp
      some alike, q, hq, alike⟩

/-- The vertices of all parts of all cells, one list a part. -/
def subentities (m : Mesh) (parts : List (List Int)) : List (List Int) :=
  m.cells.flatMap fun cell => parts.map (Shape.pickAt cell)

theorem flatten_keys : (m.keys parts).flatten = (m.subentities parts).map VertexList.ascending := by
  rw [subentities, List.map_flatMap, List.flatMap_def, keys]
  congr 1
  refine List.map_congr_left fun cell _ => ?_
  rw [List.map_map]
  rfl

theorem mem_keys {key : List Int} :
    key ∈ (m.keys parts).flatten ↔ ∃ cell ∈ m.cells, key ∈ Numbering.keysOf parts cell := by
  rw [keys, ← List.flatMap_def, List.mem_flatMap]

theorem pairwise_of_mem_keys (sound : m.Sound) (regular : m.shape.Regular d parts) {key : List Int}
    (h : key ∈ (m.keys parts).flatten) : key.Pairwise (· < ·) := by
  obtain ⟨cell, hcell, hkey⟩ := mem_keys.mp h
  obtain ⟨part, hp, rfl⟩ := List.mem_map.mp hkey
  exact regular.pairwise_keyOf (sound.vertexCount hcell) (sound.nodup cell hcell) hp

theorem mem_cell_of_mem_key (sound : m.Sound) (regular : m.shape.Regular d parts)
    {cell key : List Int} (hcell : cell ∈ m.cells) (hkey : key ∈ Numbering.keysOf parts cell) {v : Int}
    (hv : v ∈ key) : v ∈ cell := by
  obtain ⟨part, hp, rfl⟩ := List.mem_map.mp hkey
  exact Shape.mem_cell_of_mem_pickAt (regular.places (sound.vertexCount hcell) hp)
    (Shape.mem_keyOf.mp hv)

theorem map_keys_stops (ht : m.touching = .ok touching) :
    (m.stops parts touching).map Numbering.Stop.keys = m.keys parts := by
  have firsts : (m.cells.zip touching).map Prod.fst = m.cells :=
    List.map_fst_zip (length_touching ht).ge
  conv_rhs => rw [keys, ← firsts, List.map_map]
  rw [stops, List.map_map]
  rfl

/-- New keys are those of all parts of all cells, in the order of first occurrence. -/
theorem entries_stops (sound : m.Sound) (regular : m.shape.Regular d parts)
    (numbered : m.Numbered d parts touching k) :
    Numbering.entries (m.stops parts touching) = (m.keys parts).flatten.eraseDups := by
  rw [← map_keys_stops numbered.touches]
  have length := numbered.length_stops
  refine Numbering.entries_eq_eraseDups ?_ ?_
  · intro stop hstop
    obtain ⟨entry, hentry, rfl⟩ := List.mem_map.mp hstop
    have cell := (List.of_mem_zip hentry).1
    exact regular.nodup_keys (sound.vertexCount cell) (sound.nodup _ cell)
  · intro c h key hkey
    have hc : c < m.cells.length := by omega
    have earlier : ((m.stops parts touching).take c).map Numbering.Stop.keys =
        (m.cells.take c).map (Numbering.keysOf parts) := by
      rw [List.map_take, map_keys_stops numbered.touches, keys, List.map_take]
    rw [getElem_stops hc (by rw [numbered.length_touching]; exact hc)] at hkey
    obtain ⟨p, hp, rfl⟩ := List.mem_map.mp hkey
    rw [known_stops_iff numbered hc hp h, seen_iff_of_regular sound regular hc hp,
      ← List.mem_flatMap, ← List.mem_flatMap, List.flatMap_def, List.flatMap_def, earlier]

/-- The search among touching cells finds what a dictionary of all parts would. -/
theorem numbering_eq (sound : m.Sound) (regular : m.shape.Regular d parts)
    (ht : m.touching = .ok touching) :
    m.numbering d = .ok (Numbering.byDictionary (m.keys parts)) := by
  obtain ⟨k, hk, numbered⟩ := numbered_of_admits sound regular.plain (admits_of_regular regular) ht
  have vertices : k.entityVertices = (m.keys parts).flatten.eraseDups := by
    rw [numbered.vertices, entries_stops sound regular numbered]
  have strict : ∀ key ∈ (m.keys parts).flatten, key.Pairwise (· < ·) :=
    fun key hkey => pairwise_of_mem_keys sound regular hkey
  have rows := numbered.past.rows_eq (by rw [vertices]; exact nodup_eraseDups _)
    (by rw [vertices]; exact fun v hv => strict v (List.mem_eraseDups.mp hv))
    fun stop hstop key hkey => strict key (by
      rw [← map_keys_stops ht]
      exact List.mem_flatten.mpr ⟨_, List.mem_map_of_mem hstop, hkey⟩)
  have numbers : k.cellEntities = (m.keys parts).map (Numbering.places k.entityVertices) := by
    rw [rows, ← map_keys_stops ht, List.map_map]
    rfl
  rw [hk, Numbering.byDictionary_eq, ← vertices, ← numbers]

/-- A finished numbering is that of the dictionary. -/
theorem eq_byDictionary (sound : m.Sound) (regular : m.shape.Regular d parts)
    (h : m.numbering d = .ok k) : k = Numbering.byDictionary (m.keys parts) := by
  obtain ⟨touching, ht, -⟩ := Outcome.bind_eq_ok.mp h
  rw [numbering_eq sound regular ht] at h
  exact (Except.ok.inj h).symm

/-- The vertices of entities of a dimension below that of the cells are the keys of parts. -/
theorem vertexRows_below (sound : m.Sound) (regular : m.shape.Regular d parts) (below : d ≠ m.dim)
    (h : m.vertexRows d = .ok rows) : rows = (m.keys parts).flatten.eraseDups := by
  rw [vertexRows, if_neg below] at h
  obtain ⟨k, hk, rfl⟩ := Outcome.map_eq_ok.mp h
  rw [eq_byDictionary sound regular hk, Numbering.byDictionary_eq]

/-- Parts that cells are split well into have vertices that can be recorded. -/
theorem not_overflows_of_regular (sound : m.Sound) (regular : m.shape.Regular d parts) :
    ¬ m.Overflows d := by
  refine not_overflows_of_inside fun _ below rows h key hkey v hv => ?_
  rw [vertexRows_below sound regular below.ne h, List.mem_eraseDups] at hkey
  obtain ⟨cell, hcell, hkey⟩ := mem_keys.mp hkey
  exact sound.inside_points hcell (mem_cell_of_mem_key sound regular hcell hkey hv)

/-- There are as many keys as there are different sets of vertices. -/
theorem count_byDictionary (sound : m.Sound) (regular : m.shape.Regular d parts) :
    (Numbering.byDictionary (m.keys parts)).count =
      ((m.subentities parts).map List.toFinset).toFinset.card := by
  have set_ascending : ∀ l : List Int, (VertexList.ascending l).toFinset = l.toFinset := by
    intro l
    ext v
    rw [List.mem_toFinset, List.mem_toFinset, VertexList.mem_ascending]
  have sets : ((m.subentities parts).map List.toFinset).toFinset =
      ((m.keys parts).flatten.eraseDups.map List.toFinset).toFinset := by
    ext vertices
    simp only [List.mem_toFinset, List.mem_map, List.mem_eraseDups, flatten_keys]
    constructor
    · intro h
      rcases h with ⟨l, hl, rfl⟩
      exact ⟨_, ⟨l, hl, rfl⟩, set_ascending l⟩
    · intro h
      rcases h with ⟨_, ⟨l, hl, rfl⟩, rfl⟩
      exact ⟨l, hl, (set_ascending l).symm⟩
  have different : ((m.keys parts).flatten.eraseDups.map List.toFinset).Nodup := by
    refine (nodup_eraseDups _).map_on fun a ha b hb same => ?_
    refine List.Pairwise.eq_of_mem_iff
      (pairwise_of_mem_keys sound regular (List.mem_eraseDups.mp ha))
      (pairwise_of_mem_keys sound regular (List.mem_eraseDups.mp hb)) fun v => ?_
    rw [← List.mem_toFinset, same, List.mem_toFinset]
  rw [sets, List.toFinset_card_of_nodup different, List.length_map, Numbering.count,
    Numbering.byDictionary_eq]

/-- The number that a cell has for one of its parts is that of the part's key. -/
theorem cellRows_byDictionary {c : Nat} (hc : c < m.cells.length) :
    ∃ row, (Numbering.byDictionary (m.keys parts)).cellRows[c]? = some row ∧
      row.length = parts.length ∧
      ∀ k, ∀ hk : k < parts.length, ∃ e : Nat, row[k]? = some (e : Int) ∧
        (Numbering.byDictionary (m.keys parts)).entityVertices[e]? =
          some (Shape.keyOf m.cells[c] parts[k]) := by
  let entities := (m.keys parts).flatten.eraseDups
  refine ⟨(Numbering.places entities (Numbering.keysOf parts m.cells[c])).map Int.ofNat, ?_, ?_, ?_⟩
  · simp [Numbering.byDictionary_eq, Numbering.cellRows, keys, hc, entities]
  · simp [Numbering.places, Numbering.keysOf]
  · intro k hk
    have key : Shape.keyOf m.cells[c] parts[k] ∈ entities :=
      List.mem_eraseDups.mpr (mem_keys.mpr
        ⟨m.cells[c], List.getElem_mem hc, List.mem_map_of_mem (List.getElem_mem hk)⟩)
    refine ⟨entities.idxOf (Shape.keyOf m.cells[c] parts[k]), ?_, ?_⟩
    · simp [Numbering.places, Numbering.keysOf, hk]
    · have hlt := List.idxOf_lt_length_of_mem key
      rw [Numbering.byDictionary_eq, List.getElem?_eq_getElem hlt, List.getElem_idxOf]

/-- Numbering the entities of a dimension finds what a dictionary of all parts of all cells would:
every set of vertices once, in the order of first occurrence, and for each cell the numbers of its
parts. -/
theorem entities_eq_dictionary (accepted : m.Accepted) (small : m.pointCount + 1 < Word.bound)
    (above : 0 < d) (below : d < m.dim) (regular : m.shape.Regular d parts) (reached : m.Reaches s) :
    let dictionary := Numbering.byDictionary (m.keys parts)
    let ended := (Resolution.entities m.shape d).run s
    ended.1 = .ok dictionary.count ∧
    ended.2.store.relation? d 0 = some (Incidence.ofRows dictionary.entityVertices) ∧
    ended.2.store.relation? m.dim d = some (Incidence.ofRows dictionary.cellRows) ∧
    dictionary.count = ((m.subentities parts).map List.toFinset).toFinset.card ∧
    dictionary.entityVertices = ((m.subentities parts).map VertexList.ascending).eraseDups ∧
    dictionary.entityVertices.Nodup ∧
    (∀ key ∈ dictionary.entityVertices, key.Pairwise (· < ·)) ∧
    ∀ c, ∀ hc : c < m.cells.length, ∃ row, dictionary.cellRows[c]? = some row ∧
      row.length = parts.length ∧
      ∀ k, ∀ hk : k < parts.length, ∃ e : Nat, row[k]? = some (e : Int) ∧
        dictionary.entityVertices[e]? =
          some (VertexList.ascending (Shape.pickAt m.cells[c] parts[k])) := by
  intro dictionary ended
  have sound := accepted.sound
  obtain ⟨touching, ht⟩ := sound.touching_exists small
  have numbered := numbering_eq sound regular ht
  have count : m.countOf d = .ok dictionary.count := by
    rw [countOf_between above below, numbered]
    rfl
  have fine := not_overflows_of_regular sound regular
  have counts : Resolution.Counts m _ d ⟨s, []⟩ ended := reached.counts accepted d
  obtain ⟨vertices, cells⟩ := counts.leads.faithful.relations_of_numbering above below numbered
    ⟨counts.recorded count, fine⟩
  have entries : dictionary.entityVertices = (m.keys parts).flatten.eraseDups :=
    congrArg Numbering.entityVertices (Numbering.byDictionary_eq _)
  have found := counts.outcome.trans ((entitiesOf_of_fine fine).trans count)
  refine ⟨found, vertices, cells, count_byDictionary sound regular, ?_, ?_, ?_,
    fun c hc => cellRows_byDictionary hc⟩
  · rw [entries, flatten_keys]
  · rw [entries]
    exact nodup_eraseDups _
  · intro key hkey
    rw [entries, List.mem_eraseDups] at hkey
    exact pairwise_of_mem_keys sound regular hkey

/-- Five edges in a strip of two triangles, numbered where the cells' neighbours are known already. -/
theorem entities_eq_dictionary_strip :
    let s := Demand.after strip.shape strip.store [.relation 2 2]
    strip.Accepted ∧ strip.pointCount + 1 < Word.bound ∧ (0 : Int) < 1 ∧ 1 < strip.dim ∧
      strip.shape.Regular 1 [[0, 1], [0, 2], [1, 2]] ∧ strip.Reaches s ∧
      ((Resolution.entities strip.shape 1).run s).1 = .ok 5 := by
  have regular : strip.shape.Regular 1 [[0, 1], [0, 2], [1, 2]] :=
    Shape.regular_simplex (by decide : (0 : Int) ≤ 1) (by decide : (1 : Int) ≤ 2)
  have small : strip.pointCount + 1 < Word.bound := by decide
  have below : 1 < strip.dim := by decide
  have reached : strip.Reaches (Demand.after strip.shape strip.store [.relation 2 2]) := ⟨_, rfl⟩
  have counted := (entities_eq_dictionary strip_accepted small (by decide) below regular reached).1
  have five : (Numbering.byDictionary (strip.keys [[0, 1], [0, 2], [1, 2]])).count = 5 := by
    cbv
  exact ⟨strip_accepted, small, by decide, below, regular, reached, by simp [counted, five]⟩

end Mesh

end MeshIncidence
