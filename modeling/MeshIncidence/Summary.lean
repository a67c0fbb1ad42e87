import MeshIncidence.Store

/-!
A summary of what a store has recorded: the count of each dimension and the longest row of each
relation.
-/
namespace MeshIncidence.Summary

/-- The greatest count of a relation's rows, zero without rows. -/
def maxDegree (r : Incidence) : Int := r.counts.max?.getD 0

def ofStore (s : Store) : List (String × Int) :=
  s.recordedCounts.map (fun entry => (s!"n_entities_{entry.1}", (entry.2 : Int))) ++
  s.recordedRelations.map fun entry =>
    (s!"max_degree_{entry.1.1}_{entry.1.2}", maxDegree entry.2)

end MeshIncidence.Summary
