import MeshIncidence.Fault
import MeshIncidence.Word

/-!
Arrays written as nested lists. The first entries, taken level by level, fix the extents; all leaves
together fix the kind of element; an array that has entries must then have the same extents all over.
-/
namespace MeshIncidence

/-- Nested lists as they are written. -/
inductive Nested where
  | integer (value : Int)
  | truth (value : Bool)
  | fraction
  | text
  | absent
  | list (items : List Nested)

/-- A kind of element, by its name. -/
structure Element where
  name : String
  fractional : Bool
  deriving DecidableEq, Repr

namespace Element

def truth : Element := ⟨"bool", false⟩

def word : Element := ⟨"int64", false⟩

def single : Element := ⟨"float32", true⟩

/-- The kind of a given name. Names of fractional kinds say that a point floats; three of these
kinds also go by shorter names. -/
def ofName (name : String) : Element :=
  match name with
  | "half" => ⟨"float16", true⟩
  | "float" => single
  | "double" => ⟨"float64", true⟩
  | _ => ⟨name, "float".isPrefixOf name || "bfloat".isPrefixOf name⟩

/-- The kind that holds entries of both kinds. -/
def join (a b : Element) : Element := if a.fractional then a else if b = truth then a else b

end Element

/-- Entries lie row after row. -/
structure CellArray where
  extents : List Nat
  element : Element
  entries : List Int
  deriving DecidableEq, Repr

namespace Nested

def maxRank : Nat := 128

/-- The length of the outermost list, of its first item, and so on. -/
def extents : Nested → Except ArrayFault (List Nat)
  | list [] => .ok [0]
  | list (first :: rest) => (extents first).map fun inner => (rest.length + 1) :: inner
  | text => .error .notANumber
  | _ => .ok []

mutual
def element : Nested → Except ArrayFault Element
  | integer _ => .ok .word
  | truth _ => .ok .truth
  | fraction => .ok .single
  | text => .error .notANumber
  | absent => .error .absentEntry
  | list [] => .ok .single
  | list (first :: rest) => element first >>= fun kind => elementFrom kind rest

/-- The kind that holds entries of a kind and of further items. -/
def elementFrom (kind : Element) : List Nested → Except ArrayFault Element
  | [] => .ok kind
  | item :: rest => element item >>= fun other => elementFrom (kind.join other) rest
end

/-- A leaf as an entry of the given kind. Entries of fractional kinds are not kept. -/
def entry (kind : Element) : Nested → Except ArrayFault (List Int)
  | integer i => if !kind.fractional && !Word.fits i then .error .notAWord else .ok [i]
  | truth b => .ok [if b then 1 else 0]
  | fraction => .ok [0]
  | text => .error .notANumber
  | absent => .error .absentEntry
  | list _ => .error .mixedDepth

mutual
def entries (kind : Element) : List Nat → Nested → Except ArrayFault (List Int)
  | [], leaf => entry kind leaf
  | n :: inner, list items =>
    if items.length ≠ n then .error .ragged else entriesFrom kind inner items
  | _ :: _, _ => .error .mixedDepth

def entriesFrom (kind : Element) (inner : List Nat) : List Nested → Except ArrayFault (List Int)
  | [] => .ok []
  | item :: rest =>
    entries kind inner item >>= fun here =>
      (entriesFrom kind inner rest).map fun there => here ++ there
end

/-- The array that nested lists write, with the given kind of element or their own one. -/
def toArray (nested : Nested) (kind? : Option Element) : Except ArrayFault CellArray :=
  nested.extents >>= fun extents =>
    if maxRank < extents.length then .error .notANumber
    else
      (match kind? with
        | some kind => .ok kind
        | none => nested.element) >>= fun kind =>
        if extents.contains 0 then .ok ⟨extents, kind, []⟩
        else (nested.entries kind extents).map fun entries => ⟨extents, kind, entries⟩

end Nested

namespace CellArray

/-- How many entries an array of the given extents has. -/
def volume (extents : List Nat) : Nat := extents.foldl (· * ·) 1

/-- The extents that `total` entries fill. One extent may be left open as -1, if the others leave
no choice. -/
def settle? (total : Nat) (extents : List Int) : Option (List Nat) :=
  let known := volume ((extents.filter fun e => decide (e ≠ -1)).map Int.toNat)
  if extents.any fun e => decide (e < -1) then none
  else match extents.count (-1) with
    | 0 => if known = total then some (extents.map Int.toNat) else none
    | 1 =>
      if known ≠ 0 ∧ known ∣ total then
        some (extents.map fun e => if e = -1 then total / known else e.toNat)
      else none
    | _ => none

/-- The same entries with other extents. -/
def reshape (a : CellArray) (extents : List Int) : Except ArrayFault CellArray :=
  match settle? a.entries.length extents with
  | none => .error .extents
  | some settled => .ok { a with extents := settled }

/-- The rows of an array with `count` rows of `width` entries. -/
def rows (a : CellArray) (count width : Nat) : List (List Int) :=
  (List.range count).map fun i => (a.entries.drop (i * width)).take width

end CellArray

end MeshIncidence
