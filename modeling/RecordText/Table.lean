/-
Tables: entries in the order in which their keys were first put.

`Table.put` replaces the value of a key where it stands, or adds the key at the end; `Table.erase`
takes a key away, so that putting it again moves it to the end. The view of a table is `lookup`.
-/
namespace RecordText.Table

variable {κ α : Type} [BEq κ]

/-- Gives a key a value. -/
def put (k : κ) (a : α) : List (κ × α) → List (κ × α)
  | [] => [(k, a)]
  | (l, b) :: es => if l == k then (l, a) :: es else (l, b) :: put k a es

/-- Takes a key away. -/
def erase (k : κ) (es : List (κ × α)) : List (κ × α) := es.filter fun e => !(e.1 == k)

/-- The table that several entries make when they are put one after the other. -/
def ofList (es : List (κ × α)) : List (κ × α) := es.foldl (fun t e => put e.1 e.2 t) []

end RecordText.Table
