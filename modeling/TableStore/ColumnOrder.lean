import TableStore.Uuid

/-!
# Orders of columns

The columns of a table stand in an order; the index of a column is its position there. A change to
the order is computed as a whole: `place` puts one column at a position, `reorder` brings the named
columns to the front.
-/

namespace TableStore

/-- The columns of a table, first to last. -/
abbrev ColumnOrder := List Uuid

namespace ColumnOrder

/-- Where a column lands that is asked for `desired` among `count` others: past the end, or without
a wish, it is the end. -/
def clampPosition (desired : Option Nat) (count : Nat) : Nat :=
  match desired with
  | some position => min position count
  | none => count

/-- The order without a column. -/
def without (order : ColumnOrder) (column : Uuid) : ColumnOrder :=
  order.filter (· != column)

/-- The order with a column at the wished position, taken out of its old one first. -/
def place (order : ColumnOrder) (column : Uuid) (desired : Option Nat) : ColumnOrder :=
  let others := without order column
  others.insertIdx (clampPosition desired others.length) column

/-- The members of a list without those that came before in it. -/
def firstOccurrences : List Uuid → List Uuid
  | [] => []
  | column :: rest => column :: (firstOccurrences rest).filter (· != column)

/-- The named columns first, each once and as they are named, then the others as they were. Names of
columns that are not in the order are ignored. -/
def reorder (order : ColumnOrder) (requested : List Uuid) : ColumnOrder :=
  let named := firstOccurrences (requested.filter fun c => order.contains c)
  named ++ order.filter fun c => !named.contains c

end ColumnOrder
end TableStore
