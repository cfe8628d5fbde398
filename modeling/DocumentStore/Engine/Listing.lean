import DocumentStore.Engine.Memory

/-!
Contract: what the engine in memory holds, listed in order.

Owns: the order of collections, by the parts of their addresses, and of the entries
of each, by name, both by code point; and the omission of collections without
entries.

Does not own: the state, which keeps the order of arrival.
-/

set_option autoImplicit false

namespace DocumentStore

/-- The parts of an address, the outermost first. -/
def Address.parts (address : Address) : List String :=
  [address.database, address.scope, address.collection]

namespace Memory

/-- Addresses in order, each once. -/
def inAddressOrder (addresses : List Address) : List Address :=
  (addresses.mergeSort fun left right => !decide (right.parts < left.parts)).eraseDups

/-- The entries of one collection by their names. -/
def entriesIn {α : Type} (table : Table (Address × String) α) (collection : Address) :
    Table String α :=
  (table.filter (·.1.1 = collection)).map fun entry => (entry.1.2, entry.2)

/-- Each collection that has entries, with its entries, all in order. -/
def listing {α : Type} (table : Table (Address × String) α) : List (Address × Table String α) :=
  (inAddressOrder ((Table.keys table).map Prod.fst)).map fun address =>
    (address, Table.inKeyOrder (entriesIn table address))

end Memory

end DocumentStore
