import Regen.Stage

/-!
# The tables of a pass

The tables of a pass are kept by stage identity, each with the name of its stage, in the order in
which the stages were first stored.
-/

namespace Regen

/-- The tables of the stages that a pass evaluated. -/
structure PassTables where
  entries : List (StageInfo × Table Value)
  deriving DecidableEq

namespace PassTables

def empty : PassTables :=
  ⟨[]⟩

instance : Inhabited PassTables := ⟨empty⟩

def size (tables : PassTables) : Nat :=
  tables.entries.length

def find? (tables : PassTables) (id : StageId) : Option (Table Value) :=
  (tables.entries.find? (·.1.id == id)).map (·.2)

def contains (tables : PassTables) (id : StageId) : Bool :=
  (tables.find? id).isSome

/-- Put a table under a stage of a list of entries, at the place of the old one if there is
one. -/
def insertEntry (info : StageInfo) (table : Table Value) :
    List (StageInfo × Table Value) → List (StageInfo × Table Value)
  | [] => [(info, table)]
  | entry :: rest =>
    if entry.1.id == info.id then (info, table) :: rest
    else entry :: insertEntry info table rest

def insert (tables : PassTables) (info : StageInfo) (table : Table Value) : PassTables :=
  ⟨insertEntry info table tables.entries⟩

def compact (tables : PassTables) : PassTables :=
  ⟨tables.entries.map fun (info, table) => (info, table.compact)⟩

end PassTables

end Regen
