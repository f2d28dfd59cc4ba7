import ProfileAdmin.Document.Value

/-!
# Toml.Tree — the tables of a TOML document while it is read

1. **Nodes**: finished values, tables that can still grow, and lists of tables.
2. **Descent** to the table at a path. Tables on the way that are not there come into
   being.
3. **Statements**: opening a table, opening one more table of a list, and putting a
   value into the open table.
4. **The document** that the tables denote.

Every table is opened once, and no value is put twice. A statement that would do so is
refused.
-/

namespace ProfileAdmin.Toml

open Document (Value)

/-! ## Nodes -/

/-- How a table came into being. -/
inductive Origin where
  /-- By a header of its own. -/
  | opened
  /-- On the way to a table below. -/
  | implied
  /-- By a key with dots. -/
  | dotted
  deriving DecidableEq, Repr

/-- What stands under a key. -/
inductive Node where
  | value (v : Value)
  | table (origin : Origin) (members : List (String × Node))
  | tables (items : List (List (String × Node)))
  deriving Inhabited

/-- The members of a table, in the order in which they came. -/
abbrev Members : Type := List (String × Node)

/-- Changes what stands under a key, whether there is something or not. A new key comes
last. -/
def Members.alter? (key : String) (change : Option Node → Option Node) : Members → Option Members
  | [] => do return [(key, ← change none)]
  | (k, node) :: others =>
    if k = key then do return (k, ← change (some node)) :: others
    else do return (k, node) :: (← Members.alter? key change others)

/-- What stands under a key. -/
def Members.get? (key : String) (ms : Members) : Option Node :=
  ms.lookup key

/-- Leaves out a key. -/
def Members.erase (key : String) (ms : Members) : Members :=
  ms.filter (fun m => m.1 != key)

/-! ## Descent -/

/-- How a path is written. -/
inductive Way where
  /-- As a header, which leads through every table. -/
  | header
  /-- As a key with dots, which leads through no table that was opened. -/
  | key
  deriving DecidableEq, Repr

/-- The origin of a table that is missing on a way. -/
def Way.origin : Way → Origin
  | .header => .implied
  | .key => .dotted

/-- Changes the table at the end of a path. A list of tables leads to its last one, and
no way leads through a value. -/
def Members.within? (way : Way) (change : Origin → Members → Option Members) :
    List String → Origin → Members → Option Members
  | [], origin, ms => change origin ms
  | key :: path, _, ms =>
    Members.alter? key (fun
      | none => do
        return .table way.origin (← Members.within? way change path way.origin [])
      | some (.value _) => none
      | some (.table origin inner) =>
        if way = .key ∧ origin = .opened then none
        else do return .table origin (← Members.within? way change path origin inner)
      | some (.tables items) => do
        let inner ← items.getLast?
        return .tables (items.dropLast ++ [← Members.within? way change path .opened inner]))
      ms

/-! ## Statements -/

/-- A table that is opened under a key. One that was only implied so far keeps its members
and moves to the end. -/
def Members.openTable? (key : String) (ms : Members) : Option Members :=
  match Members.get? key ms with
  | none => some (ms ++ [(key, .table .opened [])])
  | some (.table .implied inner) => some (Members.erase key ms ++ [(key, .table .opened inner)])
  | some _ => none

/-- One more table of the list under a key. -/
def Members.openItem? (key : String) : Members → Option Members :=
  Members.alter? key fun
    | none => some (.tables [[]])
    | some (.tables items) => some (.tables (items ++ [[]]))
    | some _ => none

/-- A value under a key that is new. -/
def Members.put? (key : String) (v : Value) : Members → Option Members :=
  Members.alter? key fun
    | none => some (.value v)
    | some _ => none

/-- A value under a key with dots. What stands before the last dot names a table that
has only come into being by such keys. -/
def Members.putAt? (path : List String) (key : String) (v : Value) (ms : Members) :
    Option Members :=
  let put (origin : Origin) (inner : Members) : Option Members :=
    if path.isEmpty || origin = .dotted then Members.put? key v inner else none
  Members.within? .key put path .opened ms

/-! ## The document -/

mutual

/-- The value of a node. -/
def Node.toValue : Node → Value
  | .value v => v
  | .table _ members => .table (valuesOf members)
  | .tables items => .list (tablesOf items)

/-- The values of members. -/
def valuesOf : List (String × Node) → List (String × Value)
  | [] => []
  | (key, node) :: others => (key, node.toValue) :: valuesOf others

/-- The values of the tables of a list. -/
def tablesOf : List (List (String × Node)) → List Value
  | [] => []
  | members :: others => .table (valuesOf members) :: tablesOf others

end

end ProfileAdmin.Toml
