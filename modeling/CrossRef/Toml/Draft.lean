import CrossRef.Toml.Basic

/-!
Tables while a document is read. How a table came to be decides what may still be added to it: a
header opens a table once, dotted keys extend only tables that dotted keys or longer headers made, and
a value is closed.
-/
namespace CrossRef
namespace Toml

/-- How a table came to be. -/
inductive TableOrigin
  | header
  /-- A longer header goes through it. -/
  | implied
  | dottedKey
  deriving DecidableEq, Repr, Inhabited

/-- What a key stands for so far. -/
inductive Draft
  | closed (value : Toml)
  | table (origin : TableOrigin) (members : List (String × Draft))
  /-- Tables under the same header, with the last one apart. -/
  | tables (earlier : List (List (String × Draft))) (last : List (String × Draft))
  deriving Inhabited

namespace Draft

abbrev Members := List (String × Draft)

/-- Change what a key stands for. -/
def replace (key : String) (draft : Draft) (members : Members) : Members :=
  members.map fun (name, old) => (name, if name = key then draft else old)

/-- Add a key that is new. -/
def add? (key : String) (draft : Draft) (members : Members) : Option Members :=
  if (members.lookup key).isSome then none else some (members ++ [(key, draft)])

/-- Change the table that headers reach under a path. Missing tables on the way are implied. -/
def reach? (change : Members → Option Members) : List String → Members → Option Members
  | [], members => change members
  | key :: path, members =>
    match members.lookup key with
    | none => (reach? change path []).bind fun sub => add? key (.table .implied sub) members
    | some (.table origin sub) =>
      (reach? change path sub).map fun sub => replace key (.table origin sub) members
    | some (.tables earlier last) =>
      (reach? change path last).map fun last => replace key (.tables earlier last) members
    | some (.closed _) => none

/-- Open a table with a header. -/
def openTable? (key : String) (members : Members) : Option Members :=
  match members.lookup key with
  | none => add? key (.table .header []) members
  | some (.table .implied sub) => some (replace key (.table .header sub) members)
  | _ => none

/-- Open one more table under the same header. -/
def openNext? (key : String) (members : Members) : Option Members :=
  match members.lookup key with
  | none => add? key (.tables [] []) members
  | some (.tables earlier last) => some (replace key (.tables (earlier ++ [last]) []) members)
  | _ => none

/-- Give a value to a key, where the path is the part of a dotted key before it. -/
def assign? (value : Toml) (key : String) : List String → Members → Option Members
  | [], members => add? key (.closed value) members
  | name :: path, members =>
    let isLast := path.isEmpty
    match members.lookup name with
    | none =>
      (assign? value key path []).bind fun sub => add? name (.table .dottedKey sub) members
    | some (.table .dottedKey sub) =>
      (assign? value key path sub).map fun sub => replace name (.table .dottedKey sub) members
    | some (.table .implied sub) =>
      if isLast then none
      else (assign? value key path sub).map fun sub => replace name (.table .implied sub) members
    | some (.tables earlier last) =>
      if isLast then none
      else (assign? value key path last).map fun last => replace name (.tables earlier last) members
    | _ => none

mutual

/-- The value of a draft. -/
def toValue : Draft → Toml
  | .closed value => value
  | .table _ members => .table (toMembers members)
  | .tables earlier last => .array (toTables earlier ++ [.table (toMembers last)])

def toMembers : List (String × Draft) → List (String × Toml)
  | [] => []
  | (key, draft) :: rest => (key, toValue draft) :: toMembers rest

def toTables : List (List (String × Draft)) → List Toml
  | [] => []
  | members :: rest => .table (toMembers members) :: toTables rest

end

end Draft

/-- A key as it is written: the names before the last dot, and the last name. -/
structure KeyPath where
  path : List String
  key : String
  deriving DecidableEq, Repr, Inhabited

/-- A line of a document. -/
inductive Statement
  | header (key : KeyPath)
  | nextHeader (key : KeyPath)
  | assignment (key : KeyPath) (value : Toml)
  deriving Inhabited

/-- Take the lines of a document one by one. `here` is the path of the last header. -/
def assemble? : (here : List String) → List Statement → Draft.Members → Option Draft.Members
  | _, [], members => some members
  | _, .header k :: rest, members =>
    (Draft.reach? (Draft.openTable? k.key) k.path members).bind
      (assemble? (k.path ++ [k.key]) rest)
  | _, .nextHeader k :: rest, members =>
    (Draft.reach? (Draft.openNext? k.key) k.path members).bind
      (assemble? (k.path ++ [k.key]) rest)
  | here, .assignment k value :: rest, members =>
    (Draft.reach? (Draft.assign? value k.key k.path) here members).bind (assemble? here rest)

/-- The table that the lines of a document stand for. -/
def ofStatements? (lines : List Statement) : Option Toml :=
  (assemble? [] lines []).map fun members => .table (Draft.toMembers members)

end Toml
end CrossRef
