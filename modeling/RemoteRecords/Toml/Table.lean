import RemoteRecords.Binary64.Basic

/-!
# Tables of TOML

What a settings document holds: scalars, arrays and tables. A table remembers
how it came about, because that decides what later lines may add to it. A header
opens a table once; it may open a table that other headers only passed through.
A dotted key passes through tables that headers or keys have brought about in
passing and through the latest of tables in a row, and adds only to tables that
dotted keys made. Tables written between braces are complete.

A number may be written that is beyond the sizes in use. It is no fault of the
document, but it has no value for whoever looks at it.

* `openTable?`, `openElement?`: what a header does to the root table;
* `insert?`: what a key with its value does to a table;
* `Node.isMeasured`: whether every number in a value has a size in use;
* `eq_append_of_extend?`: a new name goes to the end of its table.
-/

namespace RemoteRecords.Toml

/-- How a table came about. -/
inductive Origin
  /-- Opened by a header of its own. -/
  | header
  /-- Passed through by a header. -/
  | passed
  /-- Passed through by a dotted key. -/
  | dotted
  /-- Written between braces. -/
  | inline
deriving DecidableEq, Repr

/-- A value of a document. -/
inductive Node
  | text (s : String)
  | integer (n : Int)
  | float (x : Binary64)
  /-- A number beyond the sizes in use. -/
  | excessive
  | boolean (b : Bool)
  /-- A date, a time, or both. -/
  | moment (spelling : List Char)
  | array (items : List Node)
  | table (origin : Origin) (members : List (String × Node))
  /-- Tables that headers add one after the other, latest first. -/
  | tables (latest : List (String × Node)) (earlier : List (List (String × Node)))

/-- The members of a table. -/
abbrev Members := List (String × Node)

/-! ## Sizes of numbers -/

mutual

/-- Whether every number in a value has a size in use. -/
def Node.isMeasured : Node → Bool
  | .excessive => false
  | .array items => areItemsMeasured items
  | .table _ members => areMeasured members
  | .tables latest earlier => areMeasured latest && areTablesMeasured earlier
  | _ => true

/-- Whether every number in the items of an array has a size in use. -/
def areItemsMeasured : List Node → Bool
  | [] => true
  | v :: rest => v.isMeasured && areItemsMeasured rest

/-- Whether every number in the members of a table has a size in use. -/
def areMeasured : List (String × Node) → Bool
  | [] => true
  | (_, v) :: rest => v.isMeasured && areMeasured rest

/-- Whether every number in tables in a row has a size in use. -/
def areTablesMeasured : List (List (String × Node)) → Bool
  | [] => true
  | members :: rest => areMeasured members && areTablesMeasured rest

end

theorem areMeasured_eq_all (members : Members) :
    areMeasured members = members.all fun m => m.2.isMeasured := by
  induction members with
  | nil => simp [areMeasured]
  | cons m rest ih => simp [areMeasured, ih]

/-! ## Changes of tables -/

/-- Replaces the value of a name that has one. -/
def assign (members : Members) (name : String) (value : Node) : Members :=
  members.map fun m => if m.1 == name then (name, value) else m

/-- Applies `f` to the table at the end of a path of a header. Tables that are
missing on the way are made; of tables in a row the latest is entered. -/
def alongHeader (f : Members → Option Members) : List String → Members → Option Members
  | [], members => f members
  | name :: path, members =>
    match members.lookup name with
    | none => (alongHeader f path []).map fun inner => members ++ [(name, .table .passed inner)]
    | some (.table .inline _) => none
    | some (.table origin inner) =>
      (alongHeader f path inner).map fun inner => assign members name (.table origin inner)
    | some (.tables latest earlier) =>
      (alongHeader f path latest).map fun latest => assign members name (.tables latest earlier)
    | some _ => none

/-- Opens a table by a header that ends in `name`. -/
def openTable? (name : String) (members : Members) : Option Members :=
  match members.lookup name with
  | none => some (members ++ [(name, .table .header [])])
  | some (.table .passed inner) => some (assign members name (.table .header inner))
  | some _ => none

/-- Adds a table to those in a row by a header that ends in `name`. -/
def openElement? (name : String) (members : Members) : Option Members :=
  match members.lookup name with
  | none => some (members ++ [(name, .tables [] [])])
  | some (.tables latest earlier) =>
    some (assign members name (.tables [] (latest :: earlier)))
  | some _ => none

/-- Adds a value under a new name. -/
def extend? (name : String) (value : Node) (members : Members) : Option Members :=
  if (members.lookup name).isSome then none else some (members ++ [(name, value)])

/-- Adds a value under a dotted key; the first parts of the key lead to its table. -/
def insert? (value : Node) : List String → String → Members → Option Members
  | [], name, members => extend? name value members
  | step :: path, name, members =>
    match members.lookup step with
    | none =>
      (insert? value path name []).map fun inner => members ++ [(step, .table .dotted inner)]
    | some (.table origin inner) =>
      if origin = .dotted ∨ (origin = .passed ∧ path ≠ []) then
        (insert? value path name inner).map fun inner => assign members step (.table origin inner)
      else none
    | some (.tables latest earlier) =>
      if path = [] then none
      else
        (insert? value path name latest).map fun latest =>
          assign members step (.tables latest earlier)
    | some _ => none

theorem eq_append_of_extend? {name : String} {value : Node} {members result : Members}
    (h : extend? name value members = some result) : result = members ++ [(name, value)] := by
  unfold extend? at h
  split at h
  · cases h
  · exact (Option.some.inj h).symm

end RemoteRecords.Toml
