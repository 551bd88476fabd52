import RemoteRecords.Record.FieldValue
import RemoteRecords.Service.Fault

/-!
# Pages of records

An answer to a query holds one page: how many records match in all, how many are
in the page, and the records. Items that are no objects are passed over.

* `Page.read`: the page in a body; the first member that is missing or of a
  wrong type decides the fault;
* `Page.body`: the body that holds a page.
-/

namespace RemoteRecords

/-- One page of the records that match a query. -/
structure Page where
  total : Int64
  size : Int64
  records : List Record

namespace Page

/-- Whether the page says that it is empty. -/
def isExhausted (p : Page) : Bool :=
  p.size == 0

/-- A member that has to be there. -/
def required (name : String) (v : Json) : Except Fault Json :=
  match v.get? name with
  | some member => .ok member
  | none => .error (.missingField name)

/-- A member that has to be there and of the type that `cast?` reads. -/
def requiredAs {α : Type} (cast? : Json → Option α) (name : String) (v : Json) : Except Fault α :=
  match (v.get? name).bind cast? with
  | some a => .ok a
  | none => .error (.missingField name)

/-- The records among the items of a page. -/
def recordsOf (items : List Json) : List Record :=
  items.filterMap fun item => item.members?.map Record.ofPageItem

/-- The page in a decoded answer. -/
def ofJson (answer : Json) : Except Fault Page := do
  let data ← required "records" answer
  let total ← requiredAs Json.int64? "total" data
  let size ← requiredAs Json.int64? "size" data
  let items ← requiredAs Json.items? "records" data
  return ⟨total, size, recordsOf items⟩

/-- The page in the body of an answer. -/
def read (body : String) : Except Fault Page :=
  match Json.read body.toList with
  | some answer => ofJson answer
  | none => .error .malformed

/-- An unsigned integer as a number of JSON. -/
def natural (n : UInt64) : Json :=
  .number (.integer n.toNat
    ⟨by have := Int64.toInt_minValue_lt_zero; omega, by have := n.toNat_lt_size; omega⟩)

/-- The answer that holds a page with the given items. -/
def answer (total : UInt64) (items : List Json) : Json :=
  .object [("status", natural 200),
    ("records", .object [("total", natural total), ("size", natural (UInt64.ofNat items.length)),
      ("records", .array items)])]

/-- The body of that answer. -/
def body (total : UInt64) (items : List Json) : String :=
  String.ofList (answer total items).compact

end Page

end RemoteRecords
