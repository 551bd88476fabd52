import RemoteRecords.Service.Fault
import RemoteRecords.Settings.Basic
import RemoteRecords.Toml.Document

/-!
# Settings documents

Settings may be written as a TOML document. Names that settings do not have are
passed over, and settings that are not written keep their standard value. The
templates may be written as a table, or as an array in their order.

A number beyond the sizes in use is a fault, also under a name that is passed
over. Only what an array holds beyond the templates is not looked at.

* `ofMembers?_insert`: a name that settings do not have changes nothing, wherever it stands.
-/

namespace RemoteRecords.Settings

/-- A string. -/
def textOf? : Toml.Node → Option String
  | .text s => some s
  | _ => none

/-- A number of seconds. -/
def secondsOf? : Toml.Node → Option UInt64
  | .integer n => if 0 ≤ n ∧ n < UInt64.size then some (UInt64.ofNat n.toNat) else none
  | _ => none

/-- The value of a name, read by `read?`; the standard value without the name. -/
def memberOr {α : Type} (standard : α) (read? : Toml.Node → Option α) (name : String)
    (members : Toml.Members) : Option α :=
  match members.lookup name with
  | none => some standard
  | some v => read? v

/-- Reads the templates that a table holds under their names. -/
def templatesOfTable? (members : Toml.Members) : Option Templates :=
  Endpoint.all.foldlM (fun t e => (memberOr (t.get e) textOf? e.key members).map (t.set e))
    .standard

/-- Reads the templates that an array holds in their order; there may be fewer,
and what goes beyond them is passed over. -/
def templatesOfArray? (items : List Toml.Node) : Option Templates :=
  (Endpoint.all.zip items).foldlM (fun t p => (textOf? p.2).map (t.set p.1)) .standard

/-- Reads templates. A date counts as a table without any. -/
def templatesOf? : Toml.Node → Option Templates
  | .table _ members => if Toml.areMeasured members then templatesOfTable? members else none
  | .array items => templatesOfArray? items
  | .moment _ => some .standard
  | _ => none

/-- Whether every number has a size in use, but for those among the templates. -/
def areOthersMeasured (members : Toml.Members) : Bool :=
  members.all fun m => m.1 == "endpoints" || m.2.isMeasured

/-- Reads settings from the root table of a document. -/
def ofMembers? (members : Toml.Members) : Option Settings := do
  guard (areOthersMeasured members)
  let url ← memberOr standard.url textOf? "url" members
  let version ← memberOr standard.version textOf? "version" members
  let timeout ← memberOr standard.timeout secondsOf? "connect_timeout_secs" members
  let templates ← memberOr standard.templates templatesOf? "endpoints" members
  return ⟨url, version, timeout, templates⟩

/-- Reads settings from the text of a document. -/
def ofDocument (s : String) : Except Fault Settings :=
  match (Toml.read s.toList).bind ofMembers? with
  | some settings => .ok settings
  | none => .error .document

theorem memberOr_insert {α : Type} (standard : α) (read? : Toml.Node → Option α)
    {name other : String} (h : other ≠ name) (value : Toml.Node) (front back : Toml.Members) :
    memberOr standard read? name (front ++ (other, value) :: back) =
      memberOr standard read? name (front ++ back) := by
  have hne : (name == other) = false := beq_eq_false_iff_ne.mpr h.symm
  have hlookup : (front ++ (other, value) :: back).lookup name = (front ++ back).lookup name := by
    rw [List.lookup_append, List.lookup_append, List.lookup_cons, hne]
  rw [memberOr, memberOr, hlookup]

/-- The names of settings. -/
def names : List String :=
  ["url", "version", "connect_timeout_secs", "endpoints"]

theorem ofMembers?_insert {name : String} (hn : name ∉ names) {value : Toml.Node}
    (hv : value.isMeasured = true) (front back : Toml.Members) :
    ofMembers? (front ++ (name, value) :: back) = ofMembers? (front ++ back) := by
  have hmeasured : areOthersMeasured (front ++ (name, value) :: back) =
      areOthersMeasured (front ++ back) := by
    simp [areOthersMeasured, hv]
  simp only [names, List.mem_cons, List.not_mem_nil, or_false, not_or] at hn
  obtain ⟨hurl, hversion, htimeout, hendpoints⟩ := hn
  rw [ofMembers?, ofMembers?, hmeasured, memberOr_insert _ _ hurl, memberOr_insert _ _ hversion,
    memberOr_insert _ _ htimeout, memberOr_insert _ _ hendpoints]

end RemoteRecords.Settings
