import RemoteRecords.Settings.Basic
import RemoteRecords.Text.Blank
import RemoteRecords.Text.Percent
import RemoteRecords.Text.Replace

/-!
# Addresses of endpoints

An address is the base without the slashes at its end, followed by the template
of the endpoint with its placeholders filled in one after the other: the keys of
the account in percent-encoding first, then the values of the call as they are.

* `fill_append`: placeholders are filled in one after the other, so a value that
  holds a later placeholder has it filled in as well.
-/

namespace RemoteRecords

/-- The name of a placeholder and the text that takes its place. -/
abbrev Slot := String × List Char

/-- The placeholder of a name. -/
def placeholder (name : String) : List Char :=
  '\x7b' :: name.toList ++ ['\x7d']

/-- Fills in slots one after the other; each looks at the whole path. -/
def fill (slots : List Slot) (path : List Char) : List Char :=
  slots.foldl (fun path v => Text.replace (placeholder v.1) v.2 path) path

/-- The keys of an account as slots, in percent-encoding. -/
def Credentials.slots (c : Credentials) : List Slot :=
  [("csk", Text.Percent.encode c.csk.toList), ("aci", Text.Percent.encode c.aci.toList)]

namespace Settings

/-- The base address without the slashes at its end. -/
def base (s : Settings) : List Char :=
  Text.dropEndWhile (· == '/') s.url.toList

/-- The address of an endpoint. -/
def address (s : Settings) (e : Endpoint) (c : Credentials) (slots : List Slot) : String :=
  String.ofList (s.base ++ fill (c.slots ++ slots) (s.templates.get e).toList)

end Settings

@[simp]
theorem fill_nil (path : List Char) : fill [] path = path := rfl

theorem fill_append (front back : List Slot) (path : List Char) :
    fill (front ++ back) path = fill back (fill front path) := by
  simp [fill]

end RemoteRecords
