/-!
# Requests

A request names an address and carries parameters: in the query string of a GET,
in the body of a POST.

* `param?_withParam`: a parameter that is added last is found only if there was
  none of its name.
-/

namespace RemoteRecords

/-- The methods in use. -/
inductive Method
  | get
  | post
deriving DecidableEq, Repr

/-- A request to the service. -/
structure Request where
  method : Method
  url : String
  params : List (String × String)
deriving DecidableEq, Repr

namespace Request

/-- A request without parameters. -/
def bare (method : Method) (url : String) : Request :=
  ⟨method, url, []⟩

/-- Adds a parameter at the end. -/
def withParam (r : Request) (name value : String) : Request :=
  { r with params := r.params ++ [(name, value)] }

/-- The value of the first parameter of a name. -/
def param? (r : Request) (name : String) : Option String :=
  r.params.lookup name

theorem param?_withParam (r : Request) (name value : String) :
    (r.withParam name value).param? name = some ((r.param? name).getD value) := by
  obtain ⟨method, url, params⟩ := r
  simp only [withParam, param?]
  induction params with
  | nil => simp
  | cons p rest ih =>
    obtain ⟨key, old⟩ := p
    by_cases h : name = key
    · simp [h]
    · have hb : (name == key) = false := by simpa using h
      simpa [List.lookup_cons, hb] using ih

end Request

end RemoteRecords
