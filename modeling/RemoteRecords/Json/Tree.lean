import RemoteRecords.Json.Token

/-!
# Documents of JSON as they are written

A document keeps what its text says: the members of an object in their order,
repeated names included, and the spelling of numbers. A second machine puts it
together from the tokens; the arrays and objects that are open stand on a stack,
so documents may nest to any depth.

* `Build.run_append`: the machine reads tokens in two parts as it reads all;
* `Tree.read`: the document of a text;
* `Tree.depth`: how deep arrays and objects nest.
-/

namespace RemoteRecords.Json

/-- A document as it is written. -/
inductive Tree
  | word (w : Word)
  | number (spelling : List Char)
  | text (s : String)
  | array (items : List Tree)
  | object (members : List (String × Tree))

namespace Tree

mutual

/-- How many arrays and objects stand in one another. -/
def depth : Tree → Nat
  | array items => depthItems items + 1
  | object members => depthMembers members + 1
  | _ => 0

/-- The depth of the deepest item. -/
def depthItems : List Tree → Nat
  | [] => 0
  | t :: rest => max t.depth (depthItems rest)

/-- The depth of the deepest member. -/
def depthMembers : List (String × Tree) → Nat
  | [] => 0
  | (_, t) :: rest => max t.depth (depthMembers rest)

end

end Tree

/-- An array or object that is open while one of its values is read. What it
holds is in reverse. -/
inductive Frame
  | array (items : List Tree)
  | object (members : List (String × Tree)) (name : String)

/-- What may follow the tokens read. -/
inductive Expect
  | value
  /-- The first item of an array, or its end. -/
  | firstItem
  /-- A comma after an item, or the end of the array. -/
  | nextItem (items : List Tree)
  /-- The first name of an object, or its end. -/
  | firstName
  /-- A name of a further member. -/
  | name (members : List (String × Tree))
  | colon (members : List (String × Tree)) (name : String)
  /-- A comma after a member, or the end of the object. -/
  | nextMember (members : List (String × Tree))
  /-- The end of the text. -/
  | nothing (document : Tree)

/-- The open arrays and objects, innermost first, and what may follow. -/
structure Build where
  frames : List Frame
  expect : Expect

namespace Build

/-- Puts a complete value where it belongs. -/
def complete (t : Tree) : List Frame → Build
  | [] => ⟨[], .nothing t⟩
  | .array items :: frames => ⟨frames, .nextItem (t :: items)⟩
  | .object members name :: frames => ⟨frames, .nextMember ((name, t) :: members)⟩

/-- Reads the first token of a value. -/
def value (frames : List Frame) : Token → Option Build
  | .word w => some (complete (.word w) frames)
  | .number spelling => some (complete (.number spelling) frames)
  | .text s => some (complete (.text s) frames)
  | .openBracket => some ⟨frames, .firstItem⟩
  | .openBrace => some ⟨frames, .firstName⟩
  | _ => none

/-- Reads one token. -/
def step (b : Build) (token : Token) : Option Build :=
  match b.expect, token with
  | .value, t => value b.frames t
  | .firstItem, .closeBracket => some (complete (.array []) b.frames)
  | .firstItem, t => value (.array [] :: b.frames) t
  | .nextItem items, .comma => some ⟨.array items :: b.frames, .value⟩
  | .nextItem items, .closeBracket => some (complete (.array items.reverse) b.frames)
  | .firstName, .closeBrace => some (complete (.object []) b.frames)
  | .firstName, .text s => some ⟨b.frames, .colon [] s⟩
  | .name members, .text s => some ⟨b.frames, .colon members s⟩
  | .colon members name, .colon => some ⟨.object members name :: b.frames, .value⟩
  | .nextMember members, .comma => some ⟨b.frames, .name members⟩
  | .nextMember members, .closeBrace => some (complete (.object members.reverse) b.frames)
  | _, _ => none

/-- Reads tokens one after the other. -/
def run (b : Build) (tokens : List Token) : Option Build :=
  tokens.foldlM step b

theorem run_append (b : Build) (s t : List Token) :
    b.run (s ++ t) = (b.run s).bind fun next => next.run t := by
  simp [run, List.foldlM_append]

end Build

/-- The document that tokens make up. -/
def Tree.ofTokens (tokens : List Token) : Option Tree :=
  match Build.run ⟨[], .value⟩ tokens with
  | some ⟨_, .nothing document⟩ => some document
  | _ => none

/-- The document of a text. -/
def Tree.read (s : List Char) : Option Tree :=
  (scan s).bind Tree.ofTokens

end RemoteRecords.Json
