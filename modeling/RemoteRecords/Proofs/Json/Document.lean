import RemoteRecords.Json.Value

/-!
# Documents from their tokens

The tokens of a document in their order, and the machine that puts the document
together from them. From any state that expects a value the machine reads the
tokens of a document as that document, whatever is open around it, so a text
whose tokens are those of a document is read as it, to any depth and with
repeated names kept.

* `Build.run_tokens`: the machine on the tokens of a document;
* `Tree.read_of_scan`: a text with the tokens of a document is read as it.
-/

namespace RemoteRecords.Json

namespace Tree

mutual

/-- The tokens of a document. -/
def tokens : Tree → List Token
  | word w => [.word w]
  | number spelling => [.number spelling]
  | text s => [.text s]
  | array items => .openBracket :: (itemTokens items).tail ++ [.closeBracket]
  | object members => .openBrace :: (memberTokens members).tail ++ [.closeBrace]

/-- The tokens of items, with a comma before each. -/
def itemTokens : List Tree → List Token
  | [] => []
  | t :: rest => .comma :: t.tokens ++ itemTokens rest

/-- The tokens of members, with a comma before each. -/
def memberTokens : List (String × Tree) → List Token
  | [] => []
  | (name, t) :: rest => .comma :: .text name :: .colon :: t.tokens ++ memberTokens rest

end

/-- No document starts with the end of an array. -/
theorem tokens_eq_cons (t : Tree) :
    ∃ first rest, t.tokens = first :: rest ∧ first ≠ .closeBracket := by
  cases t <;> exact ⟨_, _, rfl, by simp⟩

end Tree

namespace Build

open RemoteRecords.Json.Tree

theorem run_cons (b : Build) (t : Token) (tokens : List Token) :
    b.run (t :: tokens) = (step b t).bind fun next => next.run tokens := by
  simp [run, List.foldlM_cons]

theorem run_cons_of_step {b next : Build} {t : Token} (h : step b t = some next)
    (tokens : List Token) : b.run (t :: tokens) = next.run tokens := by
  rw [run_cons, h, Option.bind_some]

/-- The first item of an array is read as any value in it. -/
theorem run_firstItem (t : Tree) (frames : List Frame) (more : List Token) :
    run ⟨frames, .firstItem⟩ (t.tokens ++ more) =
      run ⟨.array [] :: frames, .value⟩ (t.tokens ++ more) := by
  obtain ⟨first, rest, e, h⟩ := t.tokens_eq_cons
  have hs : step ⟨frames, .firstItem⟩ first = step ⟨.array [] :: frames, .value⟩ first := by
    cases first <;> first | rfl | exact absurd rfl h
  rw [e, List.cons_append, run_cons, run_cons, hs]

mutual

/-- The tokens of a document are read as that document. -/
theorem run_tokens (frames : List Frame) (more : List Token) :
    ∀ t : Tree, run ⟨frames, .value⟩ (t.tokens ++ more) = run (complete t frames) more
  | .word _ => run_cons_of_step rfl _
  | .number _ => run_cons_of_step rfl _
  | .text _ => run_cons_of_step rfl _
  | .array [] => by
    have ho : step ⟨frames, .value⟩ .openBracket = some ⟨frames, .firstItem⟩ := rfl
    simp only [tokens, itemTokens, List.tail_nil, List.cons_append, List.nil_append]
    rw [run_cons_of_step ho, run_cons_of_step rfl]
  | .array (t :: rest) => by
    have ho : step ⟨frames, .value⟩ .openBracket = some ⟨frames, .firstItem⟩ := rfl
    simp only [tokens, itemTokens, List.tail_cons, List.cons_append, List.append_assoc,
      List.nil_append]
    rw [run_cons_of_step ho, run_firstItem, run_tokens _ _ t]
    exact run_itemTokens [t] frames more rest
  | .object [] => by
    have ho : step ⟨frames, .value⟩ .openBrace = some ⟨frames, .firstName⟩ := rfl
    simp only [tokens, memberTokens, List.tail_nil, List.cons_append, List.nil_append]
    rw [run_cons_of_step ho, run_cons_of_step rfl]
  | .object ((name, t) :: rest) => by
    have ho : step ⟨frames, .value⟩ .openBrace = some ⟨frames, .firstName⟩ := rfl
    have hn : step ⟨frames, .firstName⟩ (.text name) = some ⟨frames, .colon [] name⟩ := rfl
    have hc : step ⟨frames, .colon [] name⟩ .colon = some ⟨.object [] name :: frames, .value⟩ := rfl
    simp only [tokens, memberTokens, List.tail_cons, List.cons_append, List.append_assoc,
      List.nil_append]
    rw [run_cons_of_step ho, run_cons_of_step hn, run_cons_of_step hc, run_tokens _ _ t]
    exact run_memberTokens [(name, t)] frames more rest

/-- The items after those already read, and the end of the array. -/
theorem run_itemTokens (done : List Tree) (frames : List Frame) (more : List Token) :
    ∀ items : List Tree, run ⟨frames, .nextItem done⟩ (itemTokens items ++ .closeBracket :: more) =
      run (complete (.array (done.reverse ++ items)) frames) more
  | [] => by
    rw [List.append_nil]
    exact run_cons_of_step rfl _
  | t :: rest => by
    have hc : step ⟨frames, .nextItem done⟩ .comma = some ⟨.array done :: frames, .value⟩ := rfl
    simp only [itemTokens, List.cons_append, List.append_assoc]
    rw [run_cons_of_step hc, run_tokens _ _ t]
    exact (run_itemTokens (t :: done) frames more rest).trans (by simp)

/-- The members after those already read, and the end of the object. -/
theorem run_memberTokens (done : List (String × Tree)) (frames : List Frame) (more : List Token) :
    ∀ members : List (String × Tree),
      run ⟨frames, .nextMember done⟩ (memberTokens members ++ .closeBrace :: more) =
        run (complete (.object (done.reverse ++ members)) frames) more
  | [] => by
    rw [List.append_nil]
    exact run_cons_of_step rfl _
  | (name, t) :: rest => by
    have hc : step ⟨frames, .nextMember done⟩ .comma = some ⟨frames, .name done⟩ := rfl
    have hn : step ⟨frames, .name done⟩ (.text name) = some ⟨frames, .colon done name⟩ := rfl
    have hv : step ⟨frames, .colon done name⟩ .colon =
      some ⟨.object done name :: frames, .value⟩ := rfl
    simp only [memberTokens, List.cons_append, List.append_assoc]
    rw [run_cons_of_step hc, run_cons_of_step hn, run_cons_of_step hv, run_tokens _ _ t]
    exact (run_memberTokens ((name, t) :: done) frames more rest).trans (by simp)

end

end Build

namespace Tree

theorem ofTokens_tokens (t : Tree) : ofTokens t.tokens = some t := by
  have := Build.run_tokens [] [] t
  rw [List.append_nil] at this
  rw [ofTokens, this]
  rfl

/-- A text with the tokens of a document is read as it. -/
theorem read_of_scan {s : List Char} {t : Tree} (h : scan s = some t.tokens) :
    read s = some t := by
  rw [read, h, Option.bind_some, ofTokens_tokens]

end Tree

end RemoteRecords.Json
