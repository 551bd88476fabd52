import RemoteRecords.Proofs.Query.Literal
import RemoteRecords.Proofs.Query.Flat

/-!
# Telling the kinds of nodes apart

The members of a filter share their beginnings: a field may be named like an
operator, and some kinds differ in a blank only. Still the first few marks after
the name, and the name behind them, tell of which kind a node is, as long as no
string holds a quote.

* `Shape.of`: the kind of the node that a text starts with;
* `Flat.shape_of_render`: it is the kind of the node that was written.
-/

namespace RemoteRecords

/-- The kind of a test. -/
inductive TestKind
  | compare (op : Comparison)
  | between
  | among (negated : Bool)
  | like (negated : Bool)
  | absent (negated : Bool)
deriving DecidableEq

namespace Test

/-- The kind of a test. -/
def kind : Test → TestKind
  | compare op _ => .compare op
  | between .. => .between
  | among negated _ => .among negated
  | like negated _ => .like negated
  | absent negated => .absent negated

/-- The values in a test. -/
def operands : Test → List Operand
  | compare _ value => [value]
  | between low high => [low, high]
  | among _ values => values
  | like _ pattern => [.text pattern]
  | absent _ => []

end Test

/-- The kind of a node. -/
inductive Shape
  | test (k : TestKind)
  | any
  | all
  | check
  | join
  | ordering
  | grouping

namespace Shape

/-- The string that a text starts with. -/
def firstQuoted (s : List Char) : List Char :=
  s.tail.takeWhile (· != '"')

/-- What stands behind the string that a text starts with. -/
def behindQuoted (s : List Char) : List Char :=
  (s.tail.dropWhile (· != '"')).tail

/-- The kind of a comparison with blanks around its colon. -/
def ofWide (operator : List Char) : Shape :=
  .test (.compare (if operator = "$gte".toList then .atLeast else .atMost))

/-- The kind of a node with a blank after its brace. -/
def ofNarrow (operator : List Char) : Shape :=
  if operator = "$gt".toList then .test (.compare .above)
  else if operator = "$lt".toList then .test (.compare .below)
  else if operator = "$between".toList then .test .between
  else if operator = "$like".toList then .test (.like false)
  else if operator = "$nlike".toList then .test (.like true)
  else .check

/-- The kind of a group of nodes, by its name. -/
def ofGroup (name : List Char) : Shape :=
  if name = "$or".toList then .any else .all

/-- The kind of a node with the given name and, right after its brace, a string
and the given text. The string may be the name of the first node of a group. -/
def ofTightNamed (name inner : List Char) : List Char → Shape
  | ':' :: ' ' :: '[' :: _ =>
    if inner = "groupBy".toList then ofGroup name else .test (.among (inner != "$in".toList))
  | ':' :: ' ' :: '"' :: _ =>
    if inner = "order".toList then ofGroup name else .test (.absent (inner != "$null".toList))
  | _ => ofGroup name

/-- The kind of a node with the given name and the given text right after its brace. -/
def ofTight (name : List Char) : List Char → Shape
  | '"' :: s => ofTightNamed name (firstQuoted ('"' :: s)) (behindQuoted ('"' :: s))
  | _ => ofGroup name

/-- The kind of a node with the given name and the given text behind it. -/
def ofNamed (name : List Char) : List Char → Shape
  | ' ' :: ':' :: ' ' :: '\x7b' :: '"' :: _ => .test (.compare .notEqual)
  | ' ' :: ':' :: ' ' :: '\x7b' :: s => ofWide (firstQuoted s.tail)
  | ' ' :: _ => .test (.compare .equal)
  | ':' :: ' ' :: '\x7b' :: ' ' :: s => ofNarrow (firstQuoted s)
  | ':' :: ' ' :: '\x7b' :: s => ofTight name s
  | ':' :: ' ' :: '[' :: _ => .grouping
  | _ => .ordering

/-- The kind of the node that a text starts with. -/
def of : List Char → Shape
  | '\x7b' :: _ => .join
  | s => ofNamed (firstQuoted s) (behindQuoted s)

variable {name : String} (h : IsQuoteFree name) (s : List Char)
include h

theorem takeWhile_quoted (s : List Char) :
    (name.toList ++ '"' :: s).takeWhile (· != '"') = name.toList := by
  rw [List.takeWhile_append_of_pos]
  · simp
  · intro c hc
    rw [bne_iff_ne]
    rintro rfl
    exact h hc

theorem dropWhile_quoted (s : List Char) :
    (name.toList ++ '"' :: s).dropWhile (· != '"') = '"' :: s := by
  rw [List.dropWhile_append_of_pos]
  · simp
  · intro c hc
    rw [bne_iff_ne]
    rintro rfl
    exact h hc

theorem firstQuoted_quoted : firstQuoted (Fragment.quoted name ++ s) = name.toList := by
  simp only [firstQuoted, Fragment.quoted, List.cons_append, List.append_assoc, List.nil_append,
    List.tail_cons, takeWhile_quoted h]

theorem behindQuoted_quoted : behindQuoted (Fragment.quoted name ++ s) = s := by
  simp only [behindQuoted, Fragment.quoted, List.cons_append, List.append_assoc, List.nil_append,
    List.tail_cons, dropWhile_quoted h]

theorem of_quoted : of (Fragment.quoted name ++ s) = ofNamed name.toList s := by
  have hof : of (Fragment.quoted name ++ s) =
      ofNamed (firstQuoted (Fragment.quoted name ++ s)) (behindQuoted (Fragment.quoted name ++ s)) :=
    rfl
  rw [hof, firstQuoted_quoted h, behindQuoted_quoted h]

theorem ofTight_quoted (group : List Char) :
    ofTight group (Fragment.quoted name ++ s) = ofTightNamed group name.toList s := by
  have hof : ofTight group (Fragment.quoted name ++ s) = ofTightNamed group
      (firstQuoted (Fragment.quoted name ++ s)) (behindQuoted (Fragment.quoted name ++ s)) := rfl
  rw [hof, firstQuoted_quoted h, behindQuoted_quoted h]

end Shape

/-! ## Kinds of what is written -/

section Written

variable {field operator : String} (hf : IsQuoteFree field) (ho : IsQuoteFree operator)
  (gap value r : List Char)

/-- A value does not start like an object. -/
theorem Shape.ofNamed_value (name : List Char) (v : Operand) (r : List Char) :
    ofNamed name (" : ".toList ++ (v.render ++ r)) = .test (.compare .equal) := by
  obtain ⟨c, rest, e, hc⟩ := v.render_eq_cons
  have hne : c ≠ '\x7b' := by
    rintro rfl
    split at hc
    · cases hc
    · cases hc
  rw [e]
  show ofNamed name (' ' :: ':' :: ' ' :: c :: (rest ++ r)) = _
  unfold ofNamed
  split <;> simp_all

include hf in
theorem Shape.of_value (v : Operand) (r : List Char) :
    of (Fragment.quoted field ++ " : ".toList ++ v.render ++ r) = .test (.compare .equal) := by
  rw [List.append_assoc, List.append_assoc, of_quoted hf, ofNamed_value]

include hf ho

theorem Shape.of_wide :
    of (Fragment.quoted field ++ " : ".toList ++ operatorObject operator gap value ++ r) =
      ofWide operator.toList := by
  unfold operatorObject
  simp only [List.append_assoc]
  rw [of_quoted hf]
  show ofWide (firstQuoted (Fragment.quoted operator ++ _)) = _
  rw [firstQuoted_quoted ho]

theorem Shape.of_narrow :
    of (Fragment.quoted field ++ ": ".toList ++ operatorObject operator gap value ++ r) =
      ofNarrow operator.toList := by
  unfold operatorObject
  simp only [List.append_assoc]
  rw [of_quoted hf]
  show ofNarrow (firstQuoted (Fragment.quoted operator ++ _)) = _
  rw [firstQuoted_quoted ho]

theorem Shape.of_tight (s : List Char) :
    of (Fragment.quoted field ++ (": \x7b".toList ++ (Fragment.quoted operator ++ s))) =
      ofTightNamed field.toList operator.toList s := by
  rw [of_quoted hf]
  show ofTight field.toList (Fragment.quoted operator ++ s) = _
  rw [ofTight_quoted ho]

end Written

/-! ## Tests -/

namespace Test

variable {field : String} (hf : IsQuoteFree field) (t : Test) (r : List Char)
include hf

/-- The text of a test tells its kind. -/
theorem shape_of_render : Shape.of (t.render field ++ r) = .test t.kind := by
  cases t with
  | compare op value =>
    cases op with
    | equal => exact Shape.of_value hf value r
    | notEqual => rfl
    | atLeast => exact Shape.of_wide hf (by decide) _ _ r
    | atMost => exact Shape.of_wide hf (by decide) _ _ r
    | above => exact Shape.of_narrow hf (by decide) _ _ r
    | below => exact Shape.of_narrow hf (by decide) _ _ r
  | between low high =>
    show Shape.of (Fragment.quoted field ++ ": \x7b \"$between\": [".toList ++ low.render ++
      ',' :: high.render ++ "]\x7d".toList ++ r) = _
    simp only [List.append_assoc]
    rw [Shape.of_quoted hf]
    rfl
  | among negated values =>
    have ho : IsQuoteFree (if negated then "$nin" else "$in") := by cases negated <;> decide
    unfold render
    simp only [List.append_assoc]
    rw [Shape.of_tight hf ho]
    cases negated <;> rfl
  | like negated pattern =>
    have ho : IsQuoteFree (if negated then "$nlike" else "$like") := by cases negated <;> decide
    refine (Shape.of_narrow hf ho _ _ r).trans ?_
    cases negated <;> rfl
  | absent negated =>
    have ho : IsQuoteFree (if negated then "$notNull" else "$null") := by cases negated <;> decide
    unfold render
    simp only [List.append_assoc]
    rw [Shape.of_tight hf ho]
    cases negated <;> rfl

/-- A test as the first node of a group is taken for no operator of the group. -/
theorem ofTight_render (group : List Char) :
    Shape.ofTight group (t.render field ++ r) = Shape.ofGroup group := by
  cases t with
  | compare op value =>
    cases op with
    | notEqual => rfl
    | _ =>
      show Shape.ofTight group (Fragment.quoted field ++ _ ++ _ ++ r) = _
      simp only [List.append_assoc]
      rw [Shape.ofTight_quoted hf]
      rfl
  | _ =>
    unfold render
    simp only [List.append_assoc]
    rw [Shape.ofTight_quoted hf]
    rfl

end Test

/-! ## Nodes -/

namespace Flat

/-- The kind of a node. -/
def shape : Flat Test → Shape
  | test _ t => .test t.kind
  | any _ => .any
  | all _ => .all
  | check .. => .check
  | clause (.join _) => .join
  | clause (.order _) => .ordering
  | clause (.group _) => .grouping

/-- A node as the first one of a group is taken for no operator of the group. -/
theorem ofTight_render {f : Flat Test} (hf : ∀ s ∈ f.texts, IsQuoteFree s) (group r : List Char) :
    Shape.ofTight group (f.render ++ r) = Shape.ofGroup group := by
  cases f with
  | test field t =>
    rw [render]
    exact Test.ofTight_render (hf field List.mem_cons_self) t r group
  | any nodes => rw [render]; rfl
  | all nodes => rw [render]; rfl
  | check negated model label joins nodes =>
    rw [render]
    unfold checkHead
    simp only [List.append_assoc]
    cases negated <;> rfl
  | clause c =>
    rw [render]
    cases c with
    | join j => rfl
    | order o => rfl
    | group g => rfl

/-- A node starts with a name or, if it is a join, with a brace. -/
theorem render_eq_cons (f : Flat Test) :
    (∃ s, f.render = '"' :: s) ∨ ∃ s, f.render = '\x7b' :: s := by
  cases f with
  | test field t =>
    rw [render]
    cases t with
    | compare op value => cases op <;> exact .inl ⟨_, rfl⟩
    | _ => exact .inl ⟨_, rfl⟩
  | clause c =>
    rw [render]
    cases c with
    | join j => exact .inr ⟨_, rfl⟩
    | _ => exact .inl ⟨_, rfl⟩
  | _ =>
    rw [render]
    exact .inl ⟨_, rfl⟩

theorem render_append_ne {c : Char} (hq : c ≠ '"') (hb : c ≠ '\x7b') (f : Flat Test)
    (s t : List Char) : f.render ++ s ≠ c :: t := by
  intro h
  rcases f.render_eq_cons with ⟨u, e⟩ | ⟨u, e⟩
  · rw [e] at h
    exact hq (List.cons.inj h).1.symm
  · rw [e] at h
    exact hb (List.cons.inj h).1.symm

/-- The nodes of a group, and the brace behind them. -/
theorem ofTight_nodes {nodes : List (Flat Test)} (hf : ∀ f ∈ nodes, ∀ s ∈ f.texts, IsQuoteFree s)
    (group r : List Char) :
    Shape.ofTight group (Fragment.list [','] (nodes.map render) ++ '\x7d' :: r) =
      Shape.ofGroup group := by
  cases nodes with
  | nil => rfl
  | cons f rest =>
    rw [List.map_cons, Fragment.list_cons_append]
    exact ofTight_render (hf f List.mem_cons_self) _ _

/-- A group is told from a node with an operator by what it holds. -/
theorem ofNamed_nodes {nodes : List (Flat Test)} (hf : ∀ f ∈ nodes, ∀ s ∈ f.texts, IsQuoteFree s)
    (group r : List Char) :
    Shape.ofNamed group (':' :: ' ' :: '\x7b' :: (Fragment.list [','] (nodes.map render) ++
      ['\x7d'] ++ r)) = Shape.ofGroup group := by
  have hnamed : ∀ s : List Char, (∀ t, s ≠ ' ' :: t) →
      Shape.ofNamed group (':' :: ' ' :: '\x7b' :: s) = Shape.ofTight group s := by
    intro s hs
    cases s with
    | nil => rfl
    | cons c s =>
      have hc : c ≠ ' ' := by
        rintro rfl
        exact hs s rfl
      unfold Shape.ofNamed
      split <;> simp_all
  rw [List.append_assoc, List.singleton_append, hnamed, ofTight_nodes hf]
  intro t
  cases nodes with
  | nil => exact fun h => absurd (List.cons.inj h).1 (by decide)
  | cons f rest =>
    rw [List.map_cons, Fragment.list_cons_append]
    exact render_append_ne (by decide) (by decide) f _ t

/-- The text of a node tells its kind. -/
theorem shape_of_render {f : Flat Test} (hf : ∀ s ∈ f.texts, IsQuoteFree s) (r : List Char) :
    Shape.of (f.render ++ r) = f.shape := by
  cases f with
  | test field t =>
    rw [render]
    exact Test.shape_of_render (hf field List.mem_cons_self) t r
  | any nodes =>
    have hnodes : ∀ f ∈ nodes, ∀ s ∈ f.texts, IsQuoteFree s := by
      rw [texts, textsEach_eq_flatMap] at hf
      exact fun f hm s hs => hf s (List.mem_flatMap.mpr ⟨f, hm, hs⟩)
    rw [render, renderEach_eq_map]
    exact ofNamed_nodes hnodes "$or".toList r
  | all nodes =>
    have hnodes : ∀ f ∈ nodes, ∀ s ∈ f.texts, IsQuoteFree s := by
      rw [texts, textsEach_eq_flatMap] at hf
      exact fun f hm s hs => hf s (List.mem_flatMap.mpr ⟨f, hm, hs⟩)
    rw [render, renderEach_eq_map]
    exact ofNamed_nodes hnodes "where".toList r
  | check negated model label joins nodes =>
    rw [render]
    unfold checkHead
    simp only [List.append_assoc]
    cases negated <;> rfl
  | clause c =>
    rw [render]
    cases c with
    | join j => rfl
    | order o => rfl
    | group g => rfl

end Flat

end RemoteRecords
