import RemoteRecords.Proofs.Query.Payload

/-!
# The meaning of a filter

A filter is a boolean combination of tests and existence checks, once what these
mean is fixed. The same meaning is read off the members of a filter in a
document, where the members of an object are all required, those of an `$or`
object are alternatives, and a `where` object among alternatives is one of them.
Writing a filter and reading it keeps the meaning: no conjunction turns into a
disjunction under any parent.

* `Condition.holds`: the meaning of a condition;
* `Interpretation.allOf`, `Interpretation.anyOf`: the meaning of members;
* `Condition.meaning_members`: the members of a condition mean the same as it;
* `Condition.meaning_whereBody`, `Condition.meaning_render`: so do their texts.
-/

namespace RemoteRecords

open Json (Tree IsPlain Spells)

/-- What tests and existence checks mean. A test is known by its member. -/
structure Interpretation where
  leaf : String → Tree → Bool
  /-- From polarity, joins, model, label, and whether the filter of the check holds. -/
  check : Bool → List Join → Option ModelId → Option String → Bool → Bool

/-! ## Conditions -/

namespace Condition

/-- The names by which a filter tells its nodes apart. -/
def reservedNames : List String :=
  ["$or", "where", "$ne", "$exists", "$nexists"]

mutual

/-- The fields that are tested in a condition. -/
def fields : Condition → List String
  | test field _ => [field]
  | both left right => left.fields ++ right.fields
  | either left right => left.fields ++ right.fields
  | check _ _ _ _ conditions => fieldsEach conditions
  | clause _ => []

/-- The fields that are tested in several conditions. -/
def fieldsEach : List Condition → List String
  | [] => []
  | c :: rest => c.fields ++ fieldsEach rest

end

mutual

/-- Whether a condition holds. A clause requires nothing. -/
def holds (I : Interpretation) : Condition → Bool
  | test field t => I.leaf (t.member field).1 (t.member field).2
  | both left right => left.holds I && right.holds I
  | either left right => left.holds I || right.holds I
  | check negated model label joins conditions =>
    I.check negated joins model label (allHold I conditions)
  | clause _ => true

/-- Whether all of several conditions hold. -/
def allHold (I : Interpretation) : List Condition → Bool
  | [] => true
  | c :: rest => c.holds I && allHold I rest

end

theorem fieldsEach_eq_flatMap (conditions : List Condition) :
    fieldsEach conditions = conditions.flatMap fields := by
  induction conditions with
  | nil => rfl
  | cons c rest ih => rw [fieldsEach, ih, List.flatMap_cons]

/-- A condition without clauses, with plain strings, that tests no field with a
reserved name. -/
structure IsFilter (c : Condition) : Prop where
  plain : ∀ s ∈ c.texts, IsPlain s
  unreserved : ∀ field ∈ c.fields, field ∉ reservedNames
  noClause : c.clauses = []

theorem IsFilter.left {l r : Condition} (h : (both l r).IsFilter) : l.IsFilter where
  plain s hs := h.plain s (List.mem_append_left _ hs)
  unreserved f hf := h.unreserved f (List.mem_append_left _ hf)
  noClause := (List.append_eq_nil_iff.mp h.noClause).1

theorem IsFilter.right {l r : Condition} (h : (both l r).IsFilter) : r.IsFilter where
  plain s hs := h.plain s (List.mem_append_right _ hs)
  unreserved f hf := h.unreserved f (List.mem_append_right _ hf)
  noClause := (List.append_eq_nil_iff.mp h.noClause).2

/-- A conjunction and a disjunction of the same parts are filters alike. -/
theorem IsFilter.both_of_either {l r : Condition} (h : (either l r).IsFilter) :
    (both l r).IsFilter :=
  ⟨h.plain, h.unreserved, h.noClause⟩

theorem IsFilter.of_mem {negated : Bool} {model : Option ModelId} {label : Option String}
    {joins : List Join} {conditions : List Condition} {c : Condition}
    (h : (check negated model label joins conditions).IsFilter) (hc : c ∈ conditions) :
    c.IsFilter where
  plain s hs := by
    refine h.plain s ?_
    rw [texts, textsEach_eq_flatMap]
    exact List.mem_append_right _ (List.mem_flatMap.mpr ⟨c, hc, hs⟩)
  unreserved f hf := by
    refine h.unreserved f ?_
    rw [fields, fieldsEach_eq_flatMap]
    exact List.mem_flatMap.mpr ⟨c, hc, hf⟩
  noClause := by
    have := h.noClause
    rw [clauses, clausesEach_eq_flatMap, List.flatMap_eq_nil_iff] at this
    exact this c hc

theorem IsFilter.no_join {c : Condition} (h : c.IsFilter) (j : Join) : Clause.join j ∉ c.clauses := by
  rw [h.noClause]
  exact List.not_mem_nil

end Condition

/-! ## Members -/

/-- The kind of a join by its name. -/
def JoinKind.ofName? (name : String) : Option JoinKind :=
  [left, right, inner, leftOuter, rightOuter].find? fun k => k.name == name

/-- The join that a document says. -/
def Join.ofTree? : Tree → Option Join
  | .object [("type", .text kind), ("alias", .text label), ("target", .text target),
      ("on", .text criterion)] => do
    return ⟨← JoinKind.ofName? kind, ← (Text.readInt64 target.toList).toOption, label, criterion⟩
  | _ => none

/-- What an existence check says before its filter. -/
structure CheckHead where
  joins : List Join
  model : Option ModelId
  label : Option String

namespace CheckHead

/-- The joins that a document says. -/
def joins? : Tree → Option (List Join)
  | .array items => items.mapM Join.ofTree?
  | _ => none

/-- The model that a document says. -/
def model? : Tree → Option ModelId
  | .number s => (Text.readInt64 s).toOption
  | _ => none

/-- The label that a document says. -/
def label? : Tree → Option String
  | .text s => some s
  | _ => none

/-- What members say before a filter, if they are those of an existence check. -/
def ofMembers? : List (String × Tree) → Option CheckHead
  | [("joins", js), ("where", _)] => do
    return ⟨← joins? js, none, none⟩
  | [("joins", js), ("model", m), ("where", _)] => do
    return ⟨← joins? js, some (← model? m), none⟩
  | [("joins", js), ("alias", l), ("where", _)] => do
    return ⟨← joins? js, none, some (← label? l)⟩
  | [("joins", js), ("model", m), ("alias", l), ("where", _)] => do
    return ⟨← joins? js, some (← model? m), some (← label? l)⟩
  | _ => none

end CheckHead

namespace Interpretation

mutual

/-- The meaning of a member, among alternatives or not. -/
def ofMember (I : Interpretation) (inOr : Bool) (name : String) : Tree → Bool
  | .object members =>
    if name = "$or" then I.anyOf members
    else if name = "where" ∧ inOr then I.allOf members
    else if name = "$exists" ∨ name = "$nexists" then
      match CheckHead.ofMembers? members with
      | some head => I.check (name == "$nexists") head.joins head.model head.label (I.filterOf members)
      | none => I.leaf name (.object members)
    else I.leaf name (.object members)
  | t => I.leaf name t

/-- Members that are all required. -/
def allOf (I : Interpretation) : List (String × Tree) → Bool
  | [] => true
  | (name, t) :: rest => I.ofMember false name t && I.allOf rest

/-- Members of which one is required. -/
def anyOf (I : Interpretation) : List (String × Tree) → Bool
  | [] => false
  | (name, t) :: rest => I.ofMember true name t || I.anyOf rest

/-- The meaning of the filter among the members of an existence check. -/
def filterOf (I : Interpretation) : List (String × Tree) → Bool
  | [] => true
  | (name, t) :: rest => if name = "where" then I.filter t else I.filterOf rest

/-- The meaning of a filter: its members are all required. -/
def filter (I : Interpretation) : Tree → Bool
  | .object members => I.allOf members
  | _ => true

end

theorem ofMember_or (I : Interpretation) (inOr : Bool) (members : List (String × Tree)) :
    I.ofMember inOr "$or" (.object members) = I.anyOf members := by
  rw [ofMember, if_pos rfl]

theorem ofMember_where (I : Interpretation) (members : List (String × Tree)) :
    I.ofMember true "where" (.object members) = I.allOf members := by
  rw [ofMember, if_neg (by decide), if_pos ⟨rfl, rfl⟩]

/-- The member of a test means the test, wherever it stands. -/
theorem ofMember_leaf (I : Interpretation) {name : String}
    (h : name ∉ Condition.reservedNames ∨ name = "$ne") (inOr : Bool) (t : Tree) :
    I.ofMember inOr name t = I.leaf name t := by
  have hn : name ≠ "$or" ∧ name ≠ "where" ∧ name ≠ "$exists" ∧ name ≠ "$nexists" := by
    rcases h with h | rfl
    · simp only [Condition.reservedNames, List.mem_cons, not_or] at h
      exact ⟨h.1, h.2.1, h.2.2.2.1, h.2.2.2.2.1⟩
    · decide
  cases t with
  | object members =>
    rw [ofMember, if_neg hn.1, if_neg fun hw => hn.2.1 hw.1,
      if_neg fun he => he.elim hn.2.2.1 hn.2.2.2]
  | _ => rfl

/-- The member of an existence check means the check. -/
theorem ofMember_check (I : Interpretation) (inOr negated : Bool)
    {members : List (String × Tree)} {head : CheckHead}
    (h : CheckHead.ofMembers? members = some head) :
    I.ofMember inOr (if negated then "$nexists" else "$exists") (.object members) =
      I.check negated head.joins head.model head.label (I.filterOf members) := by
  cases negated with
  | true =>
    rw [if_pos rfl, ofMember, if_neg (by decide), if_neg fun hw => absurd hw.1 (by decide),
      if_pos (.inr rfl), h]
    rfl
  | false =>
    rw [if_neg Bool.false_ne_true, ofMember, if_neg (by decide),
      if_neg fun hw => absurd hw.1 (by decide), if_pos (.inl rfl), h]
    rfl

theorem allOf_append (I : Interpretation) (front back : List (String × Tree)) :
    I.allOf (front ++ back) = (I.allOf front && I.allOf back) := by
  induction front with
  | nil => rfl
  | cons m front ih => rw [List.cons_append, allOf, allOf, ih, Bool.and_assoc]

theorem anyOf_append (I : Interpretation) (front back : List (String × Tree)) :
    I.anyOf (front ++ back) = (I.anyOf front || I.anyOf back) := by
  induction front with
  | nil => rfl
  | cons m front ih => rw [List.cons_append, anyOf, anyOf, ih, Bool.or_assoc]

theorem allOf_singleton (I : Interpretation) (name : String) (t : Tree) :
    I.allOf [(name, t)] = I.ofMember false name t := by
  rw [allOf, allOf, Bool.and_true]

theorem anyOf_singleton (I : Interpretation) (name : String) (t : Tree) :
    I.anyOf [(name, t)] = I.ofMember true name t := by
  rw [anyOf, anyOf, Bool.or_false]

end Interpretation

/-! ## What is read back -/

theorem JoinKind.ofName?_name (k : JoinKind) : JoinKind.ofName? k.name = some k := by
  cases k <;> rfl

theorem Join.ofTree?_tree (j : Join) : Join.ofTree? j.tree = some j := by
  obtain ⟨kind, target, label, criterion⟩ := j
  have ht : (Text.readInt64 (String.ofList target.text).toList).toOption = some target := by
    rw [String.toList_ofList, ModelId.text, Text.readInt64_decimalInt]
    rfl
  simp only [tree, ofTree?, JoinKind.ofName?_name, ht, bind, Option.bind_some, pure]

namespace CheckHead

theorem joins?_member (joins : List Join) : joins? (Join.member joins).2 = some joins := by
  show (joins.map Join.tree).mapM Join.ofTree? = some joins
  induction joins with
  | nil => rfl
  | cons j rest ih =>
    rw [List.map_cons, List.mapM_cons, Join.ofTree?_tree, ih]
    rfl

theorem model?_text (id : ModelId) : model? (.number id.text) = some id := by
  rw [model?, ModelId.text, Text.readInt64_decimalInt]
  rfl

/-- What an existence check says before its filter is read back. -/
theorem ofMembers?_members (joins : List Join) (model : Option ModelId) (label : Option String)
    (t : Tree) :
    ofMembers? (Join.member joins :: modelMembers model ++ labelMembers label ++ [("where", t)]) =
      some ⟨joins, model, label⟩ := by
  have hj : joins? (.array (joins.map Join.tree)) = some joins := joins?_member joins
  cases model <;> cases label <;>
    simp only [Join.member, modelMembers, labelMembers, Option.map_none, Option.map_some,
      Option.toList_none, Option.toList_some, List.cons_append, List.nil_append, ofMembers?, hj,
      model?_text, label?, bind, Option.bind_some, pure]

end CheckHead

theorem Interpretation.filterOf_members (I : Interpretation) (joins : List Join)
    (model : Option ModelId) (label : Option String) (members : List (String × Tree)) :
    I.filterOf (Join.member joins :: modelMembers model ++ labelMembers label ++
      [("where", .object members)]) = I.allOf members := by
  cases model <;> cases label <;> rfl

/-! ## The same meaning -/

namespace Condition

variable (I : Interpretation)

theorem name_member (field : String) (t : Test) :
    (t.member field).1 = field ∨ (t.member field).1 = "$ne" := by
  cases t with
  | compare op value => cases op <;> simp [Test.member, Comparison.member]
  | _ => exact .inl rfl

/-- All of the members of several conditions, if each of them has the meaning of
its members. -/
theorem allOf_membersEach {conditions : List Condition}
    (h : ∀ c ∈ conditions, I.allOf (c.members .conjunction) = c.holds I) :
    I.allOf (membersEach .conjunction conditions) = allHold I conditions := by
  induction conditions with
  | nil => rfl
  | cons c rest ih =>
    obtain ⟨hc, hrest⟩ := List.forall_mem_cons.mp h
    rw [membersEach, I.allOf_append, hc, ih hrest, allHold]

/-- The members of a condition mean the same as it: all of them where they stand
in a conjunction, one of them where they stand in a disjunction. -/
theorem meaning_members {c : Condition} (h : c.IsFilter) :
    I.allOf (c.members .conjunction) = c.holds I ∧
      I.anyOf (c.members .disjunction) = c.holds I := by
  induction c with
  | test field t =>
    have hf : (t.member field).1 ∉ reservedNames ∨ (t.member field).1 = "$ne" := by
      rcases name_member field t with e | e
      · rw [e]
        exact .inl (h.unreserved field List.mem_cons_self)
      · exact .inr e
    rw [members, I.allOf_singleton, members, I.anyOf_singleton, I.ofMember_leaf hf,
      I.ofMember_leaf hf]
    exact ⟨rfl, rfl⟩
  | both left right ihl ihr =>
    have hall : I.allOf (left.members .conjunction ++ right.members .conjunction) =
        (left.holds I && right.holds I) := by
      rw [I.allOf_append, (ihl h.left).1, (ihr h.right).1]
    refine ⟨hall, ?_⟩
    show I.anyOf [("where", .object _)] = _
    rw [I.anyOf_singleton, I.ofMember_where]
    exact hall
  | either left right ihl ihr =>
    have hany : I.anyOf (left.members .disjunction ++ right.members .disjunction) =
        (left.holds I || right.holds I) := by
      rw [I.anyOf_append, (ihl h.both_of_either.left).2, (ihr h.both_of_either.right).2]
    refine ⟨?_, hany⟩
    show I.allOf [("$or", .object _)] = _
    rw [I.allOf_singleton, I.ofMember_or]
    exact hany
  | check negated model label joins conditions ih =>
    have hall := allOf_membersEach I fun c hc => (ih c hc (h.of_mem hc)).1
    have hhead := CheckHead.ofMembers?_members joins model label
      (.object (membersEach .conjunction conditions))
    rw [members, I.allOf_singleton, members, I.anyOf_singleton, I.ofMember_check _ _ hhead,
      I.ofMember_check _ _ hhead, I.filterOf_members, hall]
    exact ⟨rfl, rfl⟩
  | clause c => exact absurd h.noClause (List.cons_ne_nil _ _)

/-- The text of a condition under a parent, read as the members of an object,
means the condition in what its parent makes of them. -/
theorem meaning_render {c : Condition} (h : c.IsFilter) (parent : Parent) :
    ∃ members, Tree.read ('\x7b' :: c.render parent ++ ['\x7d']) = some (.object members) ∧
      (if parent = .disjunction then I.anyOf members else I.allOf members) = c.holds I := by
  refine ⟨c.members parent, (Spells.braced (spells h.plain h.no_join parent)).document.read, ?_⟩
  cases parent with
  | root => rw [if_neg (by decide), members_root, (meaning_members I h).1]
  | conjunction => rw [if_neg (by decide), (meaning_members I h).1]
  | disjunction => rw [if_pos rfl, (meaning_members I h).2]

/-- The filter that is written for a list of conditions requires all of them. -/
theorem meaning_whereBody {conditions : List Condition} (h : ∀ c ∈ conditions, c.IsFilter) :
    ∃ members, Tree.read ('\x7b' :: whereBody conditions ++ ['\x7d']) = some (.object members) ∧
      I.allOf members = conditions.all (holds I) := by
  have hbody := spellsMembers_whereBody fun c hc parent =>
    ⟨spells (h c hc).plain (h c hc).no_join parent, members_ne_nil (h c hc).no_join parent⟩
  have hall : ∀ l : List Condition, allHold I l = l.all (holds I) := by
    intro l
    induction l with
    | nil => rfl
    | cons c rest ih => rw [allHold, ih, List.all_cons]
  refine ⟨membersEach .conjunction conditions, (Spells.braced hbody).document.read, ?_⟩
  rw [allOf_membersEach I fun c hc => (meaning_members I (h c hc)).1, hall]

/-- Writing a filter keeps its meaning, for a list of conditions and for each
condition under each parent. -/
theorem meaning_kept :
    (∀ conditions : List Condition, (∀ c ∈ conditions, c.IsFilter) →
      ∃ members, Tree.read ('\x7b' :: whereBody conditions ++ ['\x7d']) = some (.object members) ∧
        I.allOf members = conditions.all (holds I)) ∧
    ∀ c : Condition, c.IsFilter → ∀ parent,
      ∃ members, Tree.read ('\x7b' :: c.render parent ++ ['\x7d']) = some (.object members) ∧
        (if parent = .disjunction then I.anyOf members else I.allOf members) = c.holds I :=
  ⟨fun _ h => meaning_whereBody I h, fun _ h parent => meaning_render I h parent⟩

/-- A conjunction in a disjunction, which is the one place where it is wrapped. -/
def sampleFilter : Condition :=
  .either (.both (.test "age" (.compare .above (.integer 18))) (.test "name" (.absent true)))
    (.check false none (some "p") [] [.test "paid" (.compare .equal (.flag true))])

/-- Only tests of one field hold, and a check holds with its filter. -/
def sampleInterpretation : Interpretation where
  leaf name _ := name == "age"
  check negated _ _ _ filter := negated != filter

theorem meaning_kept_sample :
    sampleFilter.IsFilter ∧ sampleFilter.holds sampleInterpretation = false ∧
      (∃ members, Tree.read ('\x7b' :: whereBody [sampleFilter] ++ ['\x7d']) =
        some (.object members) ∧ sampleInterpretation.allOf members = false) ∧
      ∃ members, Tree.read ('\x7b' :: sampleFilter.render .disjunction ++ ['\x7d']) =
        some (.object members) ∧ sampleInterpretation.anyOf members = false := by
  have h : sampleFilter.IsFilter := ⟨by decide, by decide, rfl⟩
  have hf : sampleFilter.holds sampleInterpretation = false := by decide
  have hl := (meaning_kept sampleInterpretation).1 [sampleFilter]
    (List.forall_mem_singleton.mpr h)
  have hd := (meaning_kept sampleInterpretation).2 sampleFilter h .disjunction
  rw [List.all_cons, List.all_nil, hf] at hl
  simp only [hf, ite_true] at hd
  exact ⟨h, hf, hl, hd⟩

end Condition

end RemoteRecords
