import Mathlib.Data.List.Induction
import RemoteRecords.Proofs.Query.Parts

/-!
# Operands of conjunctions and disjunctions

A conjunction of conjunctions has as its operands what these are made of, and so has
a disjunction of disjunctions. A composite is written as its operands in a row, so it
does not show how they were put together: in pairs from the left, from the right or
in any other way. Nor does anything around it show that, at any depth and through
existence checks, since what surrounds a node is the same text for every node.

* `Condition.operands`: the operands of a node among the parts of a parent;
* `Condition.render_eq_list_operands`: a node is written as its operands;
* `Condition.exists_render_plug`: the text around a node in its place;
* `Condition.whereBody_eq_conjunction`: a filter is written as the conjunction of its
  conditions, in a query and in existence checks at any depth;
* `Condition.render_of_operands`: a composite is its operands in a row, alone or wrapped, and
  what is written depends on the operands only.
-/

namespace RemoteRecords

/-! ## Places in a text -/

namespace Fragment

/-- What stands around an item of a list does not depend on the item. -/
theorem exists_list_around (separator : List Char) (front back : List (List Char)) :
    ∃ before after, ∀ item,
      list separator (front ++ item :: back) = before ++ item ++ after := by
  induction front with
  | nil =>
    cases back with
    | nil => exact ⟨[], [], fun item => by simp [list]⟩
    | cons next rest =>
      exact ⟨[], separator ++ list separator (next :: rest), fun item => by simp [list]⟩
  | cons first front ih =>
    obtain ⟨before, after, h⟩ := ih
    refine ⟨first ++ separator ++ before, after, fun item => ?_⟩
    have hne : front ++ item :: back ≠ [] := List.append_ne_nil_of_right_ne_nil _ (by simp)
    rw [List.cons_append, list_cons _ hne, h]
    simp only [List.append_assoc]

end Fragment

/-- What is written around a piece of a wrapped text does not depend on the piece. -/
theorem exists_wrapWhen_around (wrapped : Bool) (opening : String) (front back : List Char) :
    ∃ before after, ∀ piece,
      wrapWhen wrapped opening (front ++ piece ++ back) = before ++ piece ++ after := by
  cases wrapped with
  | true => exact ⟨opening.toList ++ front, back ++ ['\x7d'], fun piece => by simp [wrapWhen]⟩
  | false => exact ⟨front, back, fun piece => by simp [wrapWhen]⟩

namespace Condition

/-! ## Operands -/

/-- The operands of a condition among the parts of a parent: a composite of the kind
of the parent stands for the operands of its parts, any other node for itself. -/
def operands (parent : Parent) : Condition → List Condition
  | both left right =>
    if parent = .disjunction then [both left right]
    else left.operands .conjunction ++ right.operands .conjunction
  | either left right =>
    if parent = .disjunction then left.operands .disjunction ++ right.operands .disjunction
    else [either left right]
  | c => [c]

theorem operands_both (left right : Condition) :
    (both left right).operands .conjunction =
      left.operands .conjunction ++ right.operands .conjunction := rfl

theorem operands_either (left right : Condition) :
    (either left right).operands .disjunction =
      left.operands .disjunction ++ right.operands .disjunction := rfl

theorem operands_root (c : Condition) : c.operands .root = c.operands .conjunction := by
  cases c <;> rfl

theorem operands_ne_nil (parent : Parent) (c : Condition) : c.operands parent ≠ [] := by
  induction c generalizing parent with
  | both left right ihl _ =>
    rw [operands]
    split
    · exact List.cons_ne_nil _ _
    · exact List.append_ne_nil_of_left_ne_nil (ihl _) _
  | either left right ihl _ =>
    rw [operands]
    split
    · exact List.append_ne_nil_of_left_ne_nil (ihl _) _
    · exact List.cons_ne_nil _ _
  | _ => exact List.cons_ne_nil _ _

/-- A composite has more than one operand. -/
theorem operands_append_ne_singleton (parent : Parent) (left right c : Condition) :
    left.operands parent ++ right.operands parent ≠ [c] := by
  intro h
  have hl := List.length_pos_iff.mpr (operands_ne_nil parent left)
  have hr := List.length_pos_iff.mpr (operands_ne_nil parent right)
  have hlength := congrArg List.length h
  rw [List.length_append, List.length_singleton] at hlength
  omega

/-- The operands of two parts in a row are written with a comma between the parts. -/
theorem list_operands_append (parent : Parent) (left right : Condition) :
    Fragment.list [','] ((left.operands parent ++ right.operands parent).map (render parent)) =
      Fragment.list [','] ((left.operands parent).map (render parent)) ++
        ',' :: Fragment.list [','] ((right.operands parent).map (render parent)) := by
  rw [List.map_append, Fragment.list_append (mt List.map_eq_nil_iff.mp (operands_ne_nil parent left))
    (mt List.map_eq_nil_iff.mp (operands_ne_nil parent right)), List.append_assoc]
  rfl

/-- A node is written as its operands in a row. -/
theorem render_eq_list_operands (parent : Parent) (c : Condition) :
    c.render parent = Fragment.list [','] ((c.operands parent).map (render parent)) := by
  induction c generalizing parent with
  | both left right ihl ihr =>
    cases parent with
    | disjunction => rfl
    | conjunction =>
      rw [render_both, operands_both, list_operands_append, ← ihl, ← ihr]
      rfl
    | root =>
      -- The operands at the root are those in a conjunction, and are written like them.
      have hroot : render .root = render .conjunction := funext render_root
      rw [operands_root, hroot, render_both, operands_both, list_operands_append, ← ihl, ← ihr]
      rfl
  | either left right ihl ihr =>
    cases parent with
    | disjunction =>
      rw [render_either, operands_either, list_operands_append, ← ihl, ← ihr]
      rfl
    | _ => rfl
  | _ => rfl

/-- A conjunction is its operands in a row, wrapped in a disjunction only. -/
theorem render_both_eq_list (parent : Parent) (left right : Condition) :
    (both left right).render parent =
      wrapWhen (parent == .disjunction) "\"where\": \x7b"
        (Fragment.list [','] (((both left right).operands .conjunction).map
          (render .conjunction))) := by
  rw [render_both, operands_both, list_operands_append, ← render_eq_list_operands,
    ← render_eq_list_operands]

/-- A disjunction is its operands in a row, wrapped unless it stands in another. -/
theorem render_either_eq_list (parent : Parent) (left right : Condition) :
    (either left right).render parent =
      wrapWhen (parent != .disjunction) "\"$or\": \x7b"
        (Fragment.list [','] (((either left right).operands .disjunction).map
          (render .disjunction))) := by
  rw [render_either, operands_either, list_operands_append, ← render_eq_list_operands,
    ← render_eq_list_operands]

/-- The text of a composite of the kind of `joint` with the given operands. -/
def joinedText (joint parent : Parent) (operands : List Condition) : List Char :=
  if joint = .disjunction then
    wrapWhen (parent != .disjunction) "\"$or\": \x7b"
      (Fragment.list [','] (operands.map (render .disjunction)))
  else
    wrapWhen (parent == .disjunction) "\"where\": \x7b"
      (Fragment.list [','] (operands.map (render .conjunction)))

/-- A node is its only operand, or it has several and is written as they say. -/
theorem operands_eq_singleton_or (joint : Parent) (c : Condition) :
    c.operands joint = [c] ∨ (∀ d, c.operands joint ≠ [d]) ∧
      ∀ parent, c.render parent = joinedText joint parent (c.operands joint) := by
  cases c with
  | both left right =>
    have hne := operands_append_ne_singleton .conjunction left right
    cases joint with
    | disjunction => exact .inl rfl
    | _ => exact .inr ⟨hne, fun parent => render_both_eq_list parent left right⟩
  | either left right =>
    have hne := operands_append_ne_singleton .disjunction left right
    cases joint with
    | disjunction => exact .inr ⟨hne, fun parent => render_either_eq_list parent left right⟩
    | _ => exact .inl rfl
  | _ => exact .inl rfl

/-- Conditions with the same operands are written alike under every parent. -/
theorem render_eq_of_operands_eq {joint : Parent} {c d : Condition}
    (h : c.operands joint = d.operands joint) (parent : Parent) :
    c.render parent = d.render parent := by
  rcases operands_eq_singleton_or joint c with hc | ⟨hc, htext⟩
  · rcases operands_eq_singleton_or joint d with hd | ⟨hd, -⟩
    · rw [hc, hd, List.singleton_inj] at h
      rw [h]
    · exact absurd (h.symm.trans hc) (hd c)
  · rcases operands_eq_singleton_or joint d with hd | ⟨-, htext'⟩
    · exact absurd (h.trans hd) (hc d)
    · rw [htext, htext', h]

/-! ## Places in a condition -/

/-- A node with a place for one of its parts. -/
inductive Frame
  | bothLeft (right : Condition)
  | bothRight (left : Condition)
  | eitherLeft (right : Condition)
  | eitherRight (left : Condition)
  | check (negated : Bool) (model : Option ModelId) (label : Option String) (joins : List Join)
      (front back : List Condition)

/-- The node with a condition in its place. -/
def Frame.plug (c : Condition) : Frame → Condition
  | bothLeft right => .both c right
  | bothRight left => .both left c
  | eitherLeft right => .either c right
  | eitherRight left => .either left c
  | check negated model label joins front back =>
    .check negated model label joins (front ++ c :: back)

/-- The condition in which `c` stands at the end of a path, the outermost node of
which comes first. -/
def plug (path : List Frame) (c : Condition) : Condition :=
  path.foldr (fun f c => f.plug c) c

/-- What is written around a part of a node does not depend on the part. -/
theorem Frame.exists_render_plug (f : Frame) (parent : Parent) :
    ∃ before inner after, ∀ c, (f.plug c).render parent = before ++ c.render inner ++ after := by
  cases f with
  | bothLeft right =>
    obtain ⟨before, after, h⟩ := exists_wrapWhen_around (parent == .disjunction)
      "\"where\": \x7b" [] (',' :: right.render .conjunction)
    exact ⟨before, .conjunction, after, fun c => by rw [plug, render_both, ← h, List.nil_append]⟩
  | bothRight left =>
    obtain ⟨before, after, h⟩ := exists_wrapWhen_around (parent == .disjunction)
      "\"where\": \x7b" (left.render .conjunction ++ [',']) []
    refine ⟨before, .conjunction, after, fun c => ?_⟩
    rw [plug, render_both, ← h, List.append_nil, ← List.append_cons]
  | eitherLeft right =>
    obtain ⟨before, after, h⟩ := exists_wrapWhen_around (parent != .disjunction)
      "\"$or\": \x7b" [] (',' :: right.render .disjunction)
    exact ⟨before, .disjunction, after, fun c => by rw [plug, render_either, ← h, List.nil_append]⟩
  | eitherRight left =>
    obtain ⟨before, after, h⟩ := exists_wrapWhen_around (parent != .disjunction)
      "\"$or\": \x7b" (left.render .disjunction ++ [',']) []
    refine ⟨before, .disjunction, after, fun c => ?_⟩
    rw [plug, render_either, ← h, List.append_nil, ← List.append_cons]
  | check negated model label joins front back =>
    obtain ⟨before, after, h⟩ := Fragment.exists_list_around [',']
      (front.map (render .conjunction)) (back.map (render .conjunction))
    refine ⟨checkHead negated model label joins ++ "\"where\": \x7b".toList ++ before,
      .conjunction, after ++ ['\x7d', '\x7d'], fun c => ?_⟩
    rw [plug, render_check, whereBody_eq_map, List.map_append, List.map_cons, h]
    simp only [List.append_assoc]

/-- What is written around a node at the end of a path does not depend on the node. -/
theorem exists_render_plug (path : List Frame) (parent : Parent) :
    ∃ before inner after, ∀ c, (plug path c).render parent = before ++ c.render inner ++ after := by
  induction path generalizing parent with
  | nil => exact ⟨[], parent, [], fun c => by simp [plug]⟩
  | cons f path ih =>
    obtain ⟨before, inner, after, h⟩ := f.exists_render_plug parent
    obtain ⟨before', inner', after', h'⟩ := ih inner
    refine ⟨before ++ before', inner', after' ++ after, fun c => ?_⟩
    have hplug : plug (f :: path) c = f.plug (plug path c) := rfl
    rw [hplug, h, h']
    simp only [List.append_assoc]

/-! ## The conjunction of a list -/

/-- Conjunctions that are nested to the left list their parts in order. -/
theorem render_foldl_both (c : Condition) (rest : List Condition) :
    (rest.foldl both c).render .conjunction =
      Fragment.list [','] ((c :: rest).map (render .conjunction)) := by
  induction rest using List.reverseRecOn with
  | nil => rfl
  | append_singleton rest d ih =>
    have hfront : (c :: rest).map (render .conjunction) ≠ [] := List.cons_ne_nil _ _
    have hback : [d].map (render .conjunction) ≠ [] := List.cons_ne_nil _ _
    rw [List.foldl_append, List.foldl_cons, List.foldl_nil, render_both, ih, ← List.cons_append,
      List.map_append, Fragment.list_append hfront hback, List.append_assoc]
    rfl

/-- The where body is the text of the conjunction of its conditions. -/
theorem whereBody_eq_render_conjunction (conditions : List Condition) :
    whereBody conditions = (conjunction? conditions).elim [] (render .root) := by
  rw [whereBody_eq_map]
  cases conditions with
  | nil => rfl
  | cons c rest => rw [conjunction?, Option.elim_some, render_root, render_foldl_both]

/-- A filter is written as the conjunction of its conditions, and as nothing without
any: for a list of conditions, in an existence check, and in one at the end of any path,
where only the filter depends on the conditions. -/
theorem whereBody_eq_conjunction :
    (∀ conditions, whereBody conditions = (conjunction? conditions).elim [] (render .root)) ∧
    (∀ parent negated model label joins conditions,
      (check negated model label joins conditions).render parent =
        checkHead negated model label joins ++ "\"where\": \x7b".toList ++
          (conjunction? conditions).elim [] (render .root) ++ ['\x7d', '\x7d']) ∧
    ∀ path parent negated model label joins, ∃ before after, ∀ conditions,
      (plug path (check negated model label joins conditions)).render parent =
        before ++ (checkHead negated model label joins ++ "\"where\": \x7b".toList ++
          (conjunction? conditions).elim [] (render .root) ++ ['\x7d', '\x7d']) ++ after := by
  have hcheck : ∀ parent negated model label joins conditions,
      (check negated model label joins conditions).render parent =
        checkHead negated model label joins ++ "\"where\": \x7b".toList ++
          (conjunction? conditions).elim [] (render .root) ++ ['\x7d', '\x7d'] := by
    intro parent negated model label joins conditions
    rw [render_check, whereBody_eq_render_conjunction]
  refine ⟨whereBody_eq_render_conjunction, hcheck, ?_⟩
  intro path parent negated model label joins
  obtain ⟨before, inner, after, h⟩ := exists_render_plug path parent
  exact ⟨before, after, fun conditions => by rw [h, hcheck]⟩

/-! ## Other ways to put operands together -/

/-- The operands of a composite in a row, each as it is written among the parts of
`parent`, with commas between them. -/
def row (parent : Parent) (operands : List Condition) : List Char :=
  List.intercalate [','] (operands.map (render parent))

/-- A composite is written as its operands in a row: a conjunction as these alone, but as
a filter of its own in a disjunction, and a disjunction as a member of its own, but as
these alone in another. So nothing that is written around a composite or in it shows how
the operands were put together. -/
theorem render_of_operands :
    (∀ left right,
      (both left right).render .root =
        row .conjunction ((both left right).operands .conjunction) ∧
      (both left right).render .conjunction =
        row .conjunction ((both left right).operands .conjunction) ∧
      (both left right).render .disjunction = "\"where\": \x7b".toList ++
        row .conjunction ((both left right).operands .conjunction) ++ ['\x7d']) ∧
    (∀ left right,
      (either left right).render .root = "\"$or\": \x7b".toList ++
        row .disjunction ((either left right).operands .disjunction) ++ ['\x7d'] ∧
      (either left right).render .conjunction = "\"$or\": \x7b".toList ++
        row .disjunction ((either left right).operands .disjunction) ++ ['\x7d'] ∧
      (either left right).render .disjunction =
        row .disjunction ((either left right).operands .disjunction)) ∧
    ∀ (joint : Parent) (c d : Condition), c.operands joint = d.operands joint →
      ∀ path parent, (plug path c).render parent = (plug path d).render parent := by
  refine ⟨fun left right => ?_, fun left right => ?_, ?_⟩
  · simp only [row, ← Fragment.list_eq_intercalate, render_both_eq_list]
    exact ⟨rfl, rfl, rfl⟩
  · simp only [row, ← Fragment.list_eq_intercalate, render_either_eq_list]
    exact ⟨rfl, rfl, rfl⟩
  · intro joint c d h path parent
    obtain ⟨before, inner, after, hplug⟩ := exists_render_plug path parent
    rw [hplug, hplug, render_eq_of_operands_eq h]

/-- Three parts put together from the left, with a disjunction among them. -/
def sampleFromLeft : Condition :=
  .both (.both (.test "a" (.absent true)) (.either (.test "b" (.absent true))
    (.test "c" (.absent true)))) (.test "d" (.absent true))

/-- The same parts put together from the right. -/
def sampleFromRight : Condition :=
  .both (.test "a" (.absent true)) (.both (.either (.test "b" (.absent true))
    (.test "c" (.absent true))) (.test "d" (.absent true)))

/-- A place in an existence check, as a part of a disjunction there. -/
def samplePath : List Frame :=
  [.check true none none [] [] [], .eitherRight (.test "e" (.absent true))]

/-- The operands of the two samples in a row. -/
def sampleRow : List Char :=
  "\"a\": \x7b\"$notNull\": \"1\"\x7d,\"$or\": \x7b\"b\": \x7b\"$notNull\": \"1\"\x7d,".toList ++
    "\"c\": \x7b\"$notNull\": \"1\"\x7d\x7d,\"d\": \x7b\"$notNull\": \"1\"\x7d".toList

theorem render_of_operands_sample :
    sampleFromLeft ≠ sampleFromRight ∧
      sampleFromLeft.operands .conjunction = sampleFromRight.operands .conjunction ∧
      sampleFromLeft.render .root = sampleRow ∧
      sampleFromLeft.render .disjunction = "\"where\": \x7b".toList ++ sampleRow ++ ['\x7d'] ∧
      (plug samplePath sampleFromLeft).render .root =
        (plug samplePath sampleFromRight).render .root := by
  have h : sampleFromLeft.operands .conjunction = sampleFromRight.operands .conjunction := rfl
  obtain ⟨hroot, -, hinner⟩ := render_of_operands.1
    (.both (.test "a" (.absent true)) (.either (.test "b" (.absent true)) (.test "c" (.absent true))))
    (.test "d" (.absent true))
  refine ⟨nofun, h, hroot.trans rfl, hinner.trans rfl, ?_⟩
  exact render_of_operands.2.2 .conjunction _ _ h samplePath .root

end Condition

end RemoteRecords
