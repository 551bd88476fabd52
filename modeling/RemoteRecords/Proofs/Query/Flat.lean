import RemoteRecords.Proofs.Query.Parts

/-!
# Flattened filters

What a filter says apart from how its conjunctions and disjunctions are nested:
parts of a conjunction that stand in a conjunction are parts of the outer one, and
so for disjunctions. The text of a condition is that of its nodes in a row, so it
depends on nothing else.

* `Condition.flatten`: the nodes of a condition under each parent;
* `Condition.render_eq_list`, `Condition.whereBody_eq_list`: texts from nodes.
-/

namespace RemoteRecords

/-- A node of a flattened filter, with tests of type `τ`. -/
inductive Flat (τ : Type)
  | test (field : String) (t : τ)
  /-- A disjunction where it is no part of another one. -/
  | any (nodes : List (Flat τ))
  /-- A conjunction where it is a part of a disjunction. -/
  | all (nodes : List (Flat τ))
  | check (negated : Bool) (model : Option ModelId) (label : Option String) (joins : List Join)
      (nodes : List (Flat τ))
  | clause (c : Clause)

namespace Flat

/-- Induction over flattened filters. -/
@[elab_as_elim, induction_eliminator]
theorem induct {τ : Type} {motive : Flat τ → Prop} (test : ∀ field t, motive (test field t))
    (any : ∀ nodes, (∀ f ∈ nodes, motive f) → motive (any nodes))
    (all : ∀ nodes, (∀ f ∈ nodes, motive f) → motive (all nodes))
    (check : ∀ negated model label joins nodes, (∀ f ∈ nodes, motive f) →
      motive (check negated model label joins nodes))
    (clause : ∀ c, motive (clause c)) (f : Flat τ) : motive f :=
  @Flat.rec τ motive (fun nodes => ∀ f ∈ nodes, motive f) test any all check clause
    (fun _ h => absurd h List.not_mem_nil)
    (fun _ _ hf hrest => List.forall_mem_cons.mpr ⟨hf, hrest⟩) f

mutual

/-- The node with its tests changed by `g`. -/
def map {τ υ : Type} (g : τ → υ) : Flat τ → Flat υ
  | test field t => test field (g t)
  | any nodes => any (mapEach g nodes)
  | all nodes => all (mapEach g nodes)
  | check negated model label joins nodes => check negated model label joins (mapEach g nodes)
  | clause c => clause c

/-- The nodes with their tests changed by `g`. -/
def mapEach {τ υ : Type} (g : τ → υ) : List (Flat τ) → List (Flat υ)
  | [] => []
  | f :: rest => f.map g :: mapEach g rest

end

mutual

/-- The text of a node. -/
def render : Flat Test → List Char
  | test field t => t.render field
  | any nodes => wrapWhen true "\"$or\": \x7b" (Fragment.list [','] (renderEach nodes))
  | all nodes => wrapWhen true "\"where\": \x7b" (Fragment.list [','] (renderEach nodes))
  | check negated model label joins nodes =>
    checkHead negated model label joins ++ "\"where\": \x7b".toList ++
      Fragment.list [','] (renderEach nodes) ++ ['\x7d', '\x7d']
  | clause c => c.render

/-- The texts of nodes. -/
def renderEach : List (Flat Test) → List (List Char)
  | [] => []
  | f :: rest => f.render :: renderEach rest

end

mutual

/-- The strings of a node. -/
def texts : Flat Test → List String
  | test field t => field :: t.texts
  | any nodes => textsEach nodes
  | all nodes => textsEach nodes
  | check _ _ label joins nodes => joins.flatMap Join.texts ++ label.toList ++ textsEach nodes
  | clause c => c.texts

/-- The strings of nodes. -/
def textsEach : List (Flat Test) → List String
  | [] => []
  | f :: rest => f.texts ++ textsEach rest

end

theorem mapEach_eq_map {τ υ : Type} (g : τ → υ) (nodes : List (Flat τ)) :
    mapEach g nodes = nodes.map (map g) := by
  induction nodes with
  | nil => rfl
  | cons f rest ih => rw [mapEach, ih, List.map_cons]

theorem renderEach_eq_map (nodes : List (Flat Test)) : renderEach nodes = nodes.map render := by
  induction nodes with
  | nil => rfl
  | cons f rest ih => rw [renderEach, ih, List.map_cons]

theorem textsEach_eq_flatMap (nodes : List (Flat Test)) :
    textsEach nodes = nodes.flatMap texts := by
  induction nodes with
  | nil => rfl
  | cons f rest ih => rw [textsEach, ih, List.flatMap_cons]

theorem textsEach_append (front back : List (Flat Test)) :
    textsEach (front ++ back) = textsEach front ++ textsEach back := by
  rw [textsEach_eq_flatMap, List.flatMap_append, textsEach_eq_flatMap, textsEach_eq_flatMap]

end Flat

namespace Condition

mutual

/-- The nodes of a condition under a parent. -/
def flatten (parent : Parent) : Condition → List (Flat Test)
  | test field t => [.test field t]
  | both left right =>
    let nodes := left.flatten .conjunction ++ right.flatten .conjunction
    if parent = .disjunction then [.all nodes] else nodes
  | either left right =>
    let nodes := left.flatten .disjunction ++ right.flatten .disjunction
    if parent = .disjunction then nodes else [.any nodes]
  | check negated model label joins conditions =>
    [.check negated model label joins (flattenEach conditions)]
  | clause c => [.clause c]

/-- The nodes of conditions that are all required. -/
def flattenEach : List Condition → List (Flat Test)
  | [] => []
  | c :: rest => c.flatten .conjunction ++ flattenEach rest

end

theorem flatten_ne_nil (parent : Parent) (c : Condition) : c.flatten parent ≠ [] := by
  induction c generalizing parent with
  | test => exact List.cons_ne_nil _ _
  | both left right ihl _ =>
    rw [flatten]
    split
    · exact List.cons_ne_nil _ _
    · exact List.append_ne_nil_of_left_ne_nil (ihl _) _
  | either left right ihl _ =>
    rw [flatten]
    split
    · exact List.append_ne_nil_of_left_ne_nil (ihl _) _
    · exact List.cons_ne_nil _ _
  | check => exact List.cons_ne_nil _ _
  | clause => exact List.cons_ne_nil _ _

/-- Nodes in a row are written with a comma where they are cut. -/
theorem list_nodes_append {front back : List (Flat Test)} (hf : front ≠ []) (hb : back ≠ []) :
    Fragment.list [','] ((front ++ back).map Flat.render) =
      Fragment.list [','] (front.map Flat.render) ++
        ',' :: Fragment.list [','] (back.map Flat.render) := by
  rw [List.map_append, Fragment.list_append (mt List.map_eq_nil_iff.mp hf)
    (mt List.map_eq_nil_iff.mp hb), List.append_assoc]
  rfl

/-- The body for a list, if each of its conditions is written as its nodes. -/
theorem whereBody_eq_list_of_each {conditions : List Condition}
    (h : ∀ c ∈ conditions, ∀ parent,
      c.render parent = Fragment.list [','] ((c.flatten parent).map Flat.render)) :
    whereBody conditions = Fragment.list [','] ((flattenEach conditions).map Flat.render) := by
  rw [whereBody_eq_map]
  induction conditions with
  | nil => rfl
  | cons c rest ih =>
    have hc := h c List.mem_cons_self .conjunction
    have hrest := ih fun d hd => h d (List.mem_cons_of_mem _ hd)
    cases rest with
    | nil => simpa [Fragment.list, flattenEach] using hc
    | cons d rest =>
      have hne : flattenEach (d :: rest) ≠ [] :=
        List.append_ne_nil_of_left_ne_nil (flatten_ne_nil _ d) _
      have hcons : flattenEach (c :: d :: rest) =
          c.flatten .conjunction ++ flattenEach (d :: rest) := rfl
      have hmap : (d :: rest).map (render .conjunction) ≠ [] := List.cons_ne_nil _ _
      rw [List.map_cons, Fragment.list_cons _ hmap, hrest, hc, hcons,
        list_nodes_append (flatten_ne_nil _ c) hne, List.append_assoc]
      rfl

/-- A condition is written as its nodes in a row. -/
theorem render_eq_list (parent : Parent) (c : Condition) :
    c.render parent = Fragment.list [','] ((c.flatten parent).map Flat.render) := by
  induction c generalizing parent with
  | test field t => rw [render_test, flatten, List.map_singleton, Fragment.list, Flat.render]
  | both left right ihl ihr =>
    have hbody := list_nodes_append (flatten_ne_nil .conjunction left)
      (flatten_ne_nil .conjunction right)
    rw [render_both, ihl, ihr, ← hbody, flatten]
    cases parent with
    | disjunction =>
      rw [if_pos rfl, List.map_singleton, Fragment.list, Flat.render, Flat.renderEach_eq_map]
      rfl
    | _ => rfl
  | either left right ihl ihr =>
    have hbody := list_nodes_append (flatten_ne_nil .disjunction left)
      (flatten_ne_nil .disjunction right)
    rw [render_either, ihl, ihr, ← hbody, flatten]
    cases parent with
    | disjunction => rfl
    | _ =>
      rw [if_neg (by decide), List.map_singleton, Fragment.list, Flat.render,
        Flat.renderEach_eq_map]
      rfl
  | check negated model label joins conditions ih =>
    rw [render_check, whereBody_eq_list_of_each ih, flatten, List.map_singleton, Fragment.list,
      Flat.render, Flat.renderEach_eq_map]
  | clause c => rw [render, flatten, List.map_singleton, Fragment.list, Flat.render]

/-- The filter for a list of conditions is written as the nodes of all of them. -/
theorem whereBody_eq_list (conditions : List Condition) :
    whereBody conditions = Fragment.list [','] ((flattenEach conditions).map Flat.render) :=
  whereBody_eq_list_of_each fun c _ parent => render_eq_list parent c

/-- The strings of the nodes for a list, if flattening keeps those of each
condition. -/
theorem textsEach_flattenEach_of_each {conditions : List Condition}
    (h : ∀ c ∈ conditions, ∀ parent, Flat.textsEach (c.flatten parent) = c.texts) :
    Flat.textsEach (flattenEach conditions) = textsEach conditions := by
  induction conditions with
  | nil => rfl
  | cons c rest ih =>
    rw [flattenEach, Flat.textsEach_append, h c List.mem_cons_self,
      ih fun d hd => h d (List.mem_cons_of_mem _ hd), textsEach]

/-- Flattening keeps the strings of a condition. -/
theorem textsEach_flatten (parent : Parent) (c : Condition) :
    Flat.textsEach (c.flatten parent) = c.texts := by
  induction c generalizing parent with
  | test field t => simp [flatten, Flat.textsEach, Flat.texts, texts]
  | both left right ihl ihr =>
    rw [flatten, texts, ← ihl .conjunction, ← ihr .conjunction, ← Flat.textsEach_append]
    split <;> simp [Flat.textsEach, Flat.texts]
  | either left right ihl ihr =>
    rw [flatten, texts, ← ihl .disjunction, ← ihr .disjunction, ← Flat.textsEach_append]
    split <;> simp [Flat.textsEach, Flat.texts]
  | check negated model label joins conditions ih =>
    have hnodes := textsEach_flattenEach_of_each ih
    simp [flatten, Flat.textsEach, Flat.texts, texts, hnodes]
  | clause c => simp [flatten, Flat.textsEach, Flat.texts, texts]

theorem textsEach_flattenEach (conditions : List Condition) :
    Flat.textsEach (flattenEach conditions) = conditions.flatMap texts := by
  rw [textsEach_flattenEach_of_each fun c _ parent => textsEach_flatten parent c,
    textsEach_eq_flatMap]

end Condition

end RemoteRecords
