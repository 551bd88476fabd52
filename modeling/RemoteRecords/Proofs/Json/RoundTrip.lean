import RemoteRecords.Proofs.Json.Reading

/-!
# Values read back

A value that is written without blanks and read again is the same value, if it
nests at most as deep as the reader allows, no object of it has a name twice,
and each of its doubles is read back from its own digits (`readsBack`). Integers
always are.

* `spells_compact`: a written value is a text of the grammar;
* `ofTree?_tree`: the value of that document;
* `read_compact`, `read_compact_iff`: reading undoes writing, for these values and no
  others;
* `read_compact_of_lt_depth`: what nests too deep is not read;
* `nodup_keys_of_read`: an object in what was read has no name twice.
-/

namespace RemoteRecords.Json

/-! ## Numbers -/

/-- Whether a number is read back from the text it is written as. -/
def Number.readsBack (n : Number) : Bool :=
  decide ((Numeral.read n.text).bind Number.ofNumeral? = some n)

/-- A number is written as a numeral. -/
theorem Number.isNumeral_text (n : Number) : IsNumeral n.text := by
  cases n with
  | integer n _ => exact Numeral.isNumeral_decimalInt n
  | double x => exact Numeral.isNumeral_write Number.layout x

theorem Number.readsBack_integer {n : Int} (h : Int64.minValue.toInt ≤ n ∧ n < UInt64.size) :
    (Number.integer n h).readsBack = true := by
  have hs : ¬((decide (n < 0)) = true ∧ n.natAbs = 0) := by
    rw [decide_eq_true_eq]
    omega
  have hn : (if decide (n < 0) = true then -(n.natAbs : Int) else n.natAbs) = n := by
    split
    · next hneg =>
      rw [decide_eq_true_eq] at hneg
      omega
    · next hneg =>
      rw [decide_eq_true_eq] at hneg
      omega
  rw [Number.readsBack, decide_eq_true_eq, Number.text, Numeral.read_decimalInt, Option.bind_some]
  simp only [Number.ofNumeral?, Text.ofDigits_decimal, hs, not_false_eq_true, and_self, ite_true, hn]
  simp only [Number.integer?, h, and_self, dite_true]
  rfl

/-! ## The document of a value -/

mutual

/-- The document as which a value is written. -/
def tree : Json → Tree
  | null => .word .null
  | bool b => .word (if b then .true else .false)
  | number n => .number n.text
  | text s => .text s
  | array items => .array (itemTrees items)
  | object members => .object (memberTrees members)

/-- The documents of the items of an array. -/
def itemTrees : List Json → List Tree
  | [] => []
  | v :: rest => v.tree :: itemTrees rest

/-- The documents of the members of an object. -/
def memberTrees : List (String × Json) → List (String × Tree)
  | [] => []
  | (name, v) :: rest => (name, v.tree) :: memberTrees rest

end

mutual

/-- How many arrays and objects stand in one another. -/
def depth : Json → Nat
  | array items => depthItems items + 1
  | object members => depthMembers members + 1
  | _ => 0

/-- The depth of the deepest item. -/
def depthItems : List Json → Nat
  | [] => 0
  | v :: rest => max v.depth (depthItems rest)

/-- The depth of the deepest member. -/
def depthMembers : List (String × Json) → Nat
  | [] => 0
  | (_, v) :: rest => max v.depth (depthMembers rest)

end

mutual

theorem depth_tree : ∀ v : Json, v.tree.depth = v.depth
  | null | bool _ | number _ | text _ => rfl
  | array items => congrArg (· + 1) (depthItems_itemTrees items)
  | object members => congrArg (· + 1) (depthMembers_memberTrees members)

theorem depthItems_itemTrees : ∀ items, Tree.depthItems (itemTrees items) = depthItems items
  | [] => rfl
  | v :: rest => by
    simp only [itemTrees, Tree.depthItems, depthItems, depth_tree v, depthItems_itemTrees rest]

theorem depthMembers_memberTrees :
    ∀ members, Tree.depthMembers (memberTrees members) = depthMembers members
  | [] => rfl
  | (_, v) :: rest => by
    simp only [memberTrees, Tree.depthMembers, depthMembers, depth_tree v,
      depthMembers_memberTrees rest]

end

theorem depthItems_le_iff {items : List Json} {n : Nat} :
    depthItems items ≤ n ↔ ∀ v ∈ items, v.depth ≤ n := by
  induction items with
  | nil => simp [depthItems]
  | cons v rest ih => rw [depthItems, Nat.max_le, ih, List.forall_mem_cons]

/-! ## Writing -/

/-- An escaped character, and what follows it. -/
theorem spellsChars_escapeChar {s l : List Char} (h : SpellsChars s l) (c : Char) :
    SpellsChars (escapeChar c ++ s) (c :: l) := by
  unfold escapeChar
  split
  · next hc => rw [hc]; exact .escape rfl h
  split
  · next hc => rw [hc]; exact .escape rfl h
  split
  · next hc => rw [hc]; exact .escape rfl h
  split
  · next hc => rw [hc]; exact .escape rfl h
  split
  · next hc => rw [hc]; exact .escape rfl h
  split
  · next hc => rw [hc]; exact .escape rfl h
  split
  · next hc => rw [hc]; exact .escape rfl h
  split
  · next hc =>
    have hq := Text.hexDigit?_hexChar (.inl rfl) (c.toNat / 16) (by omega)
    have hr := Text.hexDigit?_hexChar (.inl rfl) (c.toNat % 16) (by omega)
    have hz : Text.hexDigit? '0' = some 0 := rfl
    have hcode := SpellsCode.digits hz hz hq hr
    rw [show ((0 * 16 + 0) * 16 + c.toNat / 16) * 16 + c.toNat % 16 = c.toNat by omega] at hcode
    have := SpellsChars.code hcode (.inl (by omega)) h
    rwa [Char.ofNat_toNat] at this
  · next hq hb _ _ _ _ _ hc =>
    refine .plain ?_ h
    simp only [isPlain, Bool.and_eq_true, bne_iff_ne, ne_eq, decide_eq_true_eq]
    exact ⟨⟨hq, hb⟩, by omega⟩

/-- An escaped string spells the string that it was made from. -/
theorem spellsText_compactText (s : String) : SpellsText (compactText s) s := by
  have hchars : ∀ l : List Char, SpellsChars (l.flatMap escapeChar) l := by
    intro l
    induction l with
    | nil => exact .nil
    | cons c l ih => exact spellsChars_escapeChar ih c
  have := SpellsText.quoted (hchars s.toList)
  rwa [String.ofList_toList] at this

mutual

/-- A written value is a text of the grammar. -/
theorem spells_compact : ∀ v : Json, Spells v.compact v.tree
  | null => .word .null
  | bool true => .word .true
  | bool false => .word .false
  | number n => .number n.isNumeral_text
  | text s => .text (spellsText_compactText s)
  | array [] => .bracketed .nil
  | array (v :: rest) => by
    obtain ⟨body, he, hb⟩ := spellsItems_compact rest (spells_compact v)
    have := Spells.bracketed hb
    rwa [List.cons_append, ← he] at this
  | object [] => .braced .nil
  | object ((name, v) :: rest) => by
    obtain ⟨body, he, hb⟩ := spellsMembers_compact rest (spellsText_compactText name)
      (spells_compact v)
    have := Spells.braced hb
    rw [List.cons_append, ← he] at this
    have htext : compact (object ((name, v) :: rest)) =
        '\x7b' :: compactText name ++ ':' :: v.compact ++ compactMembers rest := rfl
    have htree : (object ((name, v) :: rest)).tree =
        .object ((name, v.tree) :: memberTrees rest) := rfl
    rw [htext, htree]
    simpa only [List.cons_append, List.nil_append, List.append_assoc] using this

/-- The first item and those after it. -/
theorem spellsItems_compact : ∀ (rest : List Json) {s : List Char} {t : Tree}, Spells s t →
    ∃ body, s ++ compactItems rest = body ++ [']'] ∧ SpellsItems body (t :: itemTrees rest)
  | [], s, _, h => ⟨s, rfl, .singleton h⟩
  | v :: rest, s, _, h => by
    obtain ⟨body, he, hb⟩ := spellsItems_compact rest (spells_compact v)
    refine ⟨s ++ [','] ++ body, ?_, .cons h (spellsMark ',') hb⟩
    rw [List.append_assoc, ← he, compactItems]
    simp

/-- The first member and those after it. -/
theorem spellsMembers_compact : ∀ (rest : List (String × Json)) {n s : List Char} {name : String}
    {t : Tree}, SpellsText n name → Spells s t →
    ∃ body, n ++ [':'] ++ s ++ compactMembers rest = body ++ ['\x7d'] ∧
      SpellsMembers body ((name, t) :: memberTrees rest)
  | [], n, s, _, _, hn, h => ⟨n ++ [':'] ++ s, rfl, .singleton hn (spellsMark ':') h⟩
  | (name, v) :: rest, n, s, _, _, hn, h => by
    obtain ⟨body, he, hb⟩ := spellsMembers_compact rest (spellsText_compactText name)
      (spells_compact v)
    refine ⟨n ++ [':'] ++ s ++ [','] ++ body, ?_, .cons hn (spellsMark ':') h (spellsMark ',') hb⟩
    rw [List.append_assoc _ body, ← he, compactMembers]
    simp

end

/-! ## The value of a document -/

mutual

/-- Whether each number of a value is read back and each object has a name only
once. -/
def readsBack : Json → Bool
  | number n => n.readsBack
  | array items => itemsReadBack items
  | object members => decide (members.map Prod.fst).Nodup && membersReadBack members
  | _ => true

/-- Whether each item is read back. -/
def itemsReadBack : List Json → Bool
  | [] => true
  | v :: rest => v.readsBack && itemsReadBack rest

/-- Whether the value of each member is read back. -/
def membersReadBack : List (String × Json) → Bool
  | [] => true
  | (_, v) :: rest => v.readsBack && membersReadBack rest

end

theorem itemsReadBack_eq_all (items : List Json) : itemsReadBack items = items.all readsBack := by
  induction items with
  | nil => rfl
  | cons v rest ih => simp [itemsReadBack, ih]

/-- Members with different names are their own object. -/
theorem merge_of_nodup {α : Type} {members : List (String × α)}
    (h : (members.map Prod.fst).Nodup) : merge members = members := by
  have : ∀ (rest done : List (String × α)), ((done ++ rest).map Prod.fst).Nodup →
      rest.foldl (fun done m => put done m.1 m.2) done = done ++ rest := by
    intro rest
    induction rest with
    | nil => simp
    | cons m rest ih =>
      intro done hd
      have hm : m.1 ∉ done.map Prod.fst := by
        rw [List.map_append, List.nodup_append] at hd
        exact fun hmem => hd.2.2 m.1 hmem m.1 (by simp) rfl
      rw [List.foldl_cons, put_of_not_mem m.2 hm, ih _ (by simpa using hd)]
      simp
  exact this members [] h

mutual

theorem ofTree?_tree : ∀ v : Json, v.readsBack = true → ofTree? v.tree = some v
  | null, _ => rfl
  | bool true, _ => rfl
  | bool false, _ => rfl
  | number n, h => by
    rw [readsBack, Number.readsBack, decide_eq_true_eq] at h
    rw [tree, ofTree?, h]
    rfl
  | text _, _ => rfl
  | array items, h => by
    rw [readsBack] at h
    rw [tree, ofTree?, ofItems?_itemTrees items h]
    rfl
  | object members, h => by
    rw [readsBack, Bool.and_eq_true, decide_eq_true_eq] at h
    rw [tree, ofTree?, ofMembers?_memberTrees members h.2, Option.map_some, merge_of_nodup h.1]

theorem ofItems?_itemTrees :
    ∀ items : List Json, itemsReadBack items = true → ofItems? (itemTrees items) = some items
  | [], _ => rfl
  | v :: rest, h => by
    rw [itemsReadBack, Bool.and_eq_true] at h
    rw [itemTrees, ofItems?, ofTree?_tree v h.1, ofItems?_itemTrees rest h.2]
    rfl

theorem ofMembers?_memberTrees : ∀ members : List (String × Json), membersReadBack members = true →
    ofMembers? (memberTrees members) = some members
  | [], _ => rfl
  | (_, v) :: rest, h => by
    rw [membersReadBack, Bool.and_eq_true] at h
    rw [memberTrees, ofMembers?, ofTree?_tree v h.1, ofMembers?_memberTrees rest h.2]
    rfl

end

/-! ## Reading undoes writing -/

theorem nodup_keys_put {α : Type} {members : List (String × α)}
    (h : (members.map Prod.fst).Nodup) (name : String) (value : α) :
    ((put members name value).map Prod.fst).Nodup := by
  by_cases hm : name ∈ members.map Prod.fst
  · rwa [keys_put value hm]
  · rw [put_of_not_mem value hm, List.map_append, List.nodup_append]
    refine ⟨h, List.pairwise_singleton _ _, ?_⟩
    rintro a ha b hb rfl
    have hname : a = name := List.mem_singleton.mp hb
    exact hm (hname ▸ ha)

/-- An object has each of its names once. -/
theorem nodup_keys_merge {α : Type} (members : List (String × α)) :
    ((merge members).map Prod.fst).Nodup := by
  suffices h : ∀ done : List (String × α), (done.map Prod.fst).Nodup →
      ((members.foldl (fun done m => put done m.1 m.2) done).map Prod.fst).Nodup from
    h [] List.nodup_nil
  induction members with
  | nil => exact fun done h => h
  | cons m rest ih => exact fun done h => ih _ (nodup_keys_put h m.1 m.2)

theorem mem_of_mem_put {α : Type} {members : List (String × α)} {name : String} {value : α}
    {m : String × α} (h : m ∈ put members name value) : m = (name, value) ∨ m ∈ members := by
  induction members with
  | nil => exact .inl (List.mem_singleton.mp h)
  | cons first rest ih =>
    obtain ⟨key, old⟩ := first
    rw [put] at h
    split at h
    · next hk =>
      rcases List.mem_cons.mp h with rfl | h
      · exact .inl (hk ▸ rfl)
      · exact .inr (List.mem_cons_of_mem _ h)
    · rcases List.mem_cons.mp h with rfl | h
      · exact .inr List.mem_cons_self
      · exact (ih h).imp id (List.mem_cons_of_mem _)

/-- An object holds nothing but the members that were put into it. -/
theorem mem_of_mem_merge {α : Type} {members : List (String × α)} {m : String × α}
    (h : m ∈ merge members) : m ∈ members := by
  suffices hfold : ∀ done : List (String × α),
      m ∈ members.foldl (fun done m => put done m.1 m.2) done → m ∈ done ∨ m ∈ members from
    (hfold [] h).resolve_left List.not_mem_nil
  clear h
  induction members with
  | nil => exact fun done h => .inl h
  | cons first rest ih =>
    intro done h
    rcases ih _ h with h | h
    · rcases mem_of_mem_put h with rfl | h
      · exact .inr List.mem_cons_self
      · exact .inl h
    · exact .inr (List.mem_cons_of_mem _ h)

theorem exists_ofTree?_of_mem {trees : List (String × Tree)} {members : List (String × Json)}
    (h : ofMembers? trees = some members) {m : String × Json} (hm : m ∈ members) :
    ∃ t, ofTree? t = some m.2 := by
  induction trees generalizing members with
  | nil =>
    cases h
    exact absurd hm List.not_mem_nil
  | cons first rest ih =>
    obtain ⟨name, t⟩ := first
    obtain ⟨v, hv, hrest⟩ := Option.bind_eq_some_iff.mp h
    obtain ⟨more, hmore, rfl⟩ := Option.map_eq_some_iff.mp hrest
    rcases List.mem_cons.mp hm with rfl | hm
    · exact ⟨t, hv⟩
    · exact ih hmore hm

/-- An object of a document was put together from the members of the document. -/
theorem exists_members_of_ofTree? {t : Tree} {members : List (String × Json)}
    (h : ofTree? t = some (object members)) :
    ∃ trees read, ofMembers? trees = some read ∧ merge read = members := by
  cases t with
  | object trees =>
    obtain ⟨read, hread, he⟩ := Option.map_eq_some_iff.mp h
    exact ⟨trees, read, hread, object.inj he⟩
  | word w => cases w <;> cases Option.some.inj h
  | number spelling =>
    obtain ⟨n, -, he⟩ := Option.map_eq_some_iff.mp h
    cases he
  | text s => cases Option.some.inj h
  | array items =>
    obtain ⟨read, -, he⟩ := Option.map_eq_some_iff.mp h
    cases he

/-- An object that stands in what a text was read as has each of its names once. -/
theorem nodup_keys_of_read {s : List Char} {v : Json} (h : read s = some v) {name : String}
    {members : List (String × Json)} (hm : v.get? name = some (object members)) :
    (members.map Prod.fst).Nodup := by
  obtain ⟨t, -, ht⟩ := Option.bind_eq_some_iff.mp h
  split at ht
  · cases v with
    | object outer =>
      obtain ⟨trees, read, hread, rfl⟩ := exists_members_of_ofTree? ht
      obtain ⟨before, after, hsplit, -⟩ := List.lookup_eq_some_iff.mp hm
      have hmem : (name, object members) ∈ merge read := by
        rw [hsplit]
        exact List.mem_append_right _ List.mem_cons_self
      obtain ⟨inner, hinner⟩ := exists_ofTree?_of_mem hread (mem_of_mem_merge hmem)
      obtain ⟨-, own, -, rfl⟩ := exists_members_of_ofTree? hinner
      exact nodup_keys_merge own
    | _ => cases hm
  · cases ht

theorem keys_of_ofMembers? {trees : List (String × Tree)} {members : List (String × Json)}
    (h : ofMembers? trees = some members) : members.map Prod.fst = trees.map Prod.fst := by
  induction trees generalizing members with
  | nil =>
    cases h
    rfl
  | cons m rest ih =>
    obtain ⟨name, t⟩ := m
    obtain ⟨v, -, hv⟩ := Option.bind_eq_some_iff.mp h
    obtain ⟨more, hmore, rfl⟩ := Option.map_eq_some_iff.mp hv
    rw [List.map_cons, ih hmore]
    rfl

theorem keys_memberTrees (members : List (String × Json)) :
    (memberTrees members).map Prod.fst = members.map Prod.fst := by
  induction members with
  | nil => rfl
  | cons m rest ih => rw [memberTrees, List.map_cons, ih, List.map_cons]

/-- An object that is the value of its own document has each name once, so nothing
was put in the place of anything. -/
theorem ofMembers?_of_object {members : List (String × Json)}
    (h : ofTree? (object members).tree = some (object members)) :
    (members.map Prod.fst).Nodup ∧ ofMembers? (memberTrees members) = some members := by
  rw [tree, ofTree?] at h
  obtain ⟨read, hread, hmerge⟩ := Option.map_eq_some_iff.mp h
  have hmerge : merge read = members := object.inj hmerge
  have hnames : (members.map Prod.fst).Nodup := hmerge ▸ nodup_keys_merge read
  have hkeys : read.map Prod.fst = members.map Prod.fst :=
    (keys_of_ofMembers? hread).trans (keys_memberTrees members)
  rw [merge_of_nodup (hkeys ▸ hnames)] at hmerge
  exact ⟨hnames, hmerge ▸ hread⟩

mutual

theorem readsBack_of_ofTree? : ∀ v : Json, ofTree? v.tree = some v → v.readsBack = true
  | null, _ | bool _, _ | text _, _ => rfl
  | number n, h => by
    rw [tree, ofTree?] at h
    obtain ⟨m, hm, he⟩ := Option.map_eq_some_iff.mp h
    rw [readsBack, Number.readsBack, decide_eq_true_eq, hm, number.inj he]
  | array items, h => by
    rw [tree, ofTree?] at h
    obtain ⟨read, hread, he⟩ := Option.map_eq_some_iff.mp h
    rw [array.inj he] at hread
    rw [readsBack, itemsReadBack_of_ofItems? items hread]
  | object members, h => by
    obtain ⟨hnames, hread⟩ := ofMembers?_of_object h
    rw [readsBack, decide_eq_true hnames, membersReadBack_of_ofMembers? members hread]
    rfl

theorem itemsReadBack_of_ofItems? : ∀ items : List Json,
    ofItems? (itemTrees items) = some items → itemsReadBack items = true
  | [], _ => rfl
  | v :: rest, h => by
    rw [itemTrees, ofItems?] at h
    obtain ⟨w, hw, hrest⟩ := Option.bind_eq_some_iff.mp h
    obtain ⟨more, hmore, he⟩ := Option.map_eq_some_iff.mp hrest
    obtain ⟨rfl, rfl⟩ := List.cons.inj he
    rw [itemsReadBack, readsBack_of_ofTree? w hw, itemsReadBack_of_ofItems? more hmore]
    rfl

theorem membersReadBack_of_ofMembers? : ∀ members : List (String × Json),
    ofMembers? (memberTrees members) = some members → membersReadBack members = true
  | [], _ => rfl
  | (name, v) :: rest, h => by
    rw [memberTrees, ofMembers?] at h
    obtain ⟨w, hw, hrest⟩ := Option.bind_eq_some_iff.mp h
    obtain ⟨more, hmore, he⟩ := Option.map_eq_some_iff.mp hrest
    obtain ⟨hm, rfl⟩ := List.cons.inj he
    obtain ⟨-, rfl⟩ := Prod.mk.inj hm
    rw [membersReadBack, readsBack_of_ofTree? w hw, membersReadBack_of_ofMembers? more hmore]
    rfl

end

/-- Reading undoes writing. -/
theorem read_compact {v : Json} (hd : v.depth ≤ maxDepth) (hr : v.readsBack = true) :
    read v.compact = some v := by
  rw [read, (spells_compact v).document.read, Option.bind_some, depth_tree, if_pos hd,
    ofTree?_tree v hr]

/-- What is written from a value that nests too deep is not read. -/
theorem read_compact_of_lt_depth {v : Json} (h : maxDepth < v.depth) : read v.compact = none := by
  rw [read, (spells_compact v).document.read, Option.bind_some, depth_tree,
    if_neg (Nat.not_le.mpr h)]

/-- A value is read back from its text exactly if all its numbers are and it has no
name twice. -/
theorem read_compact_iff {v : Json} (hd : v.depth ≤ maxDepth) :
    read v.compact = some v ↔ v.readsBack = true := by
  refine ⟨fun h => ?_, read_compact hd⟩
  rw [read, (spells_compact v).document.read, Option.bind_some, depth_tree, if_pos hd] at h
  exact readsBack_of_ofTree? v h

end RemoteRecords.Json
