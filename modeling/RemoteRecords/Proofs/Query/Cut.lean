import RemoteRecords.Proofs.Json.Scan
import RemoteRecords.Proofs.Query.Parts
import RemoteRecords.Proofs.Text.Cut
import RemoteRecords.Proofs.Text.Decimal

/-!
# Fragments that say where they end

As long as no string holds a quote, a fragment of a payload says what it was made
from and where it ends, whatever follows it: a string up to its closing quote,
and a list up to its closing mark.

* `Fragment.quoted_append_inj`, `Fragment.list_append_inj`: strings and lists;
* `Join.render_append_inj`, `SortOrder.render_append_inj`,
  `Grouping.render_append_inj`: clauses.
-/

namespace RemoteRecords

open Json (Ends ends_cons Numeral isNumberChar isWordChar)

/-- A string without quotes. -/
def IsQuoteFree (s : String) : Prop :=
  '"' ∉ s.toList

instance (s : String) : Decidable (IsQuoteFree s) := by
  unfold IsQuoteFree; infer_instance

namespace Fragment

variable {r r' : List Char}

theorem quoted_inj {s t : String} (h : quoted s = quoted t) : s = t :=
  String.toList_injective (List.append_cancel_right (List.cons.inj h).2)

theorem quoted_append_inj {s t : String} (hs : IsQuoteFree s) (ht : IsQuoteFree t)
    (h : quoted s ++ r = quoted t ++ r') : s = t ∧ r = r' := by
  simp only [quoted, List.cons_append, List.append_assoc, List.nil_append, List.cons.injEq,
    true_and] at h
  obtain ⟨he, hr⟩ := Text.append_cons_inj_of_not_mem hs ht h
  exact ⟨String.toList_injective he, hr⟩

/-- What stands behind the first item of a list, up to and with its end. -/
def behindFirst (separator : List Char) (rest : List (List Char)) (ending : List Char) :
    List Char :=
  if rest = [] then ending else separator ++ (list separator rest ++ ending)

theorem list_cons_append (separator item : List Char) (rest : List (List Char))
    (ending : List Char) : list separator (item :: rest) ++ ending =
      item ++ behindFirst separator rest ending := by
  cases rest with
  | nil => rfl
  | cons next rest =>
    rw [behindFirst, if_neg (List.cons_ne_nil _ _), list, List.append_assoc, List.append_assoc]

/-- Items that say where they end make a list that does. -/
theorem list_append_inj {α β : Type} {render : α → List Char} {key : α → β} {c close : Char}
    {separator : List Char} (hne : c ≠ close) (hc : ∀ s, Ends (c :: s))
    (hclose : ∀ s, Ends (close :: s)) {l l' : List α}
    (hitem : ∀ a ∈ l, ∀ b ∈ l', ∀ {s s'}, Ends s → Ends s' → render a ++ s = render b ++ s' →
      key a = key b ∧ s = s')
    (hl : ∀ a ∈ l, ∀ s s', render a ++ s ≠ close :: s')
    (hl' : ∀ a ∈ l', ∀ s s', render a ++ s ≠ close :: s')
    (h : list (c :: separator) (l.map render) ++ close :: r =
      list (c :: separator) (l'.map render) ++ close :: r') :
    l.map key = l'.map key ∧ r = r' := by
  have hends : ∀ (rest : List (List Char)) (s : List Char),
      Ends (behindFirst (c :: separator) rest (close :: s)) := by
    intro rest s
    rw [behindFirst]
    split
    · exact hclose _
    · exact hc _
  induction l generalizing l' with
  | nil =>
    cases l' with
    | nil => exact ⟨rfl, (List.cons.inj h).2⟩
    | cons b rest =>
      rw [List.map_cons, list_cons_append] at h
      exact absurd h.symm (hl' b List.mem_cons_self _ _)
  | cons a rest ih =>
    cases l' with
    | nil =>
      rw [List.map_cons, list_cons_append] at h
      exact absurd h (hl a List.mem_cons_self _ _)
    | cons b rest' =>
      rw [List.map_cons, List.map_cons, list_cons_append, list_cons_append] at h
      obtain ⟨hk, h⟩ := hitem a List.mem_cons_self b List.mem_cons_self (hends _ _) (hends _ _) h
      have ih : list (c :: separator) (rest.map render) ++ close :: r =
          list (c :: separator) (rest'.map render) ++ close :: r' →
            rest.map key = rest'.map key ∧ r = r' :=
        ih (fun d hd e he => hitem d (List.mem_cons_of_mem _ hd) e (List.mem_cons_of_mem _ he))
          (fun d hd => hl d (List.mem_cons_of_mem _ hd))
          (fun d hd => hl' d (List.mem_cons_of_mem _ hd))
      rw [List.map_cons, List.map_cons, hk]
      cases rest with
      | nil =>
        cases rest' with
        | nil => exact ⟨rfl, (List.cons.inj h).2⟩
        | cons => exact absurd (List.cons.inj h).1.symm hne
      | cons d rest =>
        cases rest' with
        | nil => exact absurd (List.cons.inj h).1 hne
        | cons e rest' =>
          obtain ⟨hkeys, hr⟩ := ih (List.append_cancel_left (List.cons.inj h).2)
          exact ⟨by rw [hkeys], hr⟩

theorem quoted_append_ne {s t : List Char} {name : String} {c : Char} (hc : c ≠ '"') :
    quoted name ++ s ≠ c :: t := fun h => hc (List.cons.inj h).1.symm

/-- Strings in a list. -/
theorem texts_append_inj {l l' : List String} (hl : ∀ s ∈ l, IsQuoteFree s)
    (hl' : ∀ s ∈ l', IsQuoteFree s)
    (h : list [','] (l.map quoted) ++ ']' :: r = list [','] (l'.map quoted) ++ ']' :: r') :
    l = l' ∧ r = r' := by
  have : l.map id = l'.map id ∧ r = r' :=
    list_append_inj (by decide) Json.ends_comma Json.ends_closeBracket
      (fun a ha b hb _ _ _ _ => quoted_append_inj (hl a ha) (hl' b hb))
      (fun _ _ _ _ => quoted_append_ne (by decide)) (fun _ _ _ _ => quoted_append_ne (by decide)) h
  simpa using this

end Fragment

/-! ## Clauses -/

section Clauses

variable {r r' : List Char}

theorem ModelId.text_inj {m n : ModelId} (h : m.text = n.text) : m = n :=
  Int64.toInt_inj.mp (Text.decimalInt_inj h)

theorem ModelId.quote_not_mem_text (m : ModelId) : '"' ∉ m.text :=
  Text.not_mem_decimalInt (by decide) (by decide) _

/-- The number of a model up to what ends a number. -/
theorem ModelId.text_append_inj {m n : ModelId} (hr : Ends r) (hr' : Ends r')
    (h : m.text ++ r = n.text ++ r') : m = n ∧ r = r' := by
  obtain ⟨he, h⟩ := Text.append_inj_of_all
    (Numeral.isNumberChar_of_isNumeral (Numeral.isNumeral_decimalInt m.toInt)).2
    (Numeral.isNumberChar_of_isNumeral (Numeral.isNumeral_decimalInt n.toInt)).2
    (fun c hc => (hr c hc).1) (fun c hc => (hr' c hc).1) h
  exact ⟨ModelId.text_inj he, h⟩

theorem JoinKind.isQuoteFree_name (k : JoinKind) : IsQuoteFree k.name := by
  cases k <;> decide

theorem Join.render_append_inj {j k : Join} (hj : ∀ s ∈ j.texts, IsQuoteFree s)
    (hk : ∀ s ∈ k.texts, IsQuoteFree s) (h : j.render ++ r = k.render ++ r') :
    j = k ∧ r = r' := by
  obtain ⟨kind, target, label, criterion⟩ := j
  obtain ⟨kind', target', label', criterion'⟩ := k
  simp only [texts, List.forall_mem_cons] at hj hk
  unfold Join.render at h
  simp only [List.append_assoc, List.cons_append] at h
  obtain ⟨hkind, h⟩ := Fragment.quoted_append_inj kind.isQuoteFree_name kind'.isQuoteFree_name
    (List.append_cancel_left h)
  obtain ⟨hlabel, h⟩ := Fragment.quoted_append_inj hj.1 hk.1 (List.append_cancel_left h)
  obtain ⟨htarget, h⟩ := Text.append_cons_inj_of_not_mem target.quote_not_mem_text
    target'.quote_not_mem_text (List.cons.inj (List.append_cancel_left h)).2
  obtain ⟨hcriterion, h⟩ := Fragment.quoted_append_inj hj.2.1 hk.2.1 (List.append_cancel_left h)
  rw [JoinKind.name_inj hkind, show label = label' from hlabel, ModelId.text_inj htarget,
    show criterion = criterion' from hcriterion]
  exact ⟨rfl, List.append_cancel_left h⟩

theorem Join.render_append_ne {c : Char} (hc : c ≠ '\x7b') (j : Join) (s t : List Char) :
    j.render ++ s ≠ c :: t := by
  intro h
  unfold Join.render at h
  simp only [List.append_assoc] at h
  exact hc (List.cons.inj h).1.symm

theorem Join.renderAll_append_inj {js ks : List Join} (hj : ∀ s ∈ js.flatMap texts, IsQuoteFree s)
    (hk : ∀ s ∈ ks.flatMap texts, IsQuoteFree s) (h : renderAll js ++ r = renderAll ks ++ r') :
    js = ks ∧ r = r' := by
  unfold renderAll at h
  simp only [List.append_assoc, List.cons_append, List.nil_append] at h
  have : js.map id = ks.map id ∧ r = r' :=
    Fragment.list_append_inj (by decide) Json.ends_comma Json.ends_closeBracket
      (fun a ha b hb _ _ _ _ => render_append_inj
        (fun s hs => hj s (List.mem_flatMap.mpr ⟨a, ha, hs⟩))
        (fun s hs => hk s (List.mem_flatMap.mpr ⟨b, hb, hs⟩)))
      (fun a _ => a.render_append_ne (by decide)) (fun a _ => a.render_append_ne (by decide))
      (List.append_cancel_left h)
  simpa using this

/-- The direction of an ordering is told by its last letters. -/
theorem SortOrder.text_inj {o p : SortOrder}
    (h : (o.field ++ if o.ascending then " ASC" else " DESC") =
      p.field ++ if p.ascending then " ASC" else " DESC") : o = p := by
  obtain ⟨field, ascending⟩ := o
  obtain ⟨field', ascending'⟩ := p
  have h := congrArg (fun s : String => s.toList.reverse) h
  simp only [String.toList_append, List.reverse_append] at h
  cases ascending <;> cases ascending'
  · rw [String.toList_injective (List.reverse_inj.mp (List.append_cancel_left h))]
  · simp at h
  · simp at h
  · rw [String.toList_injective (List.reverse_inj.mp (List.append_cancel_left h))]

theorem isQuoteFree_append {s t : String} (hs : IsQuoteFree s) (ht : IsQuoteFree t) :
    IsQuoteFree (s ++ t) := by
  rw [IsQuoteFree, String.toList_append, List.mem_append, not_or]
  exact ⟨hs, ht⟩

theorem SortOrder.render_append_inj {o p : SortOrder} (ho : IsQuoteFree o.field)
    (hp : IsQuoteFree p.field) (h : o.render ++ r = p.render ++ r') : o = p ∧ r = r' := by
  have hd : ∀ b : Bool, IsQuoteFree (if b then " ASC" else " DESC") := by decide
  unfold SortOrder.render at h
  rw [List.append_assoc, List.append_assoc] at h
  obtain ⟨he, h⟩ := Fragment.quoted_append_inj (isQuoteFree_append ho (hd _))
    (isQuoteFree_append hp (hd _)) (List.append_cancel_left h)
  exact ⟨SortOrder.text_inj he, h⟩

theorem Grouping.render_append_inj {g k : Grouping} (hg : ∀ s ∈ g.fields, IsQuoteFree s)
    (hk : ∀ s ∈ k.fields, IsQuoteFree s) (h : g.render ++ r = k.render ++ r') :
    g = k ∧ r = r' := by
  obtain ⟨fields⟩ := g
  obtain ⟨fields'⟩ := k
  unfold Grouping.render at h
  simp only [List.append_assoc, List.cons_append, List.nil_append] at h
  obtain ⟨he, h⟩ := Fragment.texts_append_inj hg hk (List.append_cancel_left h)
  exact ⟨congrArg Grouping.mk he, h⟩

/-! ## Parts that may be missing -/

/-- A part that may be missing, told from what follows by one of its characters. -/
theorem optional_append_inj {α : Type} {fragment : Option α → List Char} {i : Nat} {c : Char}
    (hnone : fragment none = []) (hsome : ∀ a s, (fragment (some a) ++ s)[i]? = some c)
    {o o' : Option α} (hitem : ∀ a ∈ o, ∀ b ∈ o', fragment (some a) ++ r = fragment (some b) ++ r' →
      a = b ∧ r = r')
    (hr : r[i]? ≠ some c) (hr' : r'[i]? ≠ some c) (h : fragment o ++ r = fragment o' ++ r') :
    o = o' ∧ r = r' := by
  cases o with
  | none =>
    cases o' with
    | none =>
      rw [hnone] at h
      exact ⟨rfl, h⟩
    | some b =>
      rw [hnone, List.nil_append] at h
      rw [h] at hr
      exact absurd (hsome b r') hr
  | some a =>
    cases o' with
    | none =>
      rw [hnone, List.nil_append] at h
      rw [← h] at hr'
      exact absurd (hsome a r) hr'
    | some b =>
      obtain ⟨he, h⟩ := hitem a rfl b rfl h
      exact ⟨congrArg some he, h⟩

theorem labelFragment_append_inj {l l' : Option String} (hl : ∀ s ∈ l, IsQuoteFree s)
    (hl' : ∀ s ∈ l', IsQuoteFree s) (hr : r[1]? ≠ some 'a') (hr' : r'[1]? ≠ some 'a')
    (h : labelFragment l ++ r = labelFragment l' ++ r') : l = l' ∧ r = r' := by
  refine optional_append_inj rfl (fun a s => ?_) (fun a ha b hb h => ?_) hr hr' h
  · unfold labelFragment
    simp only [List.append_assoc]
    rfl
  · unfold labelFragment at h
    simp only [List.append_assoc] at h
    obtain ⟨he, h⟩ := Fragment.quoted_append_inj (hl a ha) (hl' b hb) (List.append_cancel_left h)
    exact ⟨he, List.append_cancel_left h⟩

theorem modelFragment_append_inj {m m' : Option ModelId} (hr : r[1]? ≠ some 'm')
    (hr' : r'[1]? ≠ some 'm') (h : modelFragment m ++ r = modelFragment m' ++ r') :
    m = m' ∧ r = r' := by
  refine optional_append_inj rfl (fun a s => ?_) (fun a _ b _ h => ?_) hr hr' h
  · unfold modelFragment
    simp only [List.append_assoc]
    rfl
  · have hgap : ", ".toList = [',', ' '] := rfl
    unfold modelFragment at h
    simp only [hgap, List.append_assoc, List.cons_append, List.nil_append] at h
    obtain ⟨he, h⟩ := ModelId.text_append_inj (Json.ends_comma _) (Json.ends_comma _)
      (List.append_cancel_left h)
    exact ⟨he, (List.cons.inj (List.cons.inj h).2).2⟩

/-- What an existence check says before its filter. -/
theorem checkHead_append_inj {n n' : Bool} {m m' : Option ModelId} {l l' : Option String}
    {js js' : List Join} (hl : ∀ s ∈ l, IsQuoteFree s) (hl' : ∀ s ∈ l', IsQuoteFree s)
    (hj : ∀ s ∈ js.flatMap Join.texts, IsQuoteFree s)
    (hj' : ∀ s ∈ js'.flatMap Join.texts, IsQuoteFree s)
    (h : checkHead n m l js ++ ("\"where\": \x7b".toList ++ r) =
      checkHead n' m' l' js' ++ ("\"where\": \x7b".toList ++ r')) :
    (n = n' ∧ m = m' ∧ l = l' ∧ js = js') ∧ r = r' := by
  have hkey : ∀ b : Bool, IsQuoteFree (if b then "$nexists" else "$exists") := by decide
  have hname : ∀ a b : Bool, (if a then "$nexists" else "$exists") =
      (if b then "$nexists" else "$exists") → a = b := by decide
  have hlabel : ∀ (o : Option String) (s : List Char),
      (labelFragment o ++ ("\"where\": \x7b".toList ++ s))[1]? ≠ some 'm' := by
    intro o s
    cases o with
    | none => exact fun e => absurd (Option.some.inj e) (by decide)
    | some a =>
      unfold labelFragment
      simp only [List.append_assoc]
      exact fun e => absurd (Option.some.inj e) (by decide)
  have hwhere : ∀ s : List Char, ("\"where\": \x7b".toList ++ s)[1]? ≠ some 'a' := fun s e =>
    absurd (Option.some.inj e) (by decide)
  unfold checkHead at h
  simp only [List.append_assoc] at h
  obtain ⟨hn, h⟩ := Fragment.quoted_append_inj (hkey n) (hkey n') h
  obtain ⟨hjs, h⟩ := Join.renderAll_append_inj hj hj' (List.append_cancel_left h)
  obtain ⟨hm, h⟩ := modelFragment_append_inj (hlabel _ _) (hlabel _ _) (List.append_cancel_left h)
  obtain ⟨hl, h⟩ := labelFragment_append_inj hl hl' (hwhere _) (hwhere _) h
  exact ⟨⟨hname _ _ hn, hm, hl, hjs⟩, List.append_cancel_left h⟩

end Clauses

end RemoteRecords
