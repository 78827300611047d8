import TableStore.Proofs.Directives
import TableStore.Proofs.Snippets

/-!
# Clauses that sort

A listing is sorted by a clause that is put together from texts of requests. **Such a clause is
closed** (`SortKey.sort_clauses_are_closed`): it consists of one term for each directive, with the
text of the field (`SortField.text`) and a keyword, and the only characters that come from a
directive are the letters, digits and underscores of a property key. It is also faithful: from the
clause the keys that it sorts by can be read off.

Terms are read off one after another. What the text of a field is followed by starts with a blank,
and a text of a field with a blank after it begins no other one (`SortField.text_append_inj`), so a
clause with the terms of two lists of keys has the same first key in both, and the same rest
(`SortKey.term_append_inj`, `SortKey.terms_injective`).
-/

namespace TableStore

/-! ### Texts that begin alike -/

namespace Text

variable {sep c : Char} {a a' b b' front : List Char}

theorem append_cons_inj (ha : sep ∉ a) (ha' : sep ∉ a') (h : a ++ sep :: b = a' ++ sep :: b') :
    a = a' ∧ b = b' := by
  have hcut : cutAt sep (a ++ sep :: b) = cutAt sep (a' ++ sep :: b') := congrArg _ h
  rw [cutAt_append ha, cutAt_append ha'] at hcut
  exact Prod.mk.inj (Option.some.inj hcut)

/-- A text with a character after it is not continued by it when something without this character
is put before the text. -/
theorem append_cons_ne (hc : c ∉ front) (hne : front ≠ []) :
    a ++ c :: b ≠ front ++ (a ++ b') := by
  induction hlength : a.length using Nat.strong_induction_on generalizing a with
  | _ n ih =>
    intro h
    rcases List.append_eq_append_iff.mp h with ⟨rest, hfront, hrest⟩ | ⟨rest, ha, hrest⟩
    · cases rest with
      | nil =>
        obtain ⟨d, front, rfl⟩ := List.exists_cons_of_ne_nil hne
        rw [List.append_nil] at hfront
        rw [← hfront, List.nil_append, List.cons_append, List.cons.injEq] at hrest
        exact hc (hrest.1 ▸ List.mem_cons_self)
      | cons d rest =>
        rw [List.cons_append, List.cons.injEq] at hrest
        exact hc (hfront ▸ hrest.1 ▸ by simp)
    · -- the text begins with what was put before it, and the rest of it is shorter
      have hshorter : rest.length < n := by
        have hpos := List.length_pos_iff.mpr hne
        rw [ha, List.length_append] at hlength
        omega
      rw [ha, List.append_assoc] at hrest
      exact ih rest.length hshorter rfl hrest.symm

end Text

/-! ### Fields -/

namespace SortField

open Sql (Engine)

variable {engine : Engine} {qualifier : String} {f g : SortField} {a b : List Char}

/-- What an engine is asked for to sort by a field. -/
def text (engine : Engine) (qualifier : String) : SortField → String
  | .id => qualifier ++ ".id"
  | .type => qualifier ++ ".type"
  | .createdAt => qualifier ++ ".created_at"
  | .updatedAt => qualifier ++ ".updated_at"
  | .property key => engine.keyText (qualifier ++ ".properties") key

theorem expression_eq_text (hq : Text.contains qualifier "json_key" = false) (f : SortField) :
    f.expression engine.dialect qualifier = f.text engine qualifier := by
  cases f with
  | property key => exact engine.jsonText_properties hq key
  | _ => rfl

/-- A field is a property, or it is asked for by its name. -/
theorem property_or_text (engine : Engine) (qualifier : String) (f : SortField) :
    (∃ key, f = .property key) ∨
      f.IsValid ∧ f.name ≠ "properties" ∧ f.text engine qualifier = qualifier ++ "." ++ f.name := by
  cases f with
  | property key => exact .inl ⟨key, rfl⟩
  | _ => exact .inr ⟨trivial, by decide, by rw [String.append_assoc]; rfl⟩

theorem name_injective (hf : f.IsValid) (hg : g.IsValid) (h : f.name = g.name) : f = g := by
  have hread := read_name hf
  rw [h, read_name hg] at hread
  exact (Except.ok.inj hread).symm

theorem blank_notMem_name (hf : f.IsValid) : ' ' ∉ f.name.toList := fun hmem => by
  have hblank := (spec_of_mem_name hf hmem).1
  revert hblank
  decide

/-- There are no quotes in the key of a property. -/
theorem quote_notMem_key {key : String} (h : (SortField.property key).IsValid) :
    '"' ∉ key.toList ∧ '\'' ∉ key.toList := by
  have hkey := (isValid_property.mp h).2
  exact ⟨fun hmem => absurd (hkey _ hmem) (by decide),
    fun hmem => absurd (hkey _ hmem) (by decide)⟩

/-- The key of a property ends where its quote ends. -/
theorem keyText_append_inj {key key' : String} (hf : (SortField.property key).IsValid)
    (hg : (SortField.property key').IsValid)
    (h : (engine.keyText qualifier key).toList ++ ' ' :: a =
      (engine.keyText qualifier key').toList ++ ' ' :: b) : key = key' ∧ a = b := by
  cases engine with
  | embedded =>
    simp only [Engine.keyText, String.toList_append, List.append_assoc,
      List.append_cancel_left_eq] at h
    obtain ⟨hkey, hrest⟩ := Text.append_cons_inj (quote_notMem_key hf).1 (quote_notMem_key hg).1 h
    exact ⟨String.toList_inj.mp hkey, by simpa using hrest⟩
  | server =>
    simp only [Engine.keyText, String.toList_append, List.append_assoc,
      List.append_cancel_left_eq] at h
    obtain ⟨hkey, hrest⟩ := Text.append_cons_inj (quote_notMem_key hf).2 (quote_notMem_key hg).2 h
    exact ⟨String.toList_inj.mp hkey, by simpa using hrest⟩

/-- A property is not asked for as another field is. -/
theorem text_property_ne {key : String} (hf : f.IsValid) (hname : f.name ≠ "properties") :
    (engine.keyText (qualifier ++ ".properties") key).toList ++ ' ' :: a ≠
      (qualifier ++ "." ++ f.name).toList ++ ' ' :: b := by
  intro h
  cases engine with
  | embedded =>
    simp only [Engine.keyText, String.toList_append, List.append_assoc] at h
    exact Text.append_cons_ne (by decide) (by decide) h.symm
  | server =>
    simp only [Engine.keyText, String.toList_append, List.append_assoc] at h
    have hdot : ".".toList ++ ("properties".toList ++ ' ' :: ("->> '".toList ++ (key.toList ++
        ("'".toList ++ ' ' :: a)))) = ".".toList ++ (f.name.toList ++ ' ' :: b) :=
      List.append_cancel_left h
    have hwords := List.append_cancel_left hdot
    have hsame := (Text.append_cons_inj (by decide) (blank_notMem_name hf) hwords).1
    exact hname (String.toList_inj.mp hsame).symm

/-- **A text of a field with a blank after it begins no other one.** -/
theorem text_append_inj (hf : f.IsValid) (hg : g.IsValid)
    (h : (f.text engine qualifier).toList ++ ' ' :: a =
      (g.text engine qualifier).toList ++ ' ' :: b) : f = g ∧ a = b := by
  rcases property_or_text engine qualifier f with ⟨key, rfl⟩ | ⟨-, hfname, hftext⟩ <;>
    rcases property_or_text engine qualifier g with ⟨key', rfl⟩ | ⟨-, hgname, hgtext⟩
  · obtain ⟨hkey, hrest⟩ := keyText_append_inj hf hg h
    exact ⟨hkey ▸ rfl, hrest⟩
  · rw [hgtext] at h
    exact absurd h (text_property_ne hg hgname)
  · rw [hftext] at h
    exact absurd h.symm (text_property_ne hf hfname)
  · simp only [hftext, hgtext, String.toList_append, List.append_assoc,
      List.append_cancel_left_eq] at h
    obtain ⟨hname, hrest⟩ := Text.append_cons_inj (blank_notMem_name hf) (blank_notMem_name hg) h
    exact ⟨name_injective hf hg (String.toList_inj.mp hname), hrest⟩

end SortField

/-! ### Terms -/

namespace SortKey

open Sql (Engine)

variable {engine : Engine} {qualifier : String} {k l : SortKey} {keys others : List SortKey}
  {texts : List String} {a b : List Char}

/-- What an engine is asked for to sort by a key. -/
def termText (engine : Engine) (qualifier : String) (k : SortKey) : String :=
  k.field.text engine qualifier ++ " " ++ k.direction.keyword

theorem keyword_append_inj {d d' : Direction}
    (h : d.keyword.toList ++ a = d'.keyword.toList ++ b) : d = d' ∧ a = b := by
  cases d <;> cases d' <;> simp_all [Direction.keyword]

/-- **No term begins another one.** -/
theorem termText_append_inj (hk : k.field.IsValid) (hl : l.field.IsValid)
    (h : (k.termText engine qualifier).toList ++ a = (l.termText engine qualifier).toList ++ b) :
    k = l ∧ a = b := by
  have htext : ∀ (m : SortKey) (c : List Char), (m.termText engine qualifier).toList ++ c =
      (m.field.text engine qualifier).toList ++ ' ' :: (m.direction.keyword.toList ++ c) := by
    intro m c
    simp [termText]
  rw [htext, htext] at h
  obtain ⟨hfield, hkeyword⟩ := SortField.text_append_inj hk hl h
  obtain ⟨hdirection, hrest⟩ := keyword_append_inj hkeyword
  obtain ⟨field, direction⟩ := k
  obtain ⟨field', direction'⟩ := l
  obtain rfl : field = field' := hfield
  obtain rfl : direction = direction' := hdirection
  exact ⟨rfl, hrest⟩

/-- The terms after the first one, each with the comma before it. -/
def furtherTerms (engine : Engine) (qualifier : String) (keys : List SortKey) : List Char :=
  keys.flatMap fun k => ", ".toList ++ (k.termText engine qualifier).toList

theorem toList_intercalate_terms (k : SortKey) (keys : List SortKey) :
    (", ".intercalate ((k :: keys).map (termText engine qualifier))).toList =
      (k.termText engine qualifier).toList ++ furtherTerms engine qualifier keys := by
  induction keys generalizing k with
  | nil => simp [furtherTerms]
  | cons l keys ih =>
    rw [List.map_cons, List.map_cons, String.intercalate_cons_cons, ← List.map_cons,
      String.toList_append, String.toList_append, ih, furtherTerms, furtherTerms,
      List.flatMap_cons, List.append_assoc, List.append_assoc]

theorem furtherTerms_injective (hkeys : ∀ k ∈ keys, k.field.IsValid)
    (hothers : ∀ k ∈ others, k.field.IsValid)
    (h : furtherTerms engine qualifier keys = furtherTerms engine qualifier others) :
    keys = others := by
  induction keys generalizing others with
  | nil =>
    cases others with
    | nil => rfl
    | cons l others => simp [furtherTerms] at h
  | cons k keys ih =>
    cases others with
    | nil => simp [furtherTerms] at h
    | cons l others =>
      obtain ⟨hk, hmore⟩ := List.forall_mem_cons.mp hkeys
      obtain ⟨hl, hmore'⟩ := List.forall_mem_cons.mp hothers
      rw [furtherTerms, furtherTerms, List.flatMap_cons, List.flatMap_cons, List.append_assoc,
        List.append_assoc, List.append_cancel_left_eq] at h
      obtain ⟨rfl, hrest⟩ := termText_append_inj hk hl h
      rw [ih hmore hmore' hrest]

/-- **Terms with commas between them can be read back.** -/
theorem terms_injective (hkeys : ∀ k ∈ keys, k.field.IsValid)
    (hothers : ∀ k ∈ others, k.field.IsValid) (hne : keys ≠ []) (hne' : others ≠ [])
    (h : ", ".intercalate (keys.map (termText engine qualifier)) =
      ", ".intercalate (others.map (termText engine qualifier))) : keys = others := by
  obtain ⟨k, keys, rfl⟩ := List.exists_cons_of_ne_nil hne
  obtain ⟨l, others, rfl⟩ := List.exists_cons_of_ne_nil hne'
  obtain ⟨hk, hmore⟩ := List.forall_mem_cons.mp hkeys
  obtain ⟨hl, hmore'⟩ := List.forall_mem_cons.mp hothers
  rw [← String.toList_inj, toList_intercalate_terms, toList_intercalate_terms] at h
  obtain ⟨rfl, hrest⟩ := termText_append_inj hk hl h
  rw [furtherTerms_injective hmore hmore' hrest]

/-! ### Clauses -/

/-- What is sorted by, without and with the identifier at the end. -/
theorem effectiveKeys_eq_append (keys : List SortKey) :
    effectiveKeys keys = (if keys = [] then [⟨.createdAt, .asc⟩] else keys) ++
      if ∃ k ∈ keys, k.field = .id then [] else [⟨.id, .asc⟩] := by
  cases keys with
  | nil => rfl
  | cons k keys =>
    have hany : ((k :: keys).any fun k => k.field == .id) =
        decide (∃ l ∈ k :: keys, l.field = .id) := by
      rw [Bool.eq_iff_iff, List.any_eq_true, decide_eq_true_eq]
      simp only [beq_iff_eq]
    rw [effectiveKeys, if_neg (List.cons_ne_nil k keys)]
    simp only [List.isEmpty_cons, Bool.false_eq_true, if_false, hany, decide_eq_true_eq]
    split
    · rw [List.append_nil]
    · rfl

theorem effectiveKeys_ne_nil (keys : List SortKey) : effectiveKeys keys ≠ [] := by
  rw [effectiveKeys_eq_append]
  split <;> simp_all

theorem isValid_of_mem_effectiveKeys (h : ∀ k ∈ keys, k.field.IsValid) :
    ∀ k ∈ effectiveKeys keys, k.field.IsValid := by
  rw [effectiveKeys_eq_append]
  intro k hk
  rcases List.mem_append.mp hk with hk | hk
  · split at hk
    · obtain rfl := List.mem_singleton.mp hk
      exact trivial
    · exact h k hk
  · split at hk
    · exact absurd hk List.not_mem_nil
    · obtain rfl := List.mem_singleton.mp hk
      exact trivial

theorem orderByClause_eq (hq : Text.contains qualifier "json_key" = false)
    (keys : List SortKey) :
    orderByClause engine.dialect qualifier keys =
      "ORDER BY " ++ ", ".intercalate ((effectiveKeys keys).map (termText engine qualifier)) := by
  have hterm : term engine.dialect qualifier = termText engine qualifier := funext fun k => by
    rw [term, SortField.expression_eq_text hq]
    rfl
  rw [orderByClause, hterm]

/-- **The keys can be read off the clause.** -/
theorem effectiveKeys_of_orderByClause (hq : Text.contains qualifier "json_key" = false)
    (hkeys : ∀ k ∈ keys, k.field.IsValid) (hothers : ∀ k ∈ others, k.field.IsValid)
    (h : orderByClause engine.dialect qualifier keys =
      orderByClause engine.dialect qualifier others) :
    effectiveKeys keys = effectiveKeys others := by
  rw [orderByClause_eq hq, orderByClause_eq hq, ← String.toList_inj, String.toList_append,
    String.toList_append, List.append_cancel_left_eq, String.toList_inj] at h
  exact terms_injective (isValid_of_mem_effectiveKeys hkeys)
    (isValid_of_mem_effectiveKeys hothers) (effectiveKeys_ne_nil keys)
    (effectiveKeys_ne_nil others) h

theorem Directive.isValid {text : String} (h : Directive k text) : k.field.IsValid := by
  cases h <;> assumption

/-- The texts that are not blank are the directives, one for each key. -/
theorem Writes.forall₂ (h : Writes keys texts) :
    List.Forall₂ Directive keys (texts.filter fun text => !isBlank text) := by
  induction h with
  | nil => exact .nil
  | blank htext _ ih => rwa [List.filter_cons_of_neg (by simp [htext])]
  | key htext _ ih =>
    rw [List.filter_cons_of_pos (by simp [htext.not_isBlank])]
    exact .cons htext ih

theorem Writes.isValid (h : Writes keys texts) : ∀ k ∈ keys, k.field.IsValid := by
  induction h with
  | nil => simp
  | blank _ _ ih => exact ih
  | key htext _ ih => exact List.forall_mem_cons.mpr ⟨htext.isValid, ih⟩

/-- **Clauses that sort are closed and faithful.** The keys that texts are read as are those of
their directives, in the same order. Where there are none it is sorted by the time of creation, and
the identifier comes last unless a directive names it. The clause has one term for each of these
keys, with the text of its field and a keyword; what comes from a directive is at most the key of a
property, which is made of letters, digits and underscores. Two clauses are equal only if they sort
by the same keys.

Listings are sorted with the qualifier `e`; it may be any text without the placeholder of the
key. -/
theorem sort_clauses_are_closed (engine : Engine) {qualifier : String}
    (hq : Text.contains qualifier "json_key" = false) {texts : List String} {keys : List SortKey}
    (h : readAll texts = .ok keys) :
    List.Forall₂ Directive keys (texts.filter fun text => !isBlank text) ∧
    effectiveKeys keys = (if keys = [] then [⟨.createdAt, .asc⟩] else keys) ++
      (if ∃ k ∈ keys, k.field = .id then [] else [⟨.id, .asc⟩]) ∧
    orderByClause engine.dialect qualifier keys =
      "ORDER BY " ++ ", ".intercalate ((effectiveKeys keys).map (termText engine qualifier)) ∧
    (∀ k ∈ keys, ∀ key, k.field = .property key →
      key ≠ "" ∧ ∀ c ∈ key.toList, c.isAlphanum = true ∨ c = '_') ∧
    ∀ texts' others, readAll texts' = .ok others →
      (orderByClause engine.dialect qualifier others = orderByClause engine.dialect qualifier keys ↔
        effectiveKeys others = effectiveKeys keys) := by
  have hwrites := readAll_eq_ok.mp h
  refine ⟨hwrites.forall₂, effectiveKeys_eq_append keys, orderByClause_eq hq keys,
    fun k hk key hproperty => ?_, fun texts' others hothers => ⟨?_, fun hsame => ?_⟩⟩
  · have hvalid := hwrites.isValid k hk
    rw [hproperty] at hvalid
    exact SortField.isValid_property.mp hvalid
  · exact effectiveKeys_of_orderByClause hq (readAll_eq_ok.mp hothers).isValid hwrites.isValid
  · rw [orderByClause_eq hq, orderByClause_eq hq, hsame]

/-- Keys that are made of the placeholder words of the templates. -/
theorem placeholder_words_as_keys :
    let texts := ["\tproperties.json_key :Desc", " ", "properties.expr", "type:ASC"]
    ∃ keys, readAll texts = .ok keys ∧
      orderByClause Engine.embedded.dialect "e" keys =
        "ORDER BY json_extract(e.properties, '$.\"json_key\"') DESC, " ++
          "json_extract(e.properties, '$.\"expr\"') ASC, e.type ASC, e.id ASC" ∧
      orderByClause Engine.server.dialect "e" keys =
        "ORDER BY e.properties ->> 'json_key' DESC, e.properties ->> 'expr' ASC, " ++
          "e.type ASC, e.id ASC" := by
  intro texts
  have hread : readAll texts =
      .ok [⟨.property "json_key", .desc⟩, ⟨.property "expr", .asc⟩, ⟨.type, .asc⟩] := by
    decide +kernel
  have hq : Text.contains "e" "json_key" = false := by decide
  obtain ⟨-, heffective, hembedded, -⟩ := sort_clauses_are_closed .embedded hq hread
  obtain ⟨-, -, hserver, -⟩ := sort_clauses_are_closed .server hq hread
  rw [heffective] at hembedded hserver
  exact ⟨_, hread, hembedded.trans (by decide +kernel), hserver.trans (by decide +kernel)⟩

end SortKey
end TableStore
