import MarkupAudit.Markup.Amend
import MarkupAudit.Proofs.Markup.Rendered

/-! # Setting an attribute of a rendered tag

The value of an attribute of a rendered tag is that of the first attribute with the name that has
one. Setting the value replaces it there, and inserting an attribute puts it before all others, so
that the result is a rendered tag again and is read as such. -/

namespace MarkupAudit.Markup

open Text

/-! ## Where a value stands -/

/-- The value that the attribute gives the name. -/
def RenderedAttribute.given? (n : Text) (a : RenderedAttribute) : Option RenderedValue :=
  if a.isNamed n then a.value else none

theorem RenderedAttribute.given?_eq_none {n : Text} {a : RenderedAttribute} :
    a.given? n = none ↔ a.isNamed n = false ∨ a.value = none := by
  unfold given?
  cases a.isNamed n <;> simp

theorem RenderedAttribute.given?_eq_some {n : Text} {a : RenderedAttribute} {v : RenderedValue} :
    a.given? n = some v ↔ a.isNamed n ∧ a.value = some v := by
  unfold given?
  cases a.isNamed n <;> simp

theorem valueFollows_rendered (shownValue : RenderedValue → Text)
    (attributes : List RenderedAttribute) :
    valueFollows (RenderedTag.rest shownValue attributes) = false := by
  cases attributes with
  | nil => rfl
  | cons a attributes =>
      obtain ⟨c, name, hname⟩ := List.exists_cons_of_ne_nil a.name.ne_nil
      obtain ⟨-, hblank, hne⟩ := endsToken_eq_false (a.name.not_endsToken c (by simp [hname]))
      rw [RenderedTag.rest_cons, a.shown_append, hname]
      simp_all [valueFollows, show isBlank ' ' = true by decide]

section Value

variable (n : Token)

/-- No value is read in an unquoted value. -/
theorem valueRead?_unquoted {s r : Text} (hs : ∀ c ∈ s, c = '/' ∨ endsToken c = false)
    (hr : r.head?.all endsToken) (hfollows : valueFollows r = false) (c : Char) :
    valueRead? n.text (c :: (s ++ r)) = none := by
  by_cases hslash : '/' ∈ s
  · obtain ⟨m, s, rfl, hnone⟩ := List.eq_append_cons_of_mem hslash
    have hm : ∀ c ∈ m, endsToken c = false :=
      fun c hc => (hs c (by simp [hc])).resolve_left fun heq => hnone (heq ▸ hc)
    have hstop : valueFollows ('/' :: (s ++ r)) = false := by
      simp [valueFollows, show isBlank '/' = false by decide]
    rw [List.append_assoc, List.cons_append]
    exact valueRead?_token n hm (by simp; decide) c (by rw [hstop, Bool.and_false])
  · have hs : ∀ c ∈ s, endsToken c = false :=
      fun c hc => (hs c hc).resolve_left fun heq => hslash (heq ▸ hc)
    exact valueRead?_token n hs hr c (by rw [hfollows, Bool.and_false])

/-- Attributes that do not give the name a value are passed over. -/
theorem firstStop_valueRead?_append {before : List RenderedAttribute}
    (h : ∀ a ∈ before, a.given? n.text = none) (after : List RenderedAttribute) (k : ℕ) :
    firstStop (valueRead? n.text) k (RenderedTag.rest RenderedValue.masked (before ++ after)) =
      firstStop (valueRead? n.text) (k + (before.flatMap (·.shown RenderedValue.masked)).length)
        (RenderedTag.rest RenderedValue.masked after) := by
  induction before generalizing k with
  | nil => rfl
  | cons a before ih =>
      obtain ⟨ha, hbefore⟩ := List.forall_mem_cons.mp h
      have hor := RenderedTag.head?_rest RenderedValue.masked (before ++ after)
      have hfollows := valueFollows_rendered RenderedValue.masked (before ++ after)
      have hhead : (RenderedTag.rest RenderedValue.masked (before ++ after)).head?.all endsToken := by
        rcases hor with hor | hor <;> rw [hor] <;> decide
      have hnone : valueRead? n.text (a.shown RenderedValue.masked ++
          RenderedTag.rest RenderedValue.masked (before ++ after)) = none := by
        rw [a.shown_append]
        refine valueRead?_token n a.name.not_endsToken (ends_assignment a _ hor).1 ' ' ?_
        rcases RenderedAttribute.given?_eq_none.mp ha with hname | hv
        · rw [RenderedAttribute.isNamed] at hname
          rw [hname, Bool.false_and]
        · rw [RenderedAttribute.assignment, hv, Option.elim_none, List.nil_append, hfollows,
            Bool.and_false]
      rw [List.cons_append, RenderedTag.rest_cons,
        (readsToken_valueRead? n).firstStop_attribute a k hhead hnone ?_, ih hbefore,
        List.flatMap_cons, List.length_append, Nat.add_assoc]
      intro v _ w c s heq
      exact valueRead?_unquoted n (fun x hx => v.not_endsToken x (by simp [heq, hx])) hhead hfollows c

end Value

theorem RenderedValue.length_masked (v : RenderedValue) : v.masked.length = v.text.length := by
  cases v <;> simp [masked, text, QuotedValue.masked, QuotedValue.text]

theorem RenderedAttribute.length_shown (a : RenderedAttribute) :
    (a.shown RenderedValue.masked).length = (a.shown RenderedValue.text).length := by
  unfold shown assignment
  cases a.value <;> simp [RenderedValue.length_masked]

theorem RenderedValue.head?_masked (v : RenderedValue) (r : Text) :
    (v.masked ++ r).head?.any isBlank = false := by
  cases v with
  | quoted v => simp [masked, QuotedValue.masked, isBlank_mark]
  | unquoted v =>
      obtain ⟨c, content, hv⟩ := List.exists_cons_of_ne_nil v.ne_nil
      rcases v.not_endsToken c (by simp [hv]) with rfl | hends
      · simp [masked, hv, show isBlank '/' = false by decide]
      · simp [masked, hv, (endsToken_eq_false hends).2.1]

/-- A rendered value is read whole, before a space and before the end of the tag. -/
theorem readValue?_rendered (v : RenderedValue) {r : Text}
    (hr : r.head? = some ' ' ∨ r.head? = some '>') :
    readValue? (v.text ++ r) = some ⟨v.text.length, v.content⟩ := by
  cases v with
  | quoted v => exact readValue?_text v r
  | unquoted v =>
      let takes : Char → Bool := fun x => !(isBlank x || x = '"' || x = '\'' || x = '>')
      have hchars : ∀ c ∈ v.content, takes c := by
        intro c hc
        rcases v.not_endsToken c hc with rfl | hends
        · decide
        · obtain ⟨-, hblank, hne⟩ := endsToken_eq_false hends
          simp_all [takes]
      have htake : (v.content ++ r).takeWhile takes = v.content := by
        rcases hr with hr | hr
        · exact takeWhile_append_eq hchars hr (by decide)
        · exact takeWhile_append_eq hchars hr (by decide)
      obtain ⟨c, content, hv⟩ := List.exists_cons_of_ne_nil v.ne_nil
      have hmark : (c = '"' || c = '\'') = false := by
        have := hchars c (by simp [hv])
        simp_all [takes]
      have hread : readValue? (v.content ++ r) =
          if ((v.content ++ r).takeWhile takes).isEmpty then none
          else some ⟨((v.content ++ r).takeWhile takes).length, (v.content ++ r).takeWhile takes⟩ := by
        rw [hv, List.cons_append, readValue?, hmark]
        rfl
      change readValue? (v.content ++ r) = some ⟨v.content.length, v.content⟩
      rw [hread, htake, hv]
      rfl

/-! ## The value that is read -/

/-- What stands before the value of an attribute. -/
def RenderedTag.upToValue (name : Text) (before : List RenderedAttribute) (a : RenderedAttribute) :
    Text :=
  '<' :: (name ++ (before.flatMap (·.shown RenderedValue.text) ++ ' ' :: (a.name.text ++ ['='])))

section Found

variable {tag : RenderedTag} {before after : List RenderedAttribute} {a : RenderedAttribute}
  {v : RenderedValue} {n : Token} (hattributes : tag.attributes = before ++ a :: after)

include hattributes

theorem RenderedTag.text_eq_upToValue (hv : a.value = some v) :
    tag.text = upToValue tag.name before a ++ (v.text ++ rest RenderedValue.text after) := by
  simp [text, rest, hattributes, upToValue, RenderedAttribute.shown, RenderedAttribute.assignment, hv]

/-- The value stands in the first attribute that gives the name one. -/
theorem valueAt?_of_append (hbefore : ∀ b ∈ before, b.given? n.text = none)
    (ha : a.given? n.text = some v) :
    valueAt? tag.text n.text =
      some ((RenderedTag.upToValue tag.name before a).length, ⟨v.text.length, v.content⟩) := by
  obtain ⟨hname, hv⟩ := RenderedAttribute.given?_eq_some.mp ha
  have hshown : RenderedTag.rest RenderedValue.masked (a :: after) =
      ' ' :: (a.name.text ++ '=' :: (v.masked ++ RenderedTag.rest RenderedValue.masked after)) := by
    rw [RenderedTag.rest_cons, a.shown_append, RenderedAttribute.assignment, hv, Option.elim_some,
      List.cons_append]
  have hread := valueRead?_equals (c := ' ') (by decide) (startsLike_append_of_isSpelled hname _)
    (length_eq_of_isSpelled hname) (v.head?_masked (RenderedTag.rest RenderedValue.masked after))
  have hlength : (before.flatMap (·.shown RenderedValue.masked)).length =
      (before.flatMap (·.shown RenderedValue.text)).length := by
    simp only [List.length_flatMap, RenderedAttribute.length_shown]
  have hstop : firstStop (valueRead? n.text) 0 (maskQuoted (openingTag tag.text)) =
      some (RenderedTag.upToValue tag.name before a).length := by
    rw [tag.firstStop_text (readsToken_valueRead? n), hattributes,
      firstStop_valueRead?_append n hbefore, hshown, firstStop_cons_of_some hread, hlength,
      ← length_eq_of_isSpelled hname]
    simp [RenderedTag.upToValue]
    omega
  rw [valueAt?_eq, hstop, Option.bind_some, tag.openingTag_text,
    RenderedTag.text_eq_upToValue hattributes hv, List.drop_left,
    readValue?_rendered v (RenderedTag.head?_rest ..), Option.map_some]

end Found

/-- There is no value if no attribute gives the name one. -/
theorem valueAt?_eq_none {tag : RenderedTag} {n : Token}
    (h : ∀ a ∈ tag.attributes, a.given? n.text = none) : valueAt? tag.text n.text = none := by
  have hend : firstStop (valueRead? n.text) (tag.name.length + 1 +
      (tag.attributes.flatMap (·.shown RenderedValue.masked)).length)
      (RenderedTag.rest RenderedValue.masked []) = none := by
    simp [RenderedTag.rest, firstStop, valueRead?]
  have hstop := firstStop_valueRead?_append n h [] (tag.name.length + 1)
  rw [List.append_nil, hend] at hstop
  rw [valueAt?_eq, tag.firstStop_text (readsToken_valueRead? n), hstop, Option.bind_none]

/-- The value that the attributes of the tag give the name. -/
def RenderedTag.given? (n : Text) (tag : RenderedTag) : Option Text :=
  (tag.attributes.findSome? (·.given? n)).map (·.content)

theorem attributeValue?_rendered (tag : RenderedTag) (n : Token) :
    attributeValue? tag.text n.text = tag.given? n.text := by
  rw [attributeValue?, RenderedTag.given?]
  cases hfound : tag.attributes.findSome? (·.given? n.text) with
  | none =>
      rw [valueAt?_eq_none (List.findSome?_eq_none_iff.mp hfound)]
      rfl
  | some v =>
      obtain ⟨before, a, after, hattributes, ha, hbefore⟩ := List.findSome?_eq_some_iff.mp hfound
      rw [valueAt?_of_append hattributes hbefore ha]
      rfl

/-! ## Setting a value -/

section Set

variable {tag : RenderedTag} {n : Token} {w : QuotedValue} (hw : w.quotation = .double)

include hw

/-- The value that is set takes the place of the one that is read. -/
theorem setAttribute_rendered {before after : List RenderedAttribute} {a : RenderedAttribute}
    {v : RenderedValue} (hattributes : tag.attributes = before ++ a :: after)
    (hbefore : ∀ b ∈ before, b.given? n.text = none) (ha : a.given? n.text = some v) :
    setAttribute n.text w.content tag.text =
      ({ tag with attributes := before ++ { a with value := some (.quoted w) } :: after } :
        RenderedTag).text := by
  obtain ⟨hname, hv⟩ := RenderedAttribute.given?_eq_some.mp ha
  have hhas : hasAttribute tag.text n.text :=
    (hasAttribute_rendered n tag).mpr (.inl ⟨a, by simp [hattributes], hname⟩)
  have hvalue : (RenderedValue.quoted w).text = '"' :: w.content ++ ['"'] := by
    rw [RenderedValue.text, QuotedValue.text, hw]
    rfl
  have hset : ({ tag with attributes := before ++ { a with value := some (.quoted w) } :: after } :
      RenderedTag).text = RenderedTag.upToValue tag.name before a ++
        ('"' :: w.content ++ ['"'] ++ RenderedTag.rest RenderedValue.text after) := by
    rw [← hvalue]
    exact RenderedTag.text_eq_upToValue (a := { a with value := some (.quoted w) }) rfl rfl
  rw [setAttribute, if_pos hhas, valueAt?_of_append hattributes hbefore ha, hset]
  change tag.text.take _ ++ '"' :: w.content ++ '"' :: tag.text.drop (_ + v.text.length) = _
  rw [← List.drop_drop, RenderedTag.text_eq_upToValue hattributes hv, List.take_left,
    List.drop_left, List.drop_left]
  simp

/-- An attribute that the tag lacks becomes its first one. -/
theorem insertAttribute_rendered (hfirst : tag.name.head?.any Char.isAlpha)
    (hlacks : hasAttribute tag.text n.text = false) :
    insertAttribute n.text (some w.content) tag.text =
      ({ tag with attributes := ⟨n, some (.quoted w)⟩ :: tag.attributes } : RenderedTag).text := by
  have hnamed : NamedTag tag.text tag.name (RenderedTag.rest RenderedValue.text tag.attributes) :=
    { eq_append := rfl
      first := hfirst
      isNameChar := tag.name_isNameChar
      stops := by
        rcases RenderedTag.head?_rest RenderedValue.text tag.attributes with hhead | hhead <;>
          rw [hhead] <;> decide }
  rw [hnamed.insertAttribute_eq hlacks]
  simp [writeAttribute, RenderedTag.text, RenderedTag.rest, RenderedAttribute.shown,
    RenderedAttribute.assignment, RenderedValue.text, QuotedValue.text, hw, Quotation.mark]

end Set

theorem setAttribute_of_lacks {tag name : Text} (value : Text)
    (hlacks : hasAttribute tag name = false) :
    setAttribute name value tag = insertAttribute name (some value) tag :=
  if_neg (by simp [hlacks])

/-- The tag has attributes of the name, but none that gives it a value. -/
def RenderedTag.isBare (n : Text) (tag : RenderedTag) : Bool :=
  tag.attributes.any (·.isNamed n) && (tag.given? n).isNone

/-- Attributes without a value keep having none. -/
theorem setAttribute_of_isBare {tag : RenderedTag} {n : Token} (hbare : tag.isBare n.text)
    (value : Text) : setAttribute n.text value tag.text = tag.text := by
  rw [RenderedTag.isBare, Bool.and_eq_true, List.any_eq_true, Option.isNone_iff_eq_none] at hbare
  have hhas : hasAttribute tag.text n.text := (hasAttribute_rendered n tag).mpr (.inl hbare.1)
  have hnone : ∀ a ∈ tag.attributes, a.given? n.text = none :=
    List.findSome?_eq_none_iff.mp (Option.map_eq_none_iff.mp hbare.2)
  rw [setAttribute, if_pos hhas, valueAt?_eq_none hnone]

/-! ## Tags without unquoted values -/

/-- All values of the tag are quoted. -/
def RenderedTag.isQuoted (tag : RenderedTag) : Bool :=
  tag.attributes.all fun a => !a.isUnquoted

/-- If all values are quoted, the attributes of a tag are those that were written. -/
theorem hasAttribute_of_isQuoted {tag : RenderedTag} (hquoted : tag.isQuoted) (n : Token) :
    hasAttribute tag.text n.text = tag.attributes.any (·.isNamed n.text) := by
  rw [Bool.eq_iff_iff, hasAttribute_rendered, List.any_eq_true, or_iff_left]
  rintro ⟨before, a, after, hattributes, v, hv, -⟩
  have ha := List.all_eq_true.mp hquoted a (by simp [hattributes])
  simp [RenderedAttribute.isUnquoted, hv] at ha

section Quoted

variable {tag : RenderedTag} (hquoted : tag.isQuoted) {n : Token} {w : QuotedValue}
  (hw : w.quotation = .double)

include hquoted hw

/-- A value that takes the place of another one is read, and what is read of other names stays the
same. -/
theorem setAttribute_readers_of_given {v : Text} (hgiven : tag.given? n.text = some v) (m : Token) :
    let amended := setAttribute n.text w.content tag.text
    attributeValue? amended n.text = some w.content ∧
      (Apart n.text m.text →
        attributeValue? amended m.text = attributeValue? tag.text m.text) ∧
      hasAttribute amended m.text = hasAttribute tag.text m.text := by
  obtain ⟨v, hfound, -⟩ := Option.map_eq_some_iff.mp hgiven
  obtain ⟨before, a, after, hattributes, ha, hbefore⟩ := List.findSome?_eq_some_iff.mp hfound
  obtain ⟨hname, -⟩ := RenderedAttribute.given?_eq_some.mp ha
  let a' : RenderedAttribute := { a with value := some (.quoted w) }
  let tag' : RenderedTag := { tag with attributes := before ++ a' :: after }
  have hset : setAttribute n.text w.content tag.text = tag'.text :=
    setAttribute_rendered hw hattributes hbefore ha
  have hquoted' : tag'.isQuoted := by
    rw [RenderedTag.isQuoted, hattributes] at hquoted
    rw [RenderedTag.isQuoted]
    simp_all [tag', a', RenderedAttribute.isUnquoted]
  intro amended
  refine ⟨?_, fun hother => ?_, ?_⟩
  · have hgiven' : a'.given? n.text = some (.quoted w) :=
      RenderedAttribute.given?_eq_some.mpr ⟨hname, rfl⟩
    have hfirst : tag'.attributes.findSome? (·.given? n.text) = some (.quoted w) :=
      List.findSome?_eq_some_iff.mpr ⟨before, a', after, rfl, hgiven', hbefore⟩
    rw [show amended = _ from hset, attributeValue?_rendered, RenderedTag.given?, hfirst]
    rfl
  · have hskip : a.given? m.text = none ∧ a'.given? m.text = none :=
      ⟨RenderedAttribute.given?_eq_none.mpr (.inl (hother _ hname)),
        RenderedAttribute.given?_eq_none.mpr (.inl (hother _ hname))⟩
    rw [show amended = _ from hset, attributeValue?_rendered, attributeValue?_rendered,
      RenderedTag.given?, RenderedTag.given?, hattributes]
    simp [tag', List.findSome?_append, hskip]
  · rw [show amended = _ from hset, hasAttribute_of_isQuoted hquoted',
      hasAttribute_of_isQuoted hquoted, hattributes]
    simp [tag', a', RenderedAttribute.isNamed]

/-- The value of an inserted attribute is read, and what is read of other names stays the same. -/
theorem insertAttribute_readers (hfirst : tag.name.head?.any Char.isAlpha)
    (hlacks : hasAttribute tag.text n.text = false) (m : Token) :
    let amended := insertAttribute n.text (some w.content) tag.text
    attributeValue? amended n.text = some w.content ∧
      (Apart n.text m.text →
        attributeValue? amended m.text = attributeValue? tag.text m.text ∧
          hasAttribute amended m.text = hasAttribute tag.text m.text) := by
  let a : RenderedAttribute := ⟨n, some (.quoted w)⟩
  let tag' : RenderedTag := { tag with attributes := a :: tag.attributes }
  have hinsert : insertAttribute n.text (some w.content) tag.text = tag'.text :=
    insertAttribute_rendered hw hfirst hlacks
  have hquoted' : tag'.isQuoted := by
    rw [RenderedTag.isQuoted, List.all_cons, Bool.and_eq_true]
    exact ⟨rfl, hquoted⟩
  intro amended
  rw [show amended = _ from hinsert]
  refine ⟨?_, fun hother => ?_⟩
  · have hgiven : a.given? n.text = some (.quoted w) :=
      RenderedAttribute.given?_eq_some.mpr ⟨isSpelled_self n.text, rfl⟩
    rw [attributeValue?_rendered, RenderedTag.given?, List.findSome?_cons, hgiven]
    rfl
  · have hnot : a.isNamed m.text = false := hother _ (isSpelled_self n.text)
    rw [attributeValue?_rendered, attributeValue?_rendered, hasAttribute_of_isQuoted hquoted',
      hasAttribute_of_isQuoted hquoted, RenderedTag.given?, RenderedTag.given?,
      List.findSome?_cons, RenderedAttribute.given?_eq_none.mpr (.inl hnot), List.any_cons, hnot]
    exact ⟨rfl, rfl⟩

/-- A value that is set is read, and what is read of other names stays the same, unless there is an
attribute of the name and it has no value. -/
theorem setAttribute_readers (hfirst : tag.name.head?.any Char.isAlpha)
    (hbare : ¬tag.isBare n.text) (m : Token) :
    let amended := setAttribute n.text w.content tag.text
    attributeValue? amended n.text = some w.content ∧
      (Apart n.text m.text →
        attributeValue? amended m.text = attributeValue? tag.text m.text ∧
          hasAttribute amended m.text = hasAttribute tag.text m.text) := by
  intro amended
  cases hgiven : tag.given? n.text with
  | some v =>
      obtain ⟨hvalue, hother, hhas⟩ := setAttribute_readers_of_given hquoted hw hgiven m
      exact ⟨hvalue, fun hm => ⟨hother hm, hhas⟩⟩
  | none =>
      have hlacks : hasAttribute tag.text n.text = false := by
        rw [RenderedTag.isBare, hgiven, Option.isNone_none, Bool.and_true, Bool.not_eq_true] at hbare
        rw [hasAttribute_of_isQuoted hquoted, hbare]
      rw [show amended = _ from setAttribute_of_lacks w.content hlacks]
      exact insertAttribute_readers hquoted hw hfirst hlacks m

end Quoted

end MarkupAudit.Markup
