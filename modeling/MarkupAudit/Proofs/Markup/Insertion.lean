import MarkupAudit.Markup.Amend
import MarkupAudit.Proofs.Markup.Readers
import Mathlib.Data.List.TakeWhile

/-! # What is read behind an inserted attribute

A text that starts with a bracket and a name is read from the end of the name on, where no quotation
is open whatever marks follow. So an attribute that is put there is read as it was written, and all
others are read as before. -/

namespace MarkupAudit

namespace Text

/-- No white space is a word character. -/
theorem not_isBlank_of_isWord {c : Char} (h : isWord c) : isBlank c = false := by
  have hranges : ∀ r ∈ blankRanges, ∀ n ∈ List.range' r.1 (r.2 + 1 - r.1),
      isWord (Char.ofNat n) = false := by
    decide +kernel
  by_contra hblank
  rw [Bool.not_eq_false, isBlank, CodeRanges.covers, List.any_eq_true] at hblank
  obtain ⟨r, hr, hwithin⟩ := hblank
  rw [Bool.and_eq_true, decide_eq_true_iff, decide_eq_true_iff] at hwithin
  have hnone := hranges r hr c.toNat (List.mem_range'_1.mpr (by omega))
  rw [Char.ofNat_toNat, h] at hnone
  cases hnone

end Text

namespace Markup

/-! ## Texts that start with a name -/

/-- A text that starts with a bracket and a name, and goes on with `rest`. -/
structure NamedTag (u name rest : Text) : Prop where
  eq_append : u = '<' :: (name ++ rest)
  first : name.head?.any Char.isAlpha
  isNameChar : ∀ c ∈ name, isNameChar c
  stops : rest.head?.any Markup.isNameChar = false

theorem namedTag_of_isAlpha {c : Char} (hc : c.isAlpha) (r : Text) :
    NamedTag ('<' :: c :: r) ((c :: r).takeWhile isNameChar) ((c :: r).dropWhile isNameChar) where
  eq_append := by rw [List.takeWhile_append_dropWhile]
  first := by simp [isNameChar_of_isAlpha hc, hc]
  isNameChar _ hx := List.mem_takeWhile_imp hx
  stops := by
    have hhead := List.head?_dropWhile_not isNameChar (c :: r)
    cases hrest : ((c :: r).dropWhile isNameChar).head? with
    | none => rfl
    | some x => simpa [hrest] using hhead

theorem NamedTag.tagHead?_eq {u name rest : Text} (h : NamedTag u name rest) :
    tagHead? u = some ⟨['<'], name, rest⟩ := by
  have hstops : rest.takeWhile Markup.isNameChar = [] ∧ rest.dropWhile Markup.isNameChar = rest := by
    cases hrest : rest with
    | nil => exact ⟨rfl, rfl⟩
    | cons x r =>
        have hx : Markup.isNameChar x = false := by simpa [hrest] using h.stops
        exact ⟨List.takeWhile_cons_of_neg (by simp [hx]), List.dropWhile_cons_of_neg (by simp [hx])⟩
  cases hname : name with
  | nil => simpa [hname] using h.first
  | cons c letters =>
      have hc : c.isAlpha := by simpa [hname] using h.first
      rw [h.eq_append, hname, List.cons_append, tagHead?_of_isAlpha hc, ← List.cons_append, ← hname,
        List.takeWhile_append_of_pos h.isNameChar, List.dropWhile_append_of_pos h.isNameChar,
        hstops.1, hstops.2, List.append_nil]

/-- What is put behind a name does not go on with it. -/
theorem NamedTag.insert {u name rest piece : Text} (h : NamedTag u name rest)
    (hpiece : piece.head? = some ' ') :
    NamedTag ('<' :: (name ++ (piece ++ rest))) name (piece ++ rest) where
  eq_append := rfl
  first := h.first
  isNameChar := h.isNameChar
  stops := by
    rw [List.head?_append, hpiece, Option.some_or]
    decide

theorem isNameChar_ne {c : Char} (h : isNameChar c) : endsAttribute c = false ∧ c ≠ '>' := by
  rw [isNameChar, Bool.or_eq_true, Bool.or_eq_true, decide_eq_true_eq, decide_eq_true_eq] at h
  rcases h with (hword | rfl) | rfl
  · have hmark : ∀ x ∈ ['"', '\'', '/', '>'], Text.isWord x = false := by
      rw [List.forall_mem_cons, List.forall_mem_cons, List.forall_mem_cons,
        List.forall_mem_singleton]
      decide
    have hne : c ∉ ['"', '\'', '/', '>'] := by
      intro hmem
      rw [hmark c hmem] at hword
      cases hword
    simp only [List.mem_cons, List.not_mem_nil, or_false, not_or] at hne
    simp [endsAttribute, Text.not_isBlank_of_isWord hword, hne]
  · decide
  · decide

/-- Neither a name nor the bracket before it ends an attribute or the tag. -/
theorem NamedTag.lead_ne {u name rest : Text} (h : NamedTag u name rest) :
    ∀ c ∈ '<' :: name, endsAttribute c = false ∧ c ≠ '>' := by
  intro c hc
  rcases List.mem_cons.mp hc with rfl | hc
  · decide
  · exact isNameChar_ne (h.isNameChar c hc)

theorem head?_openingTag (t : Text) : (openingTag t).head? = t.head? := by
  cases t with
  | nil => rfl
  | cons c t =>
      rw [openingTag]
      split <;> rfl

section Named

variable {u name rest : Text} (h : NamedTag u name rest)

include h

theorem NamedTag.openingTag_eq : openingTag u = '<' :: name ++ openingTag rest := by
  rw [h.eq_append, ← List.cons_append]
  exact openingTag_append_of_notMem (fun hmem => (h.lead_ne '>' hmem).2 rfl) rest

/-- The attributes of a tag are those that are read behind its name. -/
theorem NamedTag.hasAttribute_eq (n : AttributeName) :
    hasAttribute u n.text = readsAttribute n (openingTag rest) := by
  rw [hasAttribute_eq_readsAttribute, h.openingTag_eq]
  exact readsAttribute_append_of_forall (fun c hc => (h.lead_ne c hc).1) n _

theorem NamedTag.attributeValue?_eq (n : AttributeName) :
    attributeValue? u n.text = readAttributeValue? n (openingTag rest) := by
  rw [attributeValue?_eq_readAttributeValue?, h.openingTag_eq]
  exact readAttributeValue?_append_of_forall (fun c hc => (h.lead_ne c hc).1) n _

/-- An attribute with a value may be put right behind the name. -/
theorem NamedTag.precedes (n : AttributeName) (v : QuotedValue) :
    WrittenAttribute.Precedes ⟨n, some v⟩ (openingTag rest) where
  head := by
    rw [head?_openingTag]
    exact h.stops
  bare := nofun

end Named

/-! ## Inserting an attribute -/

theorem insertAttribute_of_hasAttribute {name tag : Text} {value : Option Text}
    (h : hasAttribute tag name) : insertAttribute name value tag = tag :=
  if_pos h

/-- A text that starts with a name and lacks the attribute gets it right behind the name. -/
theorem NamedTag.insertAttribute_eq {u name rest attr : Text} (hu : NamedTag u name rest)
    (hlacks : hasAttribute u attr = false) (value : Option Text) :
    insertAttribute attr value u =
      '<' :: (name ++ (' ' :: writeAttribute attr value ++ rest)) := by
  rw [insertAttribute, hlacks, hu.tagHead?_eq]
  simp

/-- What is inserted is an attribute as it is written in a tag. -/
theorem writeAttribute_eq_shown (n : AttributeName) {v : QuotedValue}
    (hv : v.quotation = .double) :
    ' ' :: writeAttribute n.text (some v.content) =
      WrittenAttribute.shown QuotedValue.text ⟨n, some v⟩ := by
  simp [writeAttribute, WrittenAttribute.shown, QuotedValue.text, hv, Quotation.mark]

section Insert

variable {u name rest : Text} (hu : NamedTag u name rest) (n : AttributeName) {v : QuotedValue}
  (hv : v.quotation = .double)

include hu hv

/-- The tag with the attribute starts with the same name, and up to its end the attribute and the
rest of the tag follow. -/
theorem NamedTag.insertAttribute (hlacks : hasAttribute u n.text = false) :
    ∃ rest', NamedTag (Markup.insertAttribute n.text (some v.content) u) name rest' ∧
      openingTag rest' = WrittenAttribute.shown QuotedValue.text ⟨n, some v⟩ ++ openingTag rest := by
  refine ⟨' ' :: writeAttribute n.text (some v.content) ++ rest, ?_, ?_⟩
  · rw [hu.insertAttribute_eq hlacks]
    exact hu.insert rfl
  · rw [writeAttribute_eq_shown n hv]
    exact openingTag_append_of_notMem (WrittenAttribute.bracket_notMem _) rest

theorem NamedTag.hasAttribute_insertAttribute (hlacks : hasAttribute u n.text = false)
    (m : AttributeName) :
    hasAttribute (Markup.insertAttribute n.text (some v.content) u) m.text =
      (decide (Text.lower n.text = Text.lower m.text) || hasAttribute u m.text) := by
  obtain ⟨rest', hnamed, hopening⟩ := hu.insertAttribute n hv hlacks
  rw [hnamed.hasAttribute_eq, hopening, readsAttribute_shown m _ (hu.precedes n v),
    hu.hasAttribute_eq]

theorem NamedTag.attributeValue?_insertAttribute (hlacks : hasAttribute u n.text = false)
    (m : AttributeName) :
    attributeValue? (Markup.insertAttribute n.text (some v.content) u) m.text =
      if Text.lower n.text = Text.lower m.text then some v.content
      else attributeValue? u m.text := by
  obtain ⟨rest', hnamed, hopening⟩ := hu.insertAttribute n hv hlacks
  rw [hnamed.attributeValue?_eq, hopening, readAttributeValue?_shown m _ (hu.precedes n v),
    hu.attributeValue?_eq]
  split <;> rfl

end Insert

/-- An attribute that a tag has already is left alone. One that it lacks is put right behind the
name and read back with its value. Either way a second insertion does nothing, and whether the tag
has any other attribute and with which value stays as it was, whatever quotation marks the tag
holds. -/
theorem insertAttribute_read_back {c : Char} (hc : c.isAlpha) (r : Text) (n : AttributeName)
    {v : Text} (hmark : '"' ∉ v) (hbracket : '>' ∉ v) :
    let tag := '<' :: c :: r
    let amended := insertAttribute n.text (some v) tag
    (hasAttribute tag n.text → amended = tag) ∧
    (¬hasAttribute tag n.text →
      (∃ name rest, NamedTag tag name rest ∧
        amended = '<' :: (name ++ (' ' :: n.text ++ ['=', '"'] ++ v ++ ['"'] ++ rest))) ∧
      hasAttribute amended n.text ∧ attributeValue? amended n.text = some v) ∧
    insertAttribute n.text (some v) amended = amended ∧
    ∀ m : AttributeName, Text.lower m.text ≠ Text.lower n.text →
      hasAttribute amended m.text = hasAttribute tag m.text ∧
        attributeValue? amended m.text = attributeValue? tag m.text := by
  intro tag amended
  have hnamed : NamedTag tag _ _ := namedTag_of_isAlpha hc r
  cases hhas : hasAttribute tag n.text with
  | true =>
      have hsame : amended = tag := insertAttribute_of_hasAttribute hhas
      rw [hsame]
      exact ⟨fun _ => rfl, fun hlacks => absurd rfl hlacks, insertAttribute_of_hasAttribute hhas,
        fun m _ => ⟨rfl, rfl⟩⟩
  | false =>
      let value : QuotedValue := ⟨.double, v, hmark, hbracket⟩
      have hread := hnamed.hasAttribute_insertAttribute n (v := value) rfl hhas
      have hvalue := hnamed.attributeValue?_insertAttribute n (v := value) rfl hhas
      have hfound : hasAttribute amended n.text := by
        rw [hread, decide_eq_true rfl, Bool.true_or]
      refine ⟨fun hhas => absurd hhas (by decide), fun _ => ⟨⟨_, _, hnamed, ?_⟩, hfound, ?_⟩,
        insertAttribute_of_hasAttribute hfound, fun m hm => ⟨?_, ?_⟩⟩
      · exact (hnamed.insertAttribute_eq hhas _).trans (by simp [writeAttribute])
      · rw [hvalue, if_pos rfl]
      · rw [hread, decide_eq_false (Ne.symm hm), Bool.false_or]
      · rw [hvalue, if_neg (Ne.symm hm)]

/-- In a tag with an open quotation: the quoted mention of the attribute does not count, and the
value of another attribute is as unreadable as before. -/
theorem insertAttribute_unclosed_quotation :
    let tag := "<img title=\"a' alt='b>".toList
    let amended := insertAttribute "alt".toList (some "it's".toList) tag
    '"' ∉ "it's".toList ∧ '>' ∉ "it's".toList ∧ ¬hasAttribute tag "alt".toList ∧
      attributeValue? amended "alt".toList = some "it's".toList ∧
      insertAttribute "alt".toList (some "it's".toList) amended = amended ∧
      hasAttribute amended "title".toList = hasAttribute tag "title".toList ∧
      attributeValue? amended "title".toList = attributeValue? tag "title".toList := by
  intro tag amended
  have hlacks : ¬hasAttribute tag "alt".toList := by decide +kernel
  obtain ⟨-, hinserts, hagain, hothers⟩ := insertAttribute_read_back (c := 'i') (by decide)
    "mg title=\"a' alt='b>".toList ⟨'a', "lt".toList, by decide, by decide⟩
    (v := "it's".toList) (by decide) (by decide)
  exact ⟨by decide, by decide, hlacks, (hinserts hlacks).2.2, hagain,
    hothers ⟨'t', "itle".toList, by decide, by decide⟩ (by decide)⟩

end Markup

end MarkupAudit
