import MarkupAudit.Evaluation
import MarkupAudit.Guideline.Compatibility
import MarkupAudit.Proofs.Markup.Attribute
import MarkupAudit.Proofs.Markup.Written

/-! # What is read from a written tag

Whether a written tag has an attribute, which value it has and which names it has is what was
written, whatever the values hold: in the masked tag a name is found only where one was written, and
its value stands in the tag at the same offset. -/

namespace MarkupAudit.Markup

/-! ## Names in a tag -/

/-- A name is found at the start of another one and its end only if they are the same. -/
theorem startsLike_append {n m tail : Text} (hn : ∀ c ∈ n, isNameLetter c)
    (hm : ∀ c ∈ m, isNameLetter c) {x : Char} (htail : tail.head? = some x)
    (hx : x ∈ [' ', '>', '=']) {ends : Text → Bool}
    (hends : ∀ c r, isNameLetter c → ends (c :: r) = false) :
    (Text.startsLike n (m ++ tail) && ends ((m ++ tail).drop n.length)) =
      (decide (m.map Char.toLower = n.map Char.toLower) && ends tail) := by
  induction n generalizing m with
  | nil =>
      cases m with
      | nil => simp [Text.startsLike]
      | cons c m => simp [Text.startsLike, hends c _ (hm c (by simp))]
  | cons d n ih =>
      have hd : isNameLetter d := hn d (by simp)
      have hn' : ∀ c ∈ n, isNameLetter c := fun c hc => hn c (List.mem_cons_of_mem d hc)
      cases m with
      | nil =>
          obtain ⟨r, rfl⟩ := List.head?_eq_some_iff.mp htail
          have hfold : Text.sameFold d x = false :=
            sameFold_isNameLetter hd (by grind)
          simp [Text.startsLike, hfold]
      | cons c m =>
          have hc : isNameLetter c := hm c (by simp)
          have hm' : ∀ c ∈ m, isNameLetter c := fun e he => hm e (List.mem_cons_of_mem c he)
          have hfold := Text.sameFold_of_plain (plain_of_isNameLetter hd) (plain_of_isNameLetter hc)
          rw [List.cons_append, Text.startsLike, Bool.and_assoc, List.length_cons,
            List.drop_succ_cons, ih hn' hm', hfold, ← Bool.and_assoc]
          congr 1
          rw [Bool.eq_iff_iff]
          simp

theorem endsName_letter (c : Char) (r : Text) (h : isNameLetter c) : endsName (c :: r) = false := by
  obtain ⟨-, hblank, -, hne⟩ := isNameLetter_ne h
  simp only [List.mem_cons, List.not_mem_nil, or_false, not_or] at hne
  simp [endsName, hblank, hne, List.isPrefixOf, Ne.symm hne.2.1, Ne.symm hne.2.2.2.1]

/-- Whether an equals sign stands behind white space. -/
def valueFollows (r : Text) : Bool :=
  (r.drop (r.takeWhile Text.isBlank).length).head?.any (· == '=')

theorem valueFollows_letter (c : Char) (r : Text) (h : isNameLetter c) :
    valueFollows (c :: r) = false := by
  obtain ⟨-, hblank, -, hne⟩ := isNameLetter_ne h
  simp_all [valueFollows]

/-! ## Looking for a name -/

/-- A reader of attributes of the name: it reads nothing but behind the end of something and before
the name. -/
structure ReadsName (n : AttributeName) (read? : Text → Option ℕ) : Prop where
  starts : ∀ c r, endsAttribute c = false → read? (c :: r) = none
  spells : ∀ c r, Text.startsLike n.text r = false → read? (c :: r) = none

theorem readsName_attributeRead? (n : AttributeName) : ReadsName n (attributeRead? n.text) where
  starts c r h := by simp [attributeRead?, h]
  spells c r h := by simp [attributeRead?, h]

theorem readsName_valueRead? (n : AttributeName) : ReadsName n (valueRead? n.text) where
  starts c r h := by simp [valueRead?, h]
  spells c r h := by simp [valueRead?, h]

namespace ReadsName

variable {n : AttributeName} {read? : Text → Option ℕ} (h : ReadsName n read?)

include h

/-- The name of an attribute starts with nothing but a character of a name. -/
theorem eq_none_of_head? {r : Text} (hr : r.head?.any isNameChar = false) (c : Char) :
    read? (c :: r) = none := by
  have hfirst : n.first.isAlphanum := by rw [Char.isAlphanum, n.first_isAlpha, Bool.true_or]
  apply h.spells
  cases r with
  | nil => rfl
  | cons x r =>
      have hfold : Text.sameFold n.first x = false := by
        rw [Bool.eq_false_iff]
        intro hfold
        simp [isNameChar, Text.isWord_of_sameFold hfirst hfold] at hr
      rw [AttributeName.text, Text.startsLike, hfold, Bool.false_and]

theorem firstStop_letters {b : Text} (hb : ∀ c ∈ b, endsAttribute c = false) (k : ℕ) (r : Text) :
    Text.firstStop read? k (b ++ r) = Text.firstStop read? (k + b.length) r :=
  Text.firstStop_append_of_forall (fun c hc s => h.starts c s (hb c hc)) r

/-- Nothing starts at a mark or a space of a masked value: another mark or space is behind each of
them. -/
theorem firstStop_masked (v : QuotedValue) (k : ℕ) {r : Text}
    (hr : r.head?.any isNameChar = false) :
    Text.firstStop read? k (v.masked ++ r) = Text.firstStop read? (k + v.masked.length) r := by
  have hmark : isNameChar v.quotation.mark = false := by
    cases v.quotation <;> decide
  have hmasked : ∀ x ∈ v.masked, isNameChar x = false := by
    intro x hx
    simp only [QuotedValue.masked, List.mem_append, List.mem_cons, List.mem_replicate,
      List.not_mem_nil, or_false] at hx
    rcases hx with (rfl | ⟨-, rfl⟩) | rfl
    · exact hmark
    · decide
    · exact hmark
  apply Text.firstStop_append
  intro w c s hs
  cases s with
  | nil => exact h.eq_none_of_head? hr c
  | cons d s => exact h.eq_none_of_head? (r := d :: (s ++ r)) (hmasked d (by rw [hs]; simp)) c

/-- An attribute at which nothing is read is passed over. -/
theorem firstStop_attribute (a : WrittenAttribute) (k : ℕ) {r : Text}
    (hr : r.head?.any isNameChar = false)
    (hnone : read? (a.shown QuotedValue.masked ++ r) = none) :
    Text.firstStop read? k (a.shown QuotedValue.masked ++ r) =
      Text.firstStop read? (k + (a.shown QuotedValue.masked).length) r := by
  have hname : ∀ c ∈ a.name.text, endsAttribute c = false :=
    fun c hc => (isNameLetter_ne (a.name.text_isNameLetter c hc)).1
  unfold WrittenAttribute.shown at hnone ⊢
  rw [List.append_assoc, List.cons_append] at hnone ⊢
  rw [Text.firstStop_cons_of_none hnone, h.firstStop_letters hname]
  cases a.value with
  | none => simp [Nat.add_assoc, Nat.add_comm]
  | some v =>
      have hsign := h.firstStop_letters (b := ['=']) (List.forall_mem_singleton.mpr (by decide))
        (k + 1 + a.name.text.length) (v.masked ++ r)
      simp only [Option.map_some, Option.getD_some, List.cons_append, List.nil_append] at hsign ⊢
      rw [hsign, h.firstStop_masked v _ hr]
      congr 1
      simp
      omega

end ReadsName

/-! ## Reading a part of a tag -/

/-- Whether an attribute of the name is read in a part of a tag. -/
def readsAttribute (n : AttributeName) (part : Text) : Bool :=
  (Text.firstStop (attributeRead? n.text) 0 (maskQuoted part)).isSome

/-- The value of an attribute that is read in a part of a tag. -/
def readAttributeValue? (n : AttributeName) (part : Text) : Option Text :=
  (Text.firstStop (valueRead? n.text) 0 (maskQuoted part)).bind fun stop =>
    (readValue? (part.drop stop)).map (·.value)

theorem hasAttribute_eq_readsAttribute (tag : Text) (n : AttributeName) :
    hasAttribute tag n.text = readsAttribute n (openingTag tag) :=
  hasAttribute_eq tag n.text

theorem attributeValue?_eq_readAttributeValue? (tag : Text) (n : AttributeName) :
    attributeValue? tag n.text = readAttributeValue? n (openingTag tag) := by
  rw [attributeValue?, valueAt?_eq, Option.map_bind, readAttributeValue?]
  congr 1
  funext stop
  rw [Function.comp_apply, Option.map_map]
  rfl

section Lead

variable {n : AttributeName} {lead masked part : Text}

/-- A part before which nothing is found is read alone. -/
theorem readsAttribute_append (hmask : maskQuoted (lead ++ part) = masked ++ maskQuoted part)
    (hnone : Text.firstStop (attributeRead? n.text) 0 (masked ++ maskQuoted part) =
      Text.firstStop (attributeRead? n.text) (0 + masked.length) (maskQuoted part)) :
    readsAttribute n (lead ++ part) = readsAttribute n part := by
  rw [readsAttribute, hmask, hnone, Nat.add_comm, Text.firstStop_add, Option.isSome_map,
    readsAttribute]

theorem readAttributeValue?_append (hmask : maskQuoted (lead ++ part) = masked ++ maskQuoted part)
    (hlength : lead.length = masked.length)
    (hnone : Text.firstStop (valueRead? n.text) 0 (masked ++ maskQuoted part) =
      Text.firstStop (valueRead? n.text) (0 + masked.length) (maskQuoted part)) :
    readAttributeValue? n (lead ++ part) = readAttributeValue? n part := by
  rw [readAttributeValue?, hmask, hnone, Nat.add_comm, Text.firstStop_add, Option.bind_map,
    readAttributeValue?]
  congr 1
  funext stop
  rw [Function.comp_apply, ← hlength, List.drop_length_add_append]

variable (hlead : ∀ c ∈ lead, endsAttribute c = false)

include hlead

theorem maskQuoted_append_of_forall (part : Text) :
    maskQuoted (lead ++ part) = lead ++ maskQuoted part := by
  apply shows_maskQuoted.copies
  intro c hc hquote
  have hends := hlead c hc
  simp only [List.mem_cons, List.not_mem_nil, or_false] at hquote
  rcases hquote with rfl | rfl <;> revert hends <;> decide

/-- Behind characters that end no attribute, a part is read alone. -/
theorem readsAttribute_append_of_forall (n : AttributeName) (part : Text) :
    readsAttribute n (lead ++ part) = readsAttribute n part :=
  readsAttribute_append (maskQuoted_append_of_forall hlead part)
    ((readsName_attributeRead? n).firstStop_letters hlead 0 _)

theorem readAttributeValue?_append_of_forall (n : AttributeName) (part : Text) :
    readAttributeValue? n (lead ++ part) = readAttributeValue? n part :=
  readAttributeValue?_append (maskQuoted_append_of_forall hlead part) rfl
    ((readsName_valueRead? n).firstStop_letters hlead 0 _)

end Lead

theorem head?_maskQuoted (t : Text) : (maskQuoted t).head? = t.head? := by
  cases t <;> rfl

/-- What follows a written attribute in a tag does not go on with its name. Behind an attribute
without a value, it is another one or the end of the tag. -/
structure WrittenAttribute.Precedes (a : WrittenAttribute) (part : Text) : Prop where
  head : part.head?.any isNameChar = false
  bare : a.value = none →
    (part.head? = some ' ' ∨ part.head? = some '>') ∧ valueFollows (maskQuoted part) = false

/-! ## Whether there is an attribute -/

section Reading

variable (n : AttributeName) (a : WrittenAttribute)

/-- What stands behind the name of an attribute. -/
theorem shown_eq (shownValue : QuotedValue → Text) (r : Text)
    (hr : a.value = none → r.head? = some ' ' ∨ r.head? = some '>') :
    ∃ tail x, a.shown shownValue ++ r = ' ' :: (a.name.text ++ tail) ∧ tail.head? = some x ∧
      x ∈ [' ', '>', '='] := by
  unfold WrittenAttribute.shown
  cases hv : a.value with
  | none => rcases hr hv with hr | hr <;> exact ⟨r, _, by simp, hr, by simp⟩
  | some v => exact ⟨'=' :: shownValue v ++ r, '=', by simp, rfl, by simp⟩

theorem endsName_of_head? {x : Char} {r : Text} (hr : r.head? = some x) (hx : x ∈ [' ', '>', '=']) :
    endsName r := by
  obtain ⟨r, rfl⟩ := List.head?_eq_some_iff.mp hr
  simp only [List.mem_cons, List.not_mem_nil, or_false] at hx
  rcases hx with rfl | rfl | rfl <;> simp [endsName, show Text.isBlank ' ' = true by decide,
    show Text.isBlank '=' = false by decide]

theorem attributeRead?_shown {r : Text}
    (hr : a.value = none → r.head? = some ' ' ∨ r.head? = some '>') :
    attributeRead? n.text (a.shown QuotedValue.masked ++ r) =
      if Text.lower a.name.text = Text.lower n.text then some (n.text.length + 1) else none := by
  obtain ⟨tail, x, hshown, htail, hx⟩ := shown_eq a QuotedValue.masked r hr
  have hspelled := startsLike_append n.text_isNameLetter a.name.text_isNameLetter htail hx
    endsName_letter
  rw [hshown, attributeRead?, Bool.and_assoc, hspelled, endsName_of_head? htail hx,
    a.name.lower_text, n.lower_text]
  simp [show endsAttribute ' ' = true by decide]

/-- A written attribute is found, and what follows it is read alone. -/
theorem readsAttribute_shown {part : Text} (hpart : a.Precedes part) :
    readsAttribute n (a.shown QuotedValue.text ++ part) =
      (decide (Text.lower a.name.text = Text.lower n.text) || readsAttribute n part) := by
  have hmask := shows_maskQuoted.written a part
  have hread := attributeRead?_shown n a (r := maskQuoted part) fun hv => by
    rw [head?_maskQuoted]
    exact (hpart.bare hv).1
  by_cases hname : Text.lower a.name.text = Text.lower n.text
  · rw [if_pos hname] at hread
    have hfirst : Text.firstStop (attributeRead? n.text) 0
        (a.shown QuotedValue.masked ++ maskQuoted part) = some (0 + (n.text.length + 1)) :=
      Text.firstStop_cons_of_some hread
    rw [readsAttribute, hmask, hfirst, decide_eq_true hname]
    rfl
  · rw [if_neg hname] at hread
    rw [decide_eq_false hname, Bool.false_or]
    exact readsAttribute_append hmask ((readsName_attributeRead? n).firstStop_attribute a 0
      (by rw [head?_maskQuoted]; exact hpart.head) hread)

end Reading

/-! ## The value of an attribute -/

theorem valueFollows_rest (shownValue : QuotedValue → Text) (attributes : List WrittenAttribute) :
    valueFollows (WrittenTag.rest shownValue attributes) = false := by
  cases attributes with
  | nil => rfl
  | cons a attributes =>
      have hletter : isNameLetter a.name.first :=
        a.name.text_isNameLetter _ (by simp [AttributeName.text])
      obtain ⟨-, hblank, -, hne⟩ := isNameLetter_ne hletter
      simp_all [WrittenTag.rest, WrittenAttribute.shown, AttributeName.text, valueFollows,
        show Text.isBlank ' ' = true by decide]

theorem shown_some {a : WrittenAttribute} {v : QuotedValue} (hv : a.value = some v)
    (shownValue : QuotedValue → Text) (r : Text) :
    a.shown shownValue ++ r = ' ' :: (a.name.text ++ '=' :: (shownValue v ++ r)) := by
  simp [WrittenAttribute.shown, hv]

theorem shown_none {a : WrittenAttribute} (hv : a.value = none) (shownValue : QuotedValue → Text)
    (r : Text) : a.shown shownValue ++ r = ' ' :: (a.name.text ++ r) := by
  simp [WrittenAttribute.shown, hv]

theorem length_eq_of_lower_eq {n m : AttributeName} (h : Text.lower m.text = Text.lower n.text) :
    n.text.length = m.text.length := by
  have hlength := congrArg List.length h
  simpa [m.lower_text, n.lower_text] using hlength.symm

theorem isBlank_mark (q : Quotation) : Text.isBlank q.mark = false := by
  cases q <;> decide

theorem valueRead?_eq_none {name : Text} {c : Char} {r : Text}
    (h : (Text.startsLike name r && valueFollows (r.drop name.length)) = false) :
    valueRead? name (c :: r) = none := by
  rw [valueFollows, List.drop_drop] at h
  simp only [valueRead?, Bool.and_assoc, h, Bool.and_false, Bool.false_eq_true, if_false]

section Value

variable (n : AttributeName) {a : WrittenAttribute}

/-- No value is read behind another name, nor where none follows. -/
theorem valueRead?_name_of_ne {m : AttributeName} {c x : Char} {tail : Text}
    (htail : tail.head? = some x) (hx : x ∈ [' ', '>', '='])
    (h : Text.lower m.text ≠ Text.lower n.text ∨ valueFollows tail = false) :
    valueRead? n.text (c :: (m.text ++ tail)) = none := by
  apply valueRead?_eq_none
  rw [startsLike_append n.text_isNameLetter m.text_isNameLetter htail hx valueFollows_letter,
    ← m.lower_text, ← n.lower_text]
  rcases h with h | h
  · rw [decide_eq_false h, Bool.false_and]
  · rw [h, Bool.and_false]

theorem valueRead?_shown_of_ne {part : Text} (hpart : a.Precedes part)
    (h : Text.lower a.name.text ≠ Text.lower n.text ∨ a.value = none) :
    valueRead? n.text (a.shown QuotedValue.masked ++ maskQuoted part) = none := by
  cases hv : a.value with
  | none =>
      obtain ⟨hhead, hfollows⟩ := hpart.bare hv
      rw [← head?_maskQuoted] at hhead
      rw [shown_none hv]
      rcases hhead with hhead | hhead
      · exact valueRead?_name_of_ne n hhead (by simp) (.inr hfollows)
      · exact valueRead?_name_of_ne n hhead (by simp) (.inr hfollows)
  | some v =>
      have hname : Text.lower a.name.text ≠ Text.lower n.text := by simpa [hv] using h
      rw [shown_some hv]
      exact valueRead?_name_of_ne n (List.head?_cons ..) (by simp) (.inl hname)

theorem valueRead?_shown_of_eq {v : QuotedValue} (hv : a.value = some v)
    (h : Text.lower a.name.text = Text.lower n.text) (r : Text) :
    valueRead? n.text (a.shown QuotedValue.masked ++ r) = some (n.text.length + 2) := by
  have hspelled := startsLike_append n.text_isNameLetter a.name.text_isNameLetter
    (List.head?_cons (a := '=') (l := v.masked ++ r)) (by simp) valueFollows_letter
  rw [← a.name.lower_text, ← n.lower_text, decide_eq_true h, Bool.true_and] at hspelled
  have hstarts : Text.startsLike n.text (a.name.text ++ '=' :: (v.masked ++ r)) = true :=
    ((Bool.and_eq_true _ _).mp (hspelled.trans (by rfl))).1
  rw [shown_some hv]
  exact valueRead?_equals (by decide) hstarts (length_eq_of_lower_eq h).symm
    (by simp [QuotedValue.masked, isBlank_mark])

end Value

/-- A written value is read whole. -/
theorem readValue?_text (v : QuotedValue) (r : Text) :
    readValue? (v.text ++ r) = some ⟨v.text.length, v.content⟩ := by
  have hmark := v.quotation.mark_mem
  have htake : (v.content ++ v.quotation.mark :: r).takeWhile (· != v.quotation.mark) =
      v.content := by
    rw [List.takeWhile_append_of_pos, List.takeWhile_cons_of_neg, List.append_nil]
    · simp
    · intro c hc
      simpa using fun heq : c = v.quotation.mark => v.mark_notMem (heq ▸ hc)
  simp only [List.mem_cons, List.not_mem_nil, or_false] at hmark
  simp [QuotedValue.text, readValue?, hmark, htake]

theorem length_shown (a : WrittenAttribute) :
    (a.shown QuotedValue.text).length = (a.shown QuotedValue.masked).length := by
  unfold WrittenAttribute.shown
  cases a.value <;> simp [QuotedValue.text, QuotedValue.masked]

/-- A written attribute with a value gives it, and what follows the attribute is read alone. -/
theorem readAttributeValue?_shown (n : AttributeName) (a : WrittenAttribute) {part : Text}
    (hpart : a.Precedes part) :
    readAttributeValue? n (a.shown QuotedValue.text ++ part) =
      (if Text.lower a.name.text = Text.lower n.text then a.value.map (·.content) else none).or
        (readAttributeValue? n part) := by
  have hmask := shows_maskQuoted.written a part
  by_cases hfound : Text.lower a.name.text = Text.lower n.text ∧ a.value.isSome
  · -- The place is found in the masked tag, and the value stands there in the tag itself.
    obtain ⟨hname, hsome⟩ := hfound
    obtain ⟨v, hv⟩ := Option.isSome_iff_exists.mp hsome
    have hfirst : Text.firstStop (valueRead? n.text) 0
        (a.shown QuotedValue.masked ++ maskQuoted part) = some (0 + (n.text.length + 2)) :=
      Text.firstStop_cons_of_some (valueRead?_shown_of_eq n hv hname _)
    have hdrop : (a.shown QuotedValue.text ++ part).drop (0 + (n.text.length + 2)) =
        v.text ++ part := by
      have hshown : a.shown QuotedValue.text ++ part =
          (' ' :: a.name.text ++ ['=']) ++ (v.text ++ part) := by
        simp [shown_some hv]
      rw [hshown, length_eq_of_lower_eq hname, List.drop_left']
      simp
    rw [readAttributeValue?, hmask, hfirst, Option.bind_some, hdrop, readValue?_text, Option.map_some,
      if_pos hname, hv]
    rfl
  · have hne : Text.lower a.name.text ≠ Text.lower n.text ∨ a.value = none := by
      rwa [not_and_or, Bool.not_eq_true, Option.isSome_eq_false_iff,
        Option.isNone_iff_eq_none] at hfound
    have hnone : (if Text.lower a.name.text = Text.lower n.text then
        a.value.map (·.content) else none) = none := by
      rcases hne with hne | hne <;> simp [hne]
    rw [hnone, Option.none_or]
    exact readAttributeValue?_append hmask (length_shown a)
      ((readsName_valueRead? n).firstStop_attribute a 0
        (by rw [head?_maskQuoted]; exact hpart.head) (valueRead?_shown_of_ne n hpart hne))

/-! ## All attributes of a tag -/

theorem precedes_rest (a : WrittenAttribute) (attributes : List WrittenAttribute) :
    a.Precedes (WrittenTag.rest QuotedValue.text attributes) where
  head := WrittenTag.head?_rest_not_isNameChar ..
  bare _ := ⟨WrittenTag.head?_rest .., by rw [shows_maskQuoted.rest, valueFollows_rest]⟩

section All

variable (n : AttributeName)

theorem readsAttribute_rest (attributes : List WrittenAttribute) :
    readsAttribute n (WrittenTag.rest QuotedValue.text attributes) =
      attributes.any fun a => decide (Text.lower a.name.text = Text.lower n.text) := by
  induction attributes with
  | nil => rfl
  | cons a attributes ih =>
      rw [WrittenTag.rest_cons, readsAttribute_shown n a (precedes_rest a attributes), ih,
        List.any_cons]

theorem readAttributeValue?_rest (attributes : List WrittenAttribute) :
    readAttributeValue? n (WrittenTag.rest QuotedValue.text attributes) =
      attributes.findSome? fun a =>
        if Text.lower a.name.text = Text.lower n.text then a.value.map (·.content) else none := by
  induction attributes with
  | nil => rfl
  | cons a attributes ih =>
      rw [WrittenTag.rest_cons, readAttributeValue?_shown n a (precedes_rest a attributes), ih,
        List.findSome?_cons]
      cases if Text.lower a.name.text = Text.lower n.text then a.value.map (·.content) else none <;>
        rfl

end All

/-- Nothing is read in the name of a tag. -/
theorem WrittenTag.not_endsAttribute (tag : WrittenTag) :
    ∀ c ∈ '<' :: tag.name, endsAttribute c = false := by
  intro c hc
  rcases List.mem_cons.mp hc with rfl | hc
  · decide
  · exact (isNameLetter_ne (tag.name_isNameLetter c hc)).1

/-- A written tag has the attributes that were written. -/
theorem hasAttribute_text (tag : WrittenTag) (n : AttributeName) :
    hasAttribute tag.text n.text =
      tag.attributes.any fun a => decide (Text.lower a.name.text = Text.lower n.text) := by
  rw [hasAttribute_eq_readsAttribute, openingTag_text, ← readsAttribute_rest]
  exact readsAttribute_append_of_forall tag.not_endsAttribute n _

theorem attributeValue?_text (tag : WrittenTag) (n : AttributeName) :
    attributeValue? tag.text n.text = tag.attributes.findSome? fun a =>
      if Text.lower a.name.text = Text.lower n.text then a.value.map (·.content) else none := by
  rw [attributeValue?_eq_readAttributeValue?, openingTag_text, ← readAttributeValue?_rest]
  exact readAttributeValue?_append_of_forall tag.not_endsAttribute n _

/-! ## The names of all attributes -/

theorem namesIn_append {b : Text} (h : ∀ c ∈ b, Text.isBlank c = false) (r : Text) :
    namesIn (b ++ r) = namesIn r := by
  induction b with
  | nil => rfl
  | cons c b ih =>
      rw [List.forall_mem_cons] at h
      simp [namesIn, h.1, ih h.2]

theorem takeWhile_append_eq {accepts : Char → Bool} {b tail : Text} (hb : ∀ c ∈ b, accepts c)
    {x : Char} (htail : tail.head? = some x) (hx : accepts x = false) :
    (b ++ tail).takeWhile accepts = b := by
  obtain ⟨r, rfl⟩ := List.head?_eq_some_iff.mp htail
  rw [List.takeWhile_append_of_pos hb, List.takeWhile_cons_of_neg (by simp [hx]), List.append_nil]

theorem startsAttributeName_first (n : AttributeName) : startsAttributeName n.first := by
  simp [startsAttributeName, n.first_isAlpha]

theorem namesIn_rest (attributes : List WrittenAttribute) :
    namesIn (WrittenTag.rest (fun _ => ['"', '"']) attributes) =
      attributes.map fun a => a.name.text := by
  induction attributes with
  | nil => rfl
  | cons a attributes ih =>
      have hletters := a.name.text_isNameLetter
      have hblank : ∀ c ∈ a.name.text, Text.isBlank c = false :=
        fun c hc => (isNameLetter_ne (hletters c hc)).2.1
      have hchar : ∀ c ∈ a.name.text, isAttributeNameChar c :=
        fun c hc => (isNameLetter_ne (hletters c hc)).2.2.1
      obtain ⟨tail, x, hshown, htail, hx⟩ := shown_eq a (fun _ => ['"', '"'])
        (WrittenTag.rest (fun _ => ['"', '"']) attributes) fun _ => WrittenTag.head?_rest ..
      have hname : (a.name.text ++ tail).takeWhile isAttributeNameChar = a.name.text := by
        refine takeWhile_append_eq hchar htail ?_
        simp only [List.mem_cons, List.not_mem_nil, or_false] at hx
        rcases hx with rfl | rfl | rfl <;> decide
      have hhead : (a.name.text ++ tail).head?.any startsAttributeName := by
        simp [AttributeName.text, startsAttributeName_first]
      have htailNames : namesIn tail =
          namesIn (WrittenTag.rest (fun _ => ['"', '"']) attributes) := by
        cases hv : a.value with
        | none =>
            rw [shown_none hv, List.cons.injEq, List.append_cancel_left_eq] at hshown
            rw [hshown.2]
        | some v =>
            rw [shown_some hv, List.cons.injEq, List.append_cancel_left_eq] at hshown
            rw [← hshown.2]
            refine namesIn_append (b := ['=', '"', '"']) ?_ _
            rw [List.forall_mem_cons, List.forall_mem_cons, List.forall_mem_singleton]
            decide
      rw [WrittenTag.rest_cons, hshown, namesIn, if_pos, hname, namesIn_append hblank, htailNames,
        ih, List.map_cons]
      rw [hhead]
      decide

/-- The length of the name that a written tag is read to have: none if it starts with a digit. -/
theorem length_tagName_shown (tag : WrittenTag) (shownValue : QuotedValue → Text) :
    (tagName (tag.shown shownValue)).length = tag.name.length ∨
      (tagName (tag.shown shownValue)).length = 0 := by
  obtain ⟨c, others, hname⟩ := List.exists_cons_of_ne_nil tag.name_ne_nil
  have hletters := tag.name_isNameLetter
  have hshown : tag.shown shownValue =
      '<' :: c :: (others ++ WrittenTag.rest shownValue tag.attributes) := by
    simp [WrittenTag.shown, hname]
  by_cases hc : c.isAlpha
  · left
    have hchars : ∀ d ∈ tag.name, isNameChar d := by
      intro d hd
      exact Text.forall_plain (P := fun d => d.isAlphanum → isNameChar d) (by decide) d
        (plain_of_isNameLetter (hletters d hd)) (List.all_eq_true.mp tag.name_isAlphanum d hd)
    have htake : (tag.name ++ WrittenTag.rest shownValue tag.attributes).takeWhile isNameChar =
        tag.name := by
      rcases WrittenTag.head?_rest shownValue tag.attributes with hhead | hhead
      · exact takeWhile_append_eq hchars hhead (by decide)
      · exact takeWhile_append_eq hchars hhead (by decide)
    rw [hname, List.cons_append] at htake
    rw [hshown, tagName, tagHead?_of_isAlpha hc]
    simp only [htake, ← hname]
    rw [Text.lower_of_plain fun d hd => plain_of_isNameLetter (hletters d hd), List.length_map]
  · right
    have hblank : Text.isBlank c = false := (isNameLetter_ne (hletters c (by simp [hname]))).2.1
    rw [hshown, tagName, tagHead?_of_not_isAlpha hblank (by simpa using hc)]
    rfl

theorem attributeNames_text (tag : WrittenTag) :
    attributeNames tag.text = tag.attributes.map fun a => Text.lower a.name.text := by
  have hname : ∀ c ∈ tag.name, Text.isBlank c = false :=
    fun c hc => (isNameLetter_ne (tag.name_isNameLetter c hc)).2.1
  have hdrop : namesIn ((tag.shown fun _ => ['"', '"']).drop
      ((tagName (tag.shown fun _ => ['"', '"'])).length + 1)) =
      namesIn (WrittenTag.rest (fun _ => ['"', '"']) tag.attributes) := by
    rcases length_tagName_shown tag fun _ => ['"', '"'] with hlength | hlength
    · rw [hlength]
      simp [WrittenTag.shown]
    · rw [hlength]
      exact namesIn_append hname _
  rw [attributeNames, openingTag_text, shows_collapseQuoted.tag, hdrop, namesIn_rest, List.map_map]
  rfl

/-! ## Repeated names -/

theorem opener_notMem_rest (attributes : List WrittenAttribute) :
    '<' ∉ WrittenTag.rest (fun _ => ['"', '"']) attributes := by
  have hletters : ∀ {b : Text}, (∀ c ∈ b, isNameLetter c) → '<' ∉ b := by
    intro b hb hmem
    have := hb _ hmem
    revert this
    decide
  induction attributes with
  | nil => decide
  | cons a attributes ih =>
      rw [WrittenTag.rest_cons, List.mem_append, not_or]
      refine ⟨?_, ih⟩
      unfold WrittenAttribute.shown
      cases a.value <;> simp [hletters a.name.text_isNameLetter]

/-- A written tag is malformed just if a name is repeated in it. -/
theorem isMalformed_text (tag : WrittenTag) :
    Guideline.Compatibility.isMalformed tag.text =
      !decide (tag.attributes.map fun a => Text.lower a.name.text).Nodup := by
  obtain ⟨c, others, hname⟩ := List.exists_cons_of_ne_nil tag.name_ne_nil
  have hletters := tag.name_isNameLetter
  have hclosing : "</".toList.isPrefixOf tag.text = false := by
    have hc := (isNameLetter_ne (hletters c (by simp [hname]))).2.2.2
    have hslash : ('/' == c) = false := by
      rw [beq_eq_false_iff_ne]
      rintro rfl
      simp at hc
    simp [WrittenTag.text, WrittenTag.shown, hname, List.isPrefixOf, hslash]
  have hopener : ((collapseQuoted tag.text).drop 1).contains '<' = false := by
    rw [shows_collapseQuoted.tag]
    have hname : '<' ∉ tag.name := by
      intro hmem
      have := hletters _ hmem
      revert this
      decide
    simpa [WrittenTag.shown, hname] using opener_notMem_rest tag.attributes
  rw [Guideline.Compatibility.isMalformed, hclosing, hopener, attributeNames_text, Bool.false_or,
    Bool.or_false]

/-- What is read from a written tag is what was written: which attributes it has, the value of the
first one that is given a value, and all names in order. The rule on malformed tags answers whether
a name is repeated. -/
theorem readers_agree (tag : WrittenTag) :
    (∀ n : AttributeName,
      (hasAttribute tag.text n.text ↔
        ∃ a ∈ tag.attributes, Text.lower a.name.text = Text.lower n.text) ∧
      attributeValue? tag.text n.text = tag.attributes.findSome? fun a =>
        if Text.lower a.name.text = Text.lower n.text then a.value.map (·.content) else none) ∧
    (attributeNames tag.text = tag.attributes.map fun a => Text.lower a.name.text) ∧
    ∀ document, Guideline.Compatibility.malformedTag.condition tag.text document =
      .ok (!decide (tag.attributes.map fun a => Text.lower a.name.text).Nodup) := by
  refine ⟨fun n => ⟨?_, attributeValue?_text tag n⟩, attributeNames_text tag, fun document => ?_⟩
  · rw [hasAttribute_text, List.any_eq_true]
    simp only [decide_eq_true_eq]
  · rw [← isMalformed_text]
    rfl

/-- A name is written twice, first without a value, and another one only in a value. -/
theorem readers_agree_name_twice :
    let title : AttributeName := ⟨'T', "itle".toList, by decide, by decide⟩
    let other : AttributeName := ⟨'d', "ata-x".toList, by decide, by decide⟩
    let again : AttributeName := ⟨'t', "itle".toList, by decide, by decide⟩
    let absent : AttributeName := ⟨'a', "lt".toList, by decide, by decide⟩
    let tag : WrittenTag :=
      { name := "img".toList
        attributes := [⟨title, none⟩,
          ⟨other, some ⟨.single, "a alt=\"".toList, by simp [Quotation.mark], by simp⟩⟩,
          ⟨again, some ⟨.double, "b".toList, by simp [Quotation.mark], by simp⟩⟩]
        name_ne_nil := by simp
        name_isAlphanum := by decide }
    String.ofList tag.text = "<img Title data-x='a alt=\"' title=\"b\">" ∧
      hasAttribute tag.text title.text ∧ ¬hasAttribute tag.text absent.text ∧
      attributeValue? tag.text title.text = some "b".toList ∧
      attributeNames tag.text = ["title".toList, "data-x".toList, "title".toList] ∧
      ∀ document, Guideline.Compatibility.malformedTag.condition tag.text document = .ok true := by
  intro title other again absent tag
  have hlower : (tag.attributes.map fun a => Text.lower a.name.text) =
      ["title".toList, "data-x".toList, "title".toList] := by
    decide +kernel
  obtain ⟨hread, hnames, hmalformed⟩ := readers_agree tag
  have htitle : hasAttribute tag.text title.text :=
    (hread title).1.mpr ⟨⟨title, none⟩, List.mem_cons_self .., rfl⟩
  have habsent : ¬hasAttribute tag.text absent.text := by
    rw [(hread absent).1]
    decide +kernel
  have hvalue : attributeValue? tag.text title.text = some "b".toList := by
    rw [(hread title).2]
    decide +kernel
  refine ⟨by decide +kernel, htitle, habsent, hvalue, hnames.trans hlower, fun document => ?_⟩
  rw [hmalformed, hlower]
  rfl

end MarkupAudit.Markup
