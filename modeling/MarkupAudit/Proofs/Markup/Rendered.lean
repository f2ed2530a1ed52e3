import MarkupAudit.Proofs.Markup.Insertion
import MarkupAudit.Proofs.Text.Spelling

/-! # Tags with attributes of any name

A rendered tag has attributes of any names, each behind a space and bare, with a quoted value or
with an unquoted one. All of them are read, and also the names that stand behind a slash at the end
of an unquoted value. -/

namespace MarkupAudit.Markup

open Text

/-! ## Rendered tags -/

/-- A character that ends the name of an attribute. -/
def endsToken (c : Char) : Bool :=
  endsAttribute c || c = '=' || c = '>'

/-- The name of an attribute, of any characters that do not end it. -/
structure Token where
  text : Text
  ne_nil : text ≠ []
  not_endsToken : ∀ c ∈ text, endsToken c = false

/-- A value without quotation marks. Unlike a name, it may have slashes. -/
structure UnquotedValue where
  content : Text
  ne_nil : content ≠ []
  not_endsToken : ∀ c ∈ content, c = '/' ∨ endsToken c = false

/-- The name with the characters. -/
def Token.of (text : Text) (h : !text.isEmpty && text.all fun c => !endsToken c) : Token where
  text := text
  ne_nil := by
    rintro rfl
    cases h
  not_endsToken c hc := by
    simpa using List.all_eq_true.mp (Bool.and_eq_true_iff.mp h).2 c hc

/-- The unquoted value with the characters. -/
def UnquotedValue.of (content : Text)
    (h : !content.isEmpty && content.all fun c => c = '/' || !endsToken c) : UnquotedValue where
  content := content
  ne_nil := by
    rintro rfl
    cases h
  not_endsToken c hc := by
    simpa using List.all_eq_true.mp (Bool.and_eq_true_iff.mp h).2 c hc

/-- A value as it is rendered. -/
inductive RenderedValue where
  | quoted (v : QuotedValue)
  | unquoted (v : UnquotedValue)

namespace RenderedValue

/-- The value itself. -/
def content : RenderedValue → Text
  | .quoted v => v.content
  | .unquoted v => v.content

/-- The value as it stands in a tag. -/
def text : RenderedValue → Text
  | .quoted v => v.text
  | .unquoted v => v.content

/-- The value as it stands in a masked tag. -/
def masked : RenderedValue → Text
  | .quoted v => v.masked
  | .unquoted v => v.content

end RenderedValue

/-- An attribute, with or without a value. -/
structure RenderedAttribute where
  name : Token
  value : Option RenderedValue

namespace RenderedAttribute

/-- What stands behind the name of the attribute, with its value shown in some way. -/
def assignment (shownValue : RenderedValue → Text) (a : RenderedAttribute) : Text :=
  a.value.elim [] fun v => '=' :: shownValue v

/-- The attribute behind a space, with its value shown in some way. -/
def shown (shownValue : RenderedValue → Text) (a : RenderedAttribute) : Text :=
  ' ' :: (a.name.text ++ a.assignment shownValue)

/-- Whether the attribute has the name, ignoring case. -/
def isNamed (n : Text) (a : RenderedAttribute) : Bool :=
  isSpelled n a.name.text

/-- Whether the attribute has an unquoted value. -/
def isUnquoted (a : RenderedAttribute) : Bool :=
  match a.value with
  | some (.unquoted _) => true
  | _ => false

end RenderedAttribute

/-- An opening tag. -/
structure RenderedTag where
  name : Text
  attributes : List RenderedAttribute
  name_isNameChar : ∀ c ∈ name, isNameChar c

namespace RenderedTag

/-- What follows the name, with the values shown in some way. -/
def rest (shownValue : RenderedValue → Text) (attributes : List RenderedAttribute) : Text :=
  attributes.flatMap (·.shown shownValue) ++ ['>']

/-- The tag as it is written. -/
def text (tag : RenderedTag) : Text :=
  '<' :: (tag.name ++ rest RenderedValue.text tag.attributes)

end RenderedTag

/-! ## The ends of names -/

theorem caseless_of_endsToken {c : Char} (h : endsToken c) : Caseless c := by
  simp only [endsToken, endsAttribute, Bool.or_eq_true, decide_eq_true_eq] at h
  rcases h with ((((h | rfl) | rfl) | rfl) | rfl) | rfl
  · exact caseless_of_isBlank h
  all_goals exact caseless_of_not_letter (by decide) (by decide) (by decide)

theorem endsToken_eq_false {c : Char} (h : endsToken c = false) :
    endsAttribute c = false ∧ isBlank c = false ∧ c ∉ ['"', '\'', '/', '=', '>', '\n'] := by
  have hnewline : c ≠ '\n' := by rintro rfl; revert h; decide
  simp only [endsToken, endsAttribute, Bool.or_eq_false_iff, decide_eq_false_iff_not] at h
  simp [endsAttribute, h, hnewline]

theorem endsName_token (c : Char) (r : Text) (h : endsToken c = false) :
    endsName (c :: r) = false := by
  obtain ⟨-, hblank, hne⟩ := endsToken_eq_false h
  simp only [List.mem_cons, List.not_mem_nil, or_false, not_or] at hne
  simp [endsName_cons, hblank, hne]

theorem valueFollows_token (c : Char) (r : Text) (h : endsToken c = false) :
    valueFollows (c :: r) = false := by
  obtain ⟨-, hblank, hne⟩ := endsToken_eq_false h
  simp_all [valueFollows]

section Token

variable (n : Token) {m tail : Text} (hm : ∀ c ∈ m, endsToken c = false)
  (htail : tail.head?.all endsToken)

include hm htail

/-- Behind the end of something, a name is read together with what ends it. -/
theorem attributeRead?_token {e : Char} (he : endsAttribute e) :
    attributeRead? n.text (e :: (m ++ tail)) =
      if isSpelled n.text m && endsName tail then some (n.text.length + 1) else none := by
  rw [attributeRead?, he, Bool.true_and, startsLike_append_of_stop (fun _ => caseless_of_endsToken)
    n.not_endsToken hm htail endsName_token]

theorem valueRead?_token (e : Char) (h : (isSpelled n.text m && valueFollows tail) = false) :
    valueRead? n.text (e :: (m ++ tail)) = none := by
  apply valueRead?_eq_none
  rwa [startsLike_append_of_stop (fun _ => caseless_of_endsToken) n.not_endsToken hm htail
    valueFollows_token]

end Token

/-! ## Masked tags -/

theorem UnquotedValue.ne_mark (v : UnquotedValue) : ∀ c ∈ v.content, c ∉ ['"', '\'', '>', '='] := by
  intro c hc
  rcases v.not_endsToken c hc with rfl | hends
  · decide
  · have := (endsToken_eq_false hends).2.2
    simp_all

theorem Token.ne_mark (n : Token) : ∀ c ∈ n.text, c ∉ ['"', '\'', '>', '='] := by
  intro c hc
  have := (endsToken_eq_false (n.not_endsToken c hc)).2.2
  simp_all

theorem maskQuoted_value (v : RenderedValue) (r : Text) :
    maskQuoted (v.text ++ r) = v.masked ++ maskQuoted r := by
  cases v with
  | quoted v => exact shows_maskQuoted.value v r
  | unquoted v =>
      apply shows_maskQuoted.copies
      intro c hc
      have := v.ne_mark c hc
      simp_all

theorem maskQuoted_shown (a : RenderedAttribute) (r : Text) :
    maskQuoted (a.shown RenderedValue.text ++ r) = a.shown RenderedValue.masked ++ maskQuoted r := by
  have hname : ∀ tail, maskQuoted (' ' :: (a.name.text ++ tail)) =
      ' ' :: (a.name.text ++ maskQuoted tail) := by
    intro tail
    refine shows_maskQuoted.copies (' ' :: a.name.text) tail
      (List.forall_mem_cons.mpr ⟨by decide, ?_⟩)
    intro c hc
    have := a.name.ne_mark c hc
    simp_all
  have hsign : ∀ tail, maskQuoted ('=' :: tail) = '=' :: maskQuoted tail :=
    fun tail => shows_maskQuoted.copies ['='] tail (List.forall_mem_singleton.mpr (by decide))
  unfold RenderedAttribute.shown RenderedAttribute.assignment
  cases a.value with
  | none => simp [hname]
  | some v => simp [hname, hsign, maskQuoted_value]

theorem RenderedTag.rest_cons (shownValue : RenderedValue → Text) (a : RenderedAttribute)
    (attributes : List RenderedAttribute) :
    rest shownValue (a :: attributes) = a.shown shownValue ++ rest shownValue attributes := by
  rw [rest, List.flatMap_cons, List.append_assoc, rest]

theorem maskQuoted_rest (attributes : List RenderedAttribute) :
    maskQuoted (RenderedTag.rest RenderedValue.text attributes) =
      RenderedTag.rest RenderedValue.masked attributes := by
  induction attributes with
  | nil => rfl
  | cons a attributes ih => rw [RenderedTag.rest_cons, maskQuoted_shown, ih, RenderedTag.rest_cons]

theorem RenderedAttribute.bracket_notMem (a : RenderedAttribute) :
    '>' ∉ a.shown RenderedValue.text := by
  have hname : '>' ∉ a.name.text := fun hmem => a.name.ne_mark _ hmem (by decide)
  unfold shown assignment
  cases a.value with
  | none => simpa using hname
  | some v =>
      have hvalue : '>' ∉ v.text := by
        cases v with
        | quoted v => exact v.bracket_notMem_text
        | unquoted v => exact fun hmem => v.ne_mark _ hmem (by decide)
      simpa using ⟨hname, hvalue⟩

theorem openingTag_rest (attributes : List RenderedAttribute) :
    openingTag (RenderedTag.rest RenderedValue.text attributes) =
      RenderedTag.rest RenderedValue.text attributes := by
  induction attributes with
  | nil => rfl
  | cons a attributes ih =>
      rw [RenderedTag.rest_cons, openingTag_append_of_notMem a.bracket_notMem, ih]

theorem RenderedAttribute.shown_append (a : RenderedAttribute) (shownValue : RenderedValue → Text)
    (r : Text) : a.shown shownValue ++ r = ' ' :: (a.name.text ++ (a.assignment shownValue ++ r)) := by
  simp [shown]

/-- A name ends before its value and before what follows an attribute. -/
theorem ends_assignment (a : RenderedAttribute) (shownValue : RenderedValue → Text) {r : Text}
    (hr : r.head? = some ' ' ∨ r.head? = some '>') :
    (a.assignment shownValue ++ r).head?.all endsToken ∧ endsName (a.assignment shownValue ++ r) := by
  unfold RenderedAttribute.assignment
  cases a.value with
  | none =>
      rcases hr with hr | hr <;> obtain ⟨r, rfl⟩ := List.head?_eq_some_iff.mp hr <;>
        simp [endsName_cons, show isBlank ' ' = true by decide,
          show endsToken ' ' = true by decide, show endsToken '>' = true by decide]
  | some v => simp [endsName_cons, show endsToken '=' = true by decide]

theorem RenderedTag.head?_rest_eq_bracket_iff (shownValue : RenderedValue → Text)
    (attributes : List RenderedAttribute) :
    (rest shownValue attributes).head? = some '>' ↔ attributes = [] := by
  cases attributes with
  | nil => simp [rest]
  | cons a attributes => simp [rest_cons, RenderedAttribute.shown]

/-- What follows an attribute: another one, or the end of the tag. -/
theorem RenderedTag.head?_rest (shownValue : RenderedValue → Text)
    (attributes : List RenderedAttribute) :
    (rest shownValue attributes).head? = some ' ' ∨ (rest shownValue attributes).head? = some '>' := by
  cases attributes with
  | nil => exact .inr rfl
  | cons a attributes => exact .inl rfl

/-! ## Passing over attributes -/

/-- A reader of names: it reads nothing but behind the end of something and before a name. -/
structure ReadsToken (read? : Text → Option ℕ) : Prop where
  starts : ∀ c r, endsAttribute c = false → read? (c :: r) = none
  names : ∀ c r, r.head?.all endsToken → read? (c :: r) = none

theorem Token.startsLike_eq_false (n : Token) {r : Text} (hr : r.head?.all endsToken) :
    startsLike n.text r = false := by
  obtain ⟨c, others, hn⟩ := List.exists_cons_of_ne_nil n.ne_nil
  have hc : endsToken c = false := n.not_endsToken c (by simp [hn])
  rw [hn]
  exact startsLike_eq_false_of_stop (fun _ => caseless_of_endsToken) hc others hr

theorem readsToken_attributeRead? (n : Token) : ReadsToken (attributeRead? n.text) where
  starts c r h := by simp [attributeRead?, h]
  names c r h := by simp [attributeRead?, n.startsLike_eq_false h]

theorem readsToken_valueRead? (n : Token) : ReadsToken (valueRead? n.text) where
  starts c r h := by simp [valueRead?, h]
  names c r h := by simp [valueRead?, n.startsLike_eq_false h]

namespace ReadsToken

variable {read? : Text → Option ℕ} (h : ReadsToken read?)

include h

/-- Nothing is read at a mark or a space of a masked value: another mark or space is behind each of
them. -/
theorem firstStop_quoted (v : QuotedValue) (k : ℕ) {r : Text} (hr : r.head?.all endsToken) :
    firstStop read? k (v.masked ++ r) = firstStop read? (k + v.masked.length) r := by
  have hmark : endsToken v.quotation.mark := by
    cases v.quotation <;> decide
  have hmasked : ∀ x ∈ v.masked, endsToken x := by
    intro x hx
    simp only [QuotedValue.masked, List.mem_append, List.mem_cons, List.mem_replicate,
      List.not_mem_nil, or_false] at hx
    rcases hx with (rfl | ⟨-, rfl⟩) | rfl
    · exact hmark
    · decide
    · exact hmark
  apply firstStop_append
  intro w c s hs
  cases s with
  | nil => exact h.names c r hr
  | cons d s => exact h.names c (d :: (s ++ r)) (by simpa using hmasked d (by simp [hs]))

/-- An attribute at which nothing is read is passed over. -/
theorem firstStop_attribute (a : RenderedAttribute) (k : ℕ) {r : Text}
    (hr : r.head?.all endsToken) (hname : read? (a.shown RenderedValue.masked ++ r) = none)
    (hvalue : ∀ v, a.value = some (.unquoted v) →
      ∀ w c s, v.content = w ++ c :: s → read? (c :: (s ++ r)) = none) :
    firstStop read? k (a.shown RenderedValue.masked ++ r) =
      firstStop read? (k + (a.shown RenderedValue.masked).length) r := by
  have hletters : ∀ c ∈ a.name.text, ∀ s, read? (c :: s) = none :=
    fun c hc s => h.starts c s (endsToken_eq_false (a.name.not_endsToken c hc)).1
  unfold RenderedAttribute.shown RenderedAttribute.assignment at hname ⊢
  rw [List.cons_append, List.append_assoc] at hname ⊢
  rw [firstStop_cons_of_none hname, firstStop_append_of_forall hletters]
  cases hv : a.value with
  | none =>
      congr 1
      simp
      omega
  | some v =>
      have hsign : ∀ s, read? ('=' :: s) = none := fun s => h.starts '=' s (by decide)
      have hpass : ∀ k, firstStop read? k (v.masked ++ r) =
          firstStop read? (k + v.masked.length) r := by
        intro k
        cases v with
        | quoted v => exact h.firstStop_quoted v k hr
        | unquoted v => exact firstStop_append (hvalue v hv)
      rw [Option.elim_some, List.cons_append, firstStop_cons_of_none (hsign _), hpass]
      congr 1
      simp
      omega

end ReadsToken

theorem RenderedTag.lead_ne (tag : RenderedTag) :
    ∀ c ∈ '<' :: tag.name, endsAttribute c = false ∧ c ≠ '>' := by
  rw [List.forall_mem_cons]
  exact ⟨by decide, fun c hc => isNameChar_ne (tag.name_isNameChar c hc)⟩

theorem RenderedTag.openingTag_text (tag : RenderedTag) : openingTag tag.text = tag.text := by
  rw [text, ← List.cons_append, openingTag_append_of_notMem fun hmem => (tag.lead_ne '>' hmem).2 rfl,
    openingTag_rest]

/-- Nothing is read in the name of a tag. -/
theorem RenderedTag.firstStop_text {read? : Text → Option ℕ} (h : ReadsToken read?)
    (tag : RenderedTag) :
    firstStop read? 0 (maskQuoted (openingTag tag.text)) =
      firstStop read? (tag.name.length + 1) (rest RenderedValue.masked tag.attributes) := by
  have hlead : ∀ c ∈ '<' :: tag.name, endsAttribute c = false := fun c hc => (tag.lead_ne c hc).1
  rw [tag.openingTag_text, text, ← List.cons_append, maskQuoted_append_of_forall hlead,
    maskQuoted_rest, firstStop_append_of_forall fun c hc s => h.starts c s (hlead c hc),
    Nat.zero_add, List.length_cons]

/-! ## Which attributes are read -/

/-- Behind a slash, the end of an unquoted value is taken for an attribute of the name: either all
that follows the slash, or, at the end of the tag, all but another slash. -/
def UnquotedValue.Mimics (v : UnquotedValue) (n : Text) (atEnd : Prop) : Prop :=
  ∃ before w, isSpelled n w ∧
    (v.content = before ++ '/' :: w ∨ atEnd ∧ v.content = before ++ '/' :: (w ++ ['/']))

/-- The unquoted value of an attribute is taken for one of the name. -/
def RenderedAttribute.Mimics (a : RenderedAttribute) (n : Text) (atEnd : Prop) : Prop :=
  ∃ v, a.value = some (.unquoted v) ∧ v.Mimics n atEnd

section Reading

variable (n : Token)

theorem isSome_attributeRead?_slash {s r : Text} (hs : ∀ c ∈ s, c = '/' ∨ endsToken c = false)
    (hr : r.head? = some ' ' ∨ r.head? = some '>') :
    (attributeRead? n.text ('/' :: (s ++ r))).isSome ↔
      isSpelled n.text s ∨ r.head? = some '>' ∧ ∃ w, s = w ++ ['/'] ∧ isSpelled n.text w := by
  have hends : endsName r ∧ r.head?.all endsToken := by
    rcases hr with hr | hr <;> obtain ⟨r, rfl⟩ := List.head?_eq_some_iff.mp hr <;>
      simp [endsName_cons, show isBlank ' ' = true by decide, show endsToken ' ' = true by decide,
        show endsToken '>' = true by decide]
  have hspelled : ∀ w, isSpelled n.text w → '/' ∉ w := by
    intro w hw hmem
    have := not_stops_of_isSpelled (fun _ => caseless_of_endsToken) n.not_endsToken hw _ hmem
    revert this
    decide
  by_cases hslash : '/' ∈ s
  · -- The name can only stand before the first slash, with the tag ending right behind this slash.
    obtain ⟨m, s, rfl, hnone⟩ := List.eq_append_cons_of_mem hslash
    have hm : ∀ c ∈ m, endsToken c = false :=
      fun c hc => (hs c (by simp [hc])).resolve_left fun heq => hnone (heq ▸ hc)
    rw [List.append_assoc, List.cons_append,
      attributeRead?_token n hm (by simp; decide) (by decide), endsName_cons]
    constructor
    · intro h
      obtain ⟨hw, hhead⟩ : isSpelled n.text m ∧ (s ++ r).head? = some '>' := by
        simpa [show isBlank '/' = false by decide] using h
      cases s with
      | nil => exact .inr ⟨hhead, m, rfl, hw⟩
      | cons d s =>
          obtain rfl := Option.some.inj hhead
          exact absurd (hs '>' (by simp)) (by decide)
    · rintro (hw | ⟨hbracket, w, heq, hw⟩)
      · exact absurd (by simp) (hspelled _ hw)
      · obtain ⟨rfl, -, rfl⟩ :=
          (List.append_cons_inj_of_notMem (hspelled w hw) List.not_mem_nil).mp heq.symm
        simp [hw, hbracket]
  · have hs : ∀ c ∈ s, endsToken c = false :=
      fun c hc => (hs c hc).resolve_left fun heq => hslash (heq ▸ hc)
    rw [attributeRead?_token n hs hends.2 (by decide), hends.1, Bool.and_true]
    constructor
    · intro h
      exact .inl (by simpa using h)
    · rintro (hw | ⟨-, w, rfl, -⟩)
      · rw [if_pos hw]
        rfl
      · exact absurd (by simp) hslash

/-- The value is taken for an attribute just if one is read behind one of its slashes. -/
theorem mimics_iff (v : UnquotedValue) {r : Text} (hr : r.head? = some ' ' ∨ r.head? = some '>') :
    v.Mimics n.text (r.head? = some '>') ↔
      ∃ w s, v.content = w ++ '/' :: s ∧ (attributeRead? n.text ('/' :: (s ++ r))).isSome := by
  have hread : ∀ {w s}, v.content = w ++ '/' :: s →
      ((attributeRead? n.text ('/' :: (s ++ r))).isSome ↔
        isSpelled n.text s ∨ r.head? = some '>' ∧ ∃ w, s = w ++ ['/'] ∧ isSpelled n.text w) :=
    fun heq => isSome_attributeRead?_slash n
      (fun c hc => v.not_endsToken c (by rw [heq]; simp [hc])) hr
  constructor
  · rintro ⟨before, w, hw, heq | ⟨hend, heq⟩⟩
    · exact ⟨before, w, heq, (hread heq).mpr (.inl hw)⟩
    · exact ⟨before, _, heq, (hread heq).mpr (.inr ⟨hend, w, rfl, hw⟩)⟩
  · rintro ⟨before, s, heq, hsome⟩
    rcases (hread heq).mp hsome with hs | ⟨hend, w, rfl, hw⟩
    · exact ⟨before, s, hs, .inl heq⟩
    · exact ⟨before, w, hw, .inr ⟨hend, heq⟩⟩

/-- An attribute is read at itself, if it has the name, or in its unquoted value. -/
theorem isSome_firstStop_shown (a : RenderedAttribute) (k : ℕ) {r : Text}
    (hr : r.head? = some ' ' ∨ r.head? = some '>') :
    (firstStop (attributeRead? n.text) k (a.shown RenderedValue.masked ++ r)).isSome ↔
      a.isNamed n.text ∨
        a.Mimics n.text (r.head? = some '>') ∨ (firstStop (attributeRead? n.text) k r).isSome := by
  have hhead : r.head?.all endsToken := by
    rcases hr with hr | hr <;> rw [hr] <;> decide
  have hread : attributeRead? n.text (a.shown RenderedValue.masked ++ r) =
      if a.isNamed n.text then some (n.text.length + 1) else none := by
    obtain ⟨hends, hname⟩ := ends_assignment a RenderedValue.masked hr
    rw [a.shown_append, attributeRead?_token n a.name.not_endsToken hends (by decide), hname,
      Bool.and_true, RenderedAttribute.isNamed]
  by_cases hname : a.isNamed n.text
  · rw [if_pos hname] at hread
    rw [a.shown_append] at hread ⊢
    rw [firstStop_cons_of_some hread]
    simp [hname]
  by_cases hmimics : a.Mimics n.text (r.head? = some '>')
  · obtain ⟨v, hv, hvalue⟩ := hmimics
    obtain ⟨w, s, heq, hsome⟩ := (mimics_iff n v hr).mp hvalue
    have hshown : a.shown RenderedValue.masked ++ r =
        (' ' :: (a.name.text ++ '=' :: w)) ++ '/' :: (s ++ r) := by
      simp [RenderedAttribute.shown, RenderedAttribute.assignment, hv, RenderedValue.masked, heq]
    rw [hshown]
    exact iff_of_true (isSome_firstStop_append hsome _ k) (.inr (.inl ⟨v, hv, hvalue⟩))
  · rw [if_neg hname] at hread
    have hvalue : ∀ v, a.value = some (.unquoted v) → ∀ w c s, v.content = w ++ c :: s →
        attributeRead? n.text (c :: (s ++ r)) = none := by
      intro v hv w c s heq
      rcases v.not_endsToken c (by simp [heq]) with rfl | hends
      · rw [← Option.not_isSome_iff_eq_none]
        exact fun hsome => hmimics ⟨v, hv, (mimics_iff n v hr).mpr ⟨w, s, heq, hsome⟩⟩
      · exact (readsToken_attributeRead? n).starts c _ (endsToken_eq_false hends).1
    rw [(readsToken_attributeRead? n).firstStop_attribute a k hhead hread hvalue, Nat.add_comm,
      firstStop_add, Option.isSome_map]
    simp [hname, hmimics]

theorem exists_cons_eq_append {α : Type*} {x : α} {xs : List α} {P : α → List α → Prop} :
    (∃ before a after, x :: xs = before ++ a :: after ∧ P a after) ↔
      P x xs ∨ ∃ before a after, xs = before ++ a :: after ∧ P a after := by
  constructor
  · rintro ⟨before, a, after, heq, hP⟩
    cases before with
    | nil =>
        obtain ⟨rfl, rfl⟩ := List.cons.inj heq
        exact .inl hP
    | cons y before => exact .inr ⟨before, a, after, (List.cons.inj heq).2, hP⟩
  · rintro (hP | ⟨before, a, after, rfl, hP⟩)
    · exact ⟨[], x, xs, rfl, hP⟩
    · exact ⟨x :: before, a, after, rfl, hP⟩

theorem isSome_firstStop_rest (attributes : List RenderedAttribute) (k : ℕ) :
    (firstStop (attributeRead? n.text) k (RenderedTag.rest RenderedValue.masked attributes)).isSome ↔
      (∃ a ∈ attributes, a.isNamed n.text) ∨
        ∃ before a after, attributes = before ++ a :: after ∧ a.Mimics n.text (after = []) := by
  induction attributes generalizing k with
  | nil => simp [RenderedTag.rest, firstStop, attributeRead?, show endsAttribute '>' = false by decide]
  | cons a attributes ih =>
      rw [RenderedTag.rest_cons, isSome_firstStop_shown n a k (RenderedTag.head?_rest ..), ih,
        RenderedTag.head?_rest_eq_bracket_iff,
        exists_cons_eq_append (P := fun (a : RenderedAttribute) after => a.Mimics n.text (after = []))]
      simp only [List.mem_cons, exists_eq_or_imp, or_assoc]
      exact or_congr_right or_left_comm

/-- A rendered tag has an attribute just if one of its attributes has the name or its unquoted value
is taken for one. -/
theorem hasAttribute_rendered (tag : RenderedTag) :
    hasAttribute tag.text n.text ↔
      (∃ a ∈ tag.attributes, a.isNamed n.text) ∨
        ∃ before a after, tag.attributes = before ++ a :: after ∧
          a.Mimics n.text (after = []) := by
  rw [hasAttribute_eq, tag.firstStop_text (readsToken_attributeRead? n), isSome_firstStop_rest]

end Reading

/-- Among plain names, a tag has an attribute just if one of its attributes has the name, whatever
the case, or an unquoted value has the name behind a slash at its end. -/
theorem hasAttribute_of_plain_names (tag : RenderedTag) (n : Token) (hn : isPlain n.text)
    (hnames : tag.attributes.all fun a => isPlain a.name.text) :
    hasAttribute tag.text n.text ↔
      (∃ a ∈ tag.attributes, lower a.name.text = lower n.text) ∨
        ∃ before a after, tag.attributes = before ++ a :: after ∧
          a.Mimics n.text (after = []) := by
  have hnamed : ∀ a ∈ tag.attributes, a.isNamed n.text ↔ lower a.name.text = lower n.text := by
    intro a ha
    rw [RenderedAttribute.isNamed, isSpelled_of_plain hn (List.all_eq_true.mp hnames a ha),
      decide_eq_true_iff]
  rw [hasAttribute_rendered]
  exact or_congr_left (exists_congr fun a => and_congr_right (hnamed a))

/-- A link whose address ends with a slash has its class, and no title. -/
theorem hasAttribute_of_plain_names_link :
    let tag : RenderedTag :=
      { name := "a".toList
        attributes :=
          [⟨.of "href".toList (by decide), some (.unquoted (.of "/title/".toList (by decide)))⟩,
            ⟨.of "CLASS".toList (by decide), some (.unquoted (.of "wide".toList (by decide)))⟩]
        name_isNameChar := List.all_eq_true.mp (by decide) }
    tag.text = "<a href=/title/ CLASS=wide>".toList ∧
      (tag.attributes.all fun a => isPlain a.name.text) ∧
      hasAttribute tag.text "class".toList ∧ ¬hasAttribute tag.text "title".toList := by
  intro tag
  have hnames : tag.attributes.all fun a => isPlain a.name.text := by decide
  refine ⟨by decide, hnames, ?_, by decide +kernel⟩
  exact (hasAttribute_of_plain_names tag (.of "class".toList (by decide)) (by decide) hnames).mpr
    (.inl ⟨_, List.mem_cons_of_mem _ (List.mem_singleton_self _), by decide⟩)

/-- An image has no attribute but its address, and still it counts as one with an alternative
text. -/
theorem hasAttribute_of_address :
    let tag : RenderedTag :=
      { name := "img".toList
        attributes :=
          [⟨.of "src".toList (by decide), some (.unquoted (.of "/alt".toList (by decide)))⟩]
        name_isNameChar := List.all_eq_true.mp (by decide) }
    tag.text = "<img src=/alt>".toList ∧ hasAttribute tag.text "alt".toList ∧
      ¬∃ a ∈ tag.attributes, lower a.name.text = lower "alt".toList := by
  intro tag
  refine ⟨by decide, by decide +kernel, ?_⟩
  rintro ⟨a, ha, hname⟩
  obtain rfl := List.mem_singleton.mp ha
  revert hname
  decide +kernel

end MarkupAudit.Markup
