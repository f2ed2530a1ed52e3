import MarkupAudit.Markup.Attribute
import MarkupAudit.Proofs.Markup.Opening
import MarkupAudit.Proofs.Text.Plain

/-! # Tags that are written attribute by attribute

A written tag is a name and attributes, each behind a space and bare or with a quoted value. The
masked and the collapsed form of such a tag differ from it only in how they show the values. -/

namespace MarkupAudit.Markup

/-! ## Written tags -/

/-- A plain letter or digit, or a hyphen. -/
def isNameLetter (c : Char) : Bool :=
  c.isAlphanum || c = '-'

/-- The name of an attribute: a plain letter, then plain letters, digits and hyphens. -/
structure AttributeName where
  first : Char
  others : Text
  first_isAlpha : first.isAlpha
  others_isNameLetter : others.all isNameLetter

/-- The characters of the name. -/
def AttributeName.text (n : AttributeName) : Text :=
  n.first :: n.others

/-- The two kinds of quotation marks. -/
inductive Quotation where
  | double
  | single

/-- The character that opens and closes a quotation. -/
def Quotation.mark : Quotation → Char
  | .double => '"'
  | .single => '\''

/-- A value between quotation marks. -/
structure QuotedValue where
  quotation : Quotation
  content : Text
  mark_notMem : quotation.mark ∉ content
  bracket_notMem : '>' ∉ content

namespace QuotedValue

/-- The value as it is written. -/
def text (v : QuotedValue) : Text :=
  v.quotation.mark :: v.content ++ [v.quotation.mark]

/-- The value with spaces in place of its content. -/
def masked (v : QuotedValue) : Text :=
  v.quotation.mark :: List.replicate v.content.length ' ' ++ [v.quotation.mark]

end QuotedValue

/-- An attribute without a value or with a quoted one. -/
structure WrittenAttribute where
  name : AttributeName
  value : Option QuotedValue

/-- The attribute behind a space, with its value shown in some way. -/
def WrittenAttribute.shown (shownValue : QuotedValue → Text) (a : WrittenAttribute) : Text :=
  ' ' :: a.name.text ++ (a.value.map fun v => '=' :: shownValue v).getD []

/-- An opening tag with a plain name. -/
structure WrittenTag where
  name : Text
  attributes : List WrittenAttribute
  name_ne_nil : name ≠ []
  name_isAlphanum : name.all Char.isAlphanum

namespace WrittenTag

/-- What follows the name, with the values shown in some way. -/
def rest (shownValue : QuotedValue → Text) (attributes : List WrittenAttribute) : Text :=
  attributes.flatMap (·.shown shownValue) ++ ['>']

/-- The tag with its values shown in some way. -/
def shown (shownValue : QuotedValue → Text) (tag : WrittenTag) : Text :=
  '<' :: tag.name ++ rest shownValue tag.attributes

/-- The tag as it is written. -/
def text (tag : WrittenTag) : Text :=
  tag.shown QuotedValue.text

end WrittenTag

/-! ## Characters of names -/

section Letters

variable {c : Char}

theorem plain_of_isNameLetter (h : isNameLetter c) : c.toNat < 128 := by
  rw [isNameLetter, Bool.or_eq_true, decide_eq_true_eq] at h
  rcases h with h | rfl
  · exact Text.plain_of_isAlphanum h
  · decide

/-- What is neither a letter nor a digit nor a hyphen is something else. -/
theorem isNameLetter_ne (h : isNameLetter c) :
    endsAttribute c = false ∧ Text.isBlank c = false ∧ isAttributeNameChar c ∧
      c ∉ ['=', '>', '<', '/', '"', '\'', '\n'] :=
  Text.forall_plain (P := fun c => isNameLetter c → endsAttribute c = false ∧
    Text.isBlank c = false ∧ isAttributeNameChar c ∧ c ∉ ['=', '>', '<', '/', '"', '\'', '\n'])
    (by decide +kernel) c (plain_of_isNameLetter h) h

/-- No character of a name stands for one that can follow a name. -/
theorem sameFold_isNameLetter (h : isNameLetter c) {x : Char}
    (hx : x ∈ [' ', '>', '=', '"', '\'']) : Text.sameFold c x = false := by
  have hfollows : [' ', '>', '=', '"', '\''].all fun x =>
      decide (x.toNat < 128) && x.toLower != c.toLower :=
    Text.forall_plain (P := fun c => isNameLetter c → [' ', '>', '=', '"', '\''].all fun x =>
      decide (x.toNat < 128) && x.toLower != c.toLower) (by decide +kernel) c
      (plain_of_isNameLetter h) h
  have hchar := List.all_eq_true.mp hfollows x hx
  rw [Bool.and_eq_true, decide_eq_true_iff, bne_iff_ne] at hchar
  rw [Text.sameFold_of_plain (plain_of_isNameLetter h) hchar.1, beq_eq_false_iff_ne]
  exact hchar.2

end Letters

namespace AttributeName

variable (n : AttributeName)

theorem text_isNameLetter : ∀ c ∈ n.text, isNameLetter c := by
  intro c hc
  rcases List.mem_cons.mp hc with rfl | hc
  · have := n.first_isAlpha
    simp [isNameLetter, Char.isAlphanum, this]
  · exact List.all_eq_true.mp n.others_isNameLetter c hc

theorem lower_text : Text.lower n.text = n.text.map Char.toLower :=
  Text.lower_of_plain fun c hc => plain_of_isNameLetter (n.text_isNameLetter c hc)

end AttributeName

theorem isNameLetter_of_isAlphanum {c : Char} (h : c.isAlphanum) : isNameLetter c := by
  rw [isNameLetter, h, Bool.true_or]

theorem WrittenTag.name_isNameLetter (tag : WrittenTag) : ∀ c ∈ tag.name, isNameLetter c :=
  fun c hc => isNameLetter_of_isAlphanum (List.all_eq_true.mp tag.name_isAlphanum c hc)

theorem Quotation.mark_mem (q : Quotation) : q.mark ∈ ['"', '\''] := by
  cases q <;> simp [mark]

/-- What follows an attribute in a tag: another one, or the end of the tag. -/
theorem WrittenTag.head?_rest (shownValue : QuotedValue → Text)
    (attributes : List WrittenAttribute) :
    (rest shownValue attributes).head? = some ' ' ∨
      (rest shownValue attributes).head? = some '>' := by
  cases attributes with
  | nil => exact .inr rfl
  | cons a attributes => exact .inl rfl

theorem WrittenTag.head?_rest_not_isNameChar (shownValue : QuotedValue → Text)
    (attributes : List WrittenAttribute) :
    (rest shownValue attributes).head?.any isNameChar = false := by
  rcases head?_rest shownValue attributes with h | h <;> rw [h] <;> decide

theorem WrittenTag.rest_cons (shownValue : QuotedValue → Text) (a : WrittenAttribute)
    (attributes : List WrittenAttribute) :
    rest shownValue (a :: attributes) = a.shown shownValue ++ rest shownValue attributes := by
  rw [rest, List.flatMap_cons, List.append_assoc, rest]

/-! ## Views of a tag -/

/-- A view of texts that copies what has no quotation marks and shows quoted values in some way. -/
structure Shows (view : Text → Text) (shownValue : QuotedValue → Text) : Prop where
  nil : view [] = []
  copies : ∀ b r, (∀ c ∈ b, c ∉ ['"', '\'']) → view (b ++ r) = b ++ view r
  value : ∀ v r, view (QuotedValue.text v ++ r) = shownValue v ++ view r

namespace Shows

variable {view : Text → Text} {shownValue : QuotedValue → Text} (h : Shows view shownValue)

include h

theorem letters {b : Text} (hb : ∀ c ∈ b, isNameLetter c) (mark : Char)
    (hmark : mark ∉ ['"', '\'']) (r : Text) : view (mark :: b ++ r) = mark :: b ++ view r := by
  apply h.copies
  intro c hc
  rcases List.mem_cons.mp hc with rfl | hc
  · exact hmark
  · have := (isNameLetter_ne (hb c hc)).2.2.2
    simp_all

theorem written (a : WrittenAttribute) (r : Text) :
    view (a.shown QuotedValue.text ++ r) = a.shown shownValue ++ view r := by
  have hname := h.letters a.name.text_isNameLetter ' ' (by decide)
  unfold WrittenAttribute.shown
  cases a.value with
  | none => simpa using hname r
  | some v =>
      have hsign : view ('=' :: (v.text ++ r)) = '=' :: (shownValue v ++ view r) := by
        rw [← h.value]
        exact h.copies ['='] _ (List.forall_mem_singleton.mpr (by decide))
      simpa [hsign] using hname ('=' :: (v.text ++ r))

theorem rest (attributes : List WrittenAttribute) :
    view (WrittenTag.rest QuotedValue.text attributes) = WrittenTag.rest shownValue attributes := by
  induction attributes with
  | nil =>
      have hend := h.copies ['>'] [] (List.forall_mem_singleton.mpr (by decide))
      rwa [h.nil] at hend
  | cons a attributes ih => rw [WrittenTag.rest_cons, h.written, ih, WrittenTag.rest_cons]

theorem tag (tag : WrittenTag) : view tag.text = tag.shown shownValue := by
  rw [WrittenTag.text, WrittenTag.shown, h.letters tag.name_isNameLetter '<' (by decide), h.rest]
  rfl

end Shows

theorem opensQuote_mark (v : QuotedValue) (r : Text) :
    opensQuote v.quotation.mark (v.content ++ v.quotation.mark :: r) := by
  have hmark := v.quotation.mark_mem
  simp_all [opensQuote]

theorem opensQuote_eq_false {c : Char} (h : c ∉ ['"', '\'']) (r : Text) :
    opensQuote c r = false := by
  simp_all [opensQuote]

theorem maskFrom_append {mark : Char} {b : Text} (h : mark ∉ b) (r : Text) :
    maskFrom (some mark) (b ++ mark :: r) =
      List.replicate b.length ' ' ++ mark :: maskFrom none r := by
  induction b with
  | nil => simp [maskFrom]
  | cons c b ih =>
      simp only [List.mem_cons, not_or] at h
      simp [maskFrom, Ne.symm h.1, ih h.2, List.replicate_succ]

theorem collapseFrom_append {mark : Char} {b : Text} (h : mark ∉ b) (r : Text) :
    collapseFrom (some mark) (b ++ mark :: r) = collapseFrom none r := by
  induction b with
  | nil => simp [collapseFrom]
  | cons c b ih =>
      simp only [List.mem_cons, not_or] at h
      simp [collapseFrom, Ne.symm h.1, ih h.2]

theorem shows_maskQuoted : Shows maskQuoted QuotedValue.masked where
  nil := rfl
  copies b r h := by
    induction b with
    | nil => rfl
    | cons c b ih =>
        rw [List.forall_mem_cons] at h
        simp only [maskQuoted, List.cons_append, maskFrom, opensQuote_eq_false h.1]
        exact congrArg (c :: ·) (ih h.2)
  value v r := by
    simp only [QuotedValue.text, QuotedValue.masked, maskQuoted, List.cons_append,
      List.append_assoc, List.nil_append, maskFrom, opensQuote_mark, if_true,
      maskFrom_append v.mark_notMem]

theorem shows_collapseQuoted : Shows collapseQuoted fun _ => ['"', '"'] where
  nil := rfl
  copies b r h := by
    induction b with
    | nil => rfl
    | cons c b ih =>
        rw [List.forall_mem_cons] at h
        simp only [collapseQuoted, List.cons_append, collapseFrom, opensQuote_eq_false h.1]
        exact congrArg (c :: ·) (ih h.2)
  value v r := by
    simp only [QuotedValue.text, collapseQuoted, List.cons_append, List.append_assoc,
      List.nil_append, collapseFrom, opensQuote_mark, if_true, collapseFrom_append v.mark_notMem]

/-! ## The tag as a whole -/

theorem isAlpha_not_isBlank {c : Char} (h : c.isAlpha) : Text.isBlank c = false :=
  (isNameLetter_ne (isNameLetter_of_isAlphanum (by rw [Char.isAlphanum, h, Bool.true_or]))).2.1

theorem isNameChar_of_isAlpha {c : Char} (hc : c.isAlpha) : isNameChar c := by
  have hplain : c.toNat < 128 := Text.plain_of_isAlphanum (by simp [Char.isAlphanum, hc])
  exact Text.forall_plain (P := fun c => c.isAlpha → isNameChar c) (by decide) c hplain hc

/-- A tag that starts with a letter has a name right behind its bracket. -/
theorem tagHead?_of_isAlpha {c : Char} (h : c.isAlpha) (r : Text) :
    tagHead? ('<' :: c :: r) =
      some ⟨['<'], (c :: r).takeWhile isNameChar, (c :: r).dropWhile isNameChar⟩ := by
  have hblank := isAlpha_not_isBlank h
  simp [tagHead?, List.dropWhile_cons_of_neg, List.takeWhile_cons_of_neg, hblank, h]

theorem tagHead?_of_not_isAlpha {c : Char} (hblank : Text.isBlank c = false)
    (h : c.isAlpha = false) (r : Text) : tagHead? ('<' :: c :: r) = none := by
  simp [tagHead?, hblank, h]

theorem QuotedValue.bracket_notMem_text (v : QuotedValue) : '>' ∉ v.text := by
  have hmark := v.quotation.mark_mem
  have hcontent := v.bracket_notMem
  simp only [text, List.mem_append, List.mem_cons, List.not_mem_nil, or_false]
  rintro ((h | h) | h)
  · simp [← h] at hmark
  · exact hcontent h
  · simp [← h] at hmark

theorem WrittenAttribute.bracket_notMem (a : WrittenAttribute) :
    '>' ∉ a.shown QuotedValue.text := by
  have hname : '>' ∉ a.name.text := by
    intro hmem
    have := a.name.text_isNameLetter _ hmem
    revert this
    decide
  unfold shown
  cases a.value with
  | none => simpa using hname
  | some v => simpa using ⟨hname, v.bracket_notMem_text⟩

/-- What stands between the brackets of the tag. -/
def WrittenTag.body (tag : WrittenTag) : Text :=
  tag.name ++ tag.attributes.flatMap (·.shown QuotedValue.text)

theorem WrittenTag.text_eq (tag : WrittenTag) : tag.text = '<' :: tag.body ++ ['>'] := by
  simp [text, shown, rest, body]

theorem WrittenTag.bracket_notMem_body (tag : WrittenTag) : '>' ∉ tag.body := by
  simp only [body, List.mem_append, List.mem_flatMap, not_or, not_exists, not_and]
  refine ⟨?_, fun a _ => a.bracket_notMem⟩
  intro hmem
  have := tag.name_isNameLetter _ hmem
  revert this
  decide

theorem openingTag_text (tag : WrittenTag) : openingTag tag.text = tag.text := by
  rw [tag.text_eq]
  exact openingTag_append (b := '<' :: tag.body) (by simpa using tag.bracket_notMem_body) []

end MarkupAudit.Markup
