import MarkupAudit.Markup.Amend
import MarkupAudit.Proofs.Markup.Attribute
import MarkupAudit.Proofs.Markup.Written
import Mathlib.Data.List.TakeWhile

/-! # Amending tags

Inserting an attribute into a tag or replacing a value there changes the tag alone: it stays a tag,
the word behind its bracket stays the same, and what follows it is not touched. An inserted
attribute is found whatever quotation marks follow it. -/

namespace MarkupAudit

namespace Text

theorem takeWhile_append_stop {accepts : Char → Bool} {x : Char} (hx : accepts x = false)
    (b r : Text) : (b ++ x :: r).takeWhile accepts = b.takeWhile accepts := by
  induction b with
  | nil => simp [hx]
  | cons c b ih => cases hc : accepts c <;> simp [hc, ih]

theorem dropWhile_append_stop {accepts : Char → Bool} {x : Char} (hx : accepts x = false)
    (b r : Text) : (b ++ x :: r).dropWhile accepts = b.dropWhile accepts ++ x :: r := by
  induction b with
  | nil => simp [hx]
  | cons c b ih => cases hc : accepts c <;> simp [hc, ih]

theorem startsLike_self (t r : Text) : startsLike t (t ++ r) := by
  induction t with
  | nil => rfl
  | cons c t ih => simp [startsLike, sameFold, ih]

/-- What is found stops behind its start by at least what is read. -/
theorem le_firstStop {read? : Text → Option ℕ} {n : ℕ} (hread : ∀ r k, read? r = some k → n ≤ k)
    {t : Text} {offset stop : ℕ} (h : firstStop read? offset t = some stop) :
    offset + n ≤ stop := by
  induction t generalizing offset with
  | nil =>
      obtain ⟨k, hk, rfl⟩ := Option.map_eq_some_iff.mp h
      exact Nat.add_le_add_left (hread _ _ hk) offset
  | cons c r ih =>
      rcases Option.or_eq_some_iff.mp h with hhere | ⟨-, hlater⟩
      · obtain ⟨k, hk, rfl⟩ := Option.map_eq_some_iff.mp hhere
        exact Nat.add_le_add_left (hread _ _ hk) offset
      · have := ih hlater
        omega

end Text

namespace Markup

namespace Tag

/-- Whether the word behind the opening bracket is a plain letter, followed by plain letters and
digits. -/
def hasPlainName (u : Tag) : Bool :=
  u.word.head?.any Char.isAlpha && u.word.all Char.isAlphanum

/-- The tag is the same, or it has a plain name and keeps it. -/
def Amended (u u' : Tag) : Prop :=
  u' = u ∨ u.hasPlainName ∧ u'.word = u.word

theorem openingTag_text (u : Tag) : openingTag u.text = u.text := by
  simpa using u.openingTag_append []

/-- The attributes of a tag do not depend on what follows it. -/
theorem hasAttribute_append (u : Tag) (r name : Text) :
    hasAttribute (u.text ++ r) name = hasAttribute u.text name := by
  rw [hasAttribute, u.openingTag_append, hasAttribute, u.openingTag_text]

theorem exists_body_of_hasPlainName {u : Tag} (h : u.hasPlainName) :
    ∃ c b, u.body = c :: b ∧ c.isAlpha := by
  rw [hasPlainName, Bool.and_eq_true] at h
  obtain ⟨c, hc, halpha⟩ := (Option.any_eq_true _ _).mp h.1
  cases hbody : u.body with
  | nil => simp [word, hbody] at hc
  | cons d b =>
      rw [word, hbody, List.takeWhile_cons] at hc
      split at hc
      · exact ⟨d, b, rfl, Option.some.inj hc ▸ halpha⟩
      · cases hc

section Named

variable {u : Tag} (hu : ∀ c ∈ u.text, c ∉ Text.plainTwins) {name : String}
  (hname : Pattern.IsName name) (h : u.isNamed name.toList)

include hu hname h

/-- Without characters that stand for plain letters, a tag has a name just if it is spelled so up to
case. -/
theorem map_toLower_word : u.word.map Char.toLower = name.toList.map Char.toLower := by
  rw [isNamed, Text.startsLike_length_eq] at h
  · exact of_decide_eq_true h
  · intro c hc x hx
    have hmem : x ∈ u.text := by
      have := (List.takeWhile_prefix Text.isWord).subset hx
      simp [text, this]
    exact Text.sameFold_of_notMem (List.all_eq_true.mp hname.2 c hc) (hu x hmem)

theorem hasPlainName_of_isNamed (hfirst : name.toList.head?.any Char.isAlpha) :
    u.hasPlainName := by
  have hlower := map_toLower_word hu hname h
  have hplain : ∀ c ∈ name.toList, c.toNat < 128 :=
    fun c hc => Text.plain_of_isAlphanum (List.all_eq_true.mp hname.2 c hc)
  rw [hasPlainName, Bool.and_eq_true, List.all_eq_true]
  constructor
  · obtain ⟨c, hc, halpha⟩ := (Option.any_eq_true _ _).mp hfirst
    have hhead := congrArg List.head? hlower
    rw [List.head?_map, List.head?_map, hc, Option.map_some, Option.map_eq_some_iff] at hhead
    obtain ⟨x, hx, hxc⟩ := hhead
    rw [hx, Option.any_some, Text.eq_of_toLower_eq Char.isAlpha (by decide)
      (hplain c (List.mem_of_mem_head? hc)) hxc, halpha]
  · intro x hx
    obtain ⟨c, hc, hcx⟩ := List.mem_map.mp (hlower ▸ List.mem_map_of_mem hx)
    rw [Text.eq_of_toLower_eq Char.isAlphanum (by decide) (hplain c hc) hcx.symm]
    exact List.all_eq_true.mp hname.2 c hc

end Named

end Tag

/-! ## Inserting an attribute -/

/-- A text without brackets. -/
def Bracketless (t : Text) : Prop :=
  '<' ∉ t ∧ '>' ∉ t

instance (t : Text) : Decidable (Bracketless t) :=
  inferInstanceAs (Decidable (_ ∧ _))

theorem bracketless_writeAttribute {name : Text} {value : Option Text} (hname : Bracketless name)
    (hvalue : ∀ v ∈ value, Bracketless v) : Bracketless (' ' :: writeAttribute name value) := by
  cases value with
  | none => simp [Bracketless, writeAttribute, hname.1, hname.2]
  | some v =>
      obtain ⟨hopen, hclose⟩ := hvalue v rfl
      simp [Bracketless, writeAttribute, hname.1, hname.2, hopen, hclose]

namespace Tag

/-- The tag with a part of its body replaced. -/
def splice (u : Tag) (start stop : ℕ) (part : Text) (hpart : Bracketless part) : Tag where
  body := u.body.take start ++ part ++ u.body.drop stop
  opening_notMem := by
    have htake := mt (List.mem_of_mem_take (i := start) ·) u.opening_notMem
    have hdrop := mt (List.mem_of_mem_drop (i := stop) ·) u.opening_notMem
    simp [htake, hpart.1, hdrop]
  closing_notMem := by
    have htake := mt (List.mem_of_mem_take (i := start) ·) u.closing_notMem
    have hdrop := mt (List.mem_of_mem_drop (i := stop) ·) u.closing_notMem
    simp [htake, hpart.2, hdrop]

/-- A part behind the name that starts with no word character leaves the name as it is. -/
theorem word_splice (u : Tag) {start stop : ℕ} {part : Text} (hpart : Bracketless part)
    (hstart : u.word.length ≤ start) {x : Char} (hx : part.head? = some x)
    (hword : Text.isWord x = false) : (u.splice start stop part hpart).word = u.word := by
  obtain ⟨part, rfl⟩ := List.head?_eq_some_iff.mp hx
  have htake : (u.body.take start).takeWhile Text.isWord = u.word := by
    have hbody : u.word ++ u.body.dropWhile Text.isWord = u.body := List.takeWhile_append_dropWhile
    have hrest : ((u.body.dropWhile Text.isWord).take (start - u.word.length)).takeWhile
        Text.isWord = [] := by
      have hhead := List.head?_dropWhile_not Text.isWord u.body
      cases hdrop : u.body.dropWhile Text.isWord with
      | nil => simp
      | cons c r =>
          rw [hdrop] at hhead
          cases start - u.word.length <;> simp_all
    rw [← hbody, List.take_append, List.take_of_length_le hstart,
      List.takeWhile_append_of_pos fun c hc => List.mem_takeWhile_imp hc, hrest, List.append_nil]
  change (u.body.take start ++ x :: part ++ u.body.drop stop).takeWhile Text.isWord = _
  rw [List.append_assoc, List.cons_append, Text.takeWhile_append_stop hword, htake]

/-- The number of characters of the name that attributes are inserted behind. -/
def nameLength (u : Tag) : ℕ :=
  (u.body.takeWhile isNameChar).length

theorem take_nameLength (u : Tag) : u.body.take u.nameLength = u.body.takeWhile isNameChar :=
  (List.prefix_iff_eq_take.mp (List.takeWhile_prefix isNameChar)).symm

theorem drop_nameLength (u : Tag) : u.body.drop u.nameLength = u.body.dropWhile isNameChar :=
  Text.drop_length_takeWhile isNameChar u.body

theorem length_word_le_nameLength (u : Tag) : u.word.length ≤ u.nameLength := by
  have hname : (fun c => decide (Text.isWord c ∧ isNameChar c)) = Text.isWord := by
    funext c
    cases hc : Text.isWord c <;> simp [isNameChar, hc]
  have hword : (u.body.takeWhile isNameChar).takeWhile Text.isWord = u.word := by
    rw [List.takeWhile_takeWhile, hname, word]
  rw [← hword]
  exact (List.takeWhile_prefix _).length_le

/-- The tag with something behind its name. -/
def insert (u : Tag) (part : Text) (hpart : Bracketless (' ' :: part)) : Tag :=
  u.splice u.nameLength u.nameLength (' ' :: part) hpart

theorem word_insert (u : Tag) {part : Text} (hpart : Bracketless (' ' :: part)) :
    (u.insert part hpart).word = u.word :=
  u.word_splice hpart u.length_word_le_nameLength rfl (by decide)

theorem text_insert (u : Tag) {part : Text} (hpart : Bracketless (' ' :: part)) :
    (u.insert part hpart).text = '<' :: u.body.takeWhile isNameChar ++
      ' ' :: (part ++ (u.body.dropWhile isNameChar ++ ['>'])) := by
  simp [text, insert, splice, take_nameLength, drop_nameLength]

end Tag

section Insert

variable {u : Tag} (hu : u.hasPlainName) {name : Text} {value : Option Text}

include hu

theorem insertAttribute_append (hlacks : hasAttribute u.text name = false)
    (hpart : Bracketless (' ' :: writeAttribute name value)) (r : Text) :
    insertAttribute name value (u.text ++ r) =
      (u.insert (writeAttribute name value) hpart).text ++ r := by
  obtain ⟨c, b, hbody, halpha⟩ := Tag.exists_body_of_hasPlainName hu
  have htext : u.text ++ r = '<' :: c :: (b ++ '>' :: r) := by simp [Tag.text, hbody]
  have htake : (c :: (b ++ '>' :: r)).takeWhile isNameChar = u.body.takeWhile isNameChar := by
    rw [hbody, ← List.cons_append]
    exact Text.takeWhile_append_stop (by decide) ..
  have hdrop : (c :: (b ++ '>' :: r)).dropWhile isNameChar =
      u.body.dropWhile isNameChar ++ '>' :: r := by
    rw [hbody, ← List.cons_append]
    exact Text.dropWhile_append_stop (by decide) ..
  rw [insertAttribute, u.hasAttribute_append, hlacks, htext, tagHead?_of_isAlpha halpha]
  simp [htake, hdrop, Tag.text_insert]

end Insert

theorem hasAttribute_insert (u : Tag) {name value : Text} (hname : ∀ c ∈ name, isNameLetter c)
    (hpart : Bracketless (' ' :: writeAttribute name (some value))) :
    hasAttribute (u.insert (writeAttribute name (some value)) hpart).text name := by
  have hlead : ∀ c ∈ '<' :: u.body.takeWhile isNameChar ++ ' ' :: name ++ ['='],
      c ∉ ['"', '\''] := by
    have hmark : ∀ c ∈ ['"', '\''], isNameChar c = false ∧ isNameLetter c = false ∧
        c ∉ ['<', ' ', '='] := by
      rw [List.forall_mem_cons, List.forall_mem_singleton]
      decide
    intro c hc hquote
    obtain ⟨hchar, hletter, hother⟩ := hmark c hquote
    simp only [List.mem_append, List.mem_cons, List.not_mem_nil, or_false] at hc hother
    rcases hc with ((rfl | hc) | rfl | hc) | rfl
    · simp at hother
    · rw [List.mem_takeWhile_imp hc] at hchar
      cases hchar
    · simp at hother
    · rw [hname c hc] at hletter
      cases hletter
    · simp at hother
  have htext : (u.insert (writeAttribute name (some value)) hpart).text =
      ('<' :: u.body.takeWhile isNameChar ++ ' ' :: name ++ ['=']) ++
        ('"' :: value ++ '"' :: u.body.dropWhile isNameChar ++ ['>']) := by
    simp [Tag.text_insert, writeAttribute]
  rw [hasAttribute_eq, Tag.openingTag_text, htext, shows_maskQuoted.copies _ _ hlead]
  generalize maskQuoted ('"' :: value ++ '"' :: u.body.dropWhile isNameChar ++ ['>']) = masked
  have hread : (attributeRead? name (' ' :: (name ++ '=' :: masked))).isSome := by
    simp [attributeRead?, Text.startsLike_self, endsName, show endsAttribute ' ' = true by decide,
      show Text.isBlank '=' = false by decide]
  simpa using Text.isSome_firstStop_append hread ('<' :: u.body.takeWhile isNameChar) 0

/-! ## Repairs of tags -/

/-- A repair that amends a tag with a plain name and leaves alone what follows it. -/
def KeepsName (mend : Text → Text) : Prop :=
  ∀ (u : Tag) (r : Text), u.hasPlainName →
    ∃ u' : Tag, u'.word = u.word ∧ mend (u.text ++ r) = u'.text ++ r

theorem keepsName_insertAttribute {name : Text} {value : Option Text}
    (hpart : Bracketless (' ' :: writeAttribute name value)) :
    KeepsName (insertAttribute name value) := by
  intro u r hu
  cases hhas : hasAttribute u.text name with
  | true =>
      refine ⟨u, rfl, ?_⟩
      rw [insertAttribute, u.hasAttribute_append, hhas, if_pos rfl]
  | false => exact ⟨_, u.word_insert hpart, insertAttribute_append hu hhas hpart r⟩

/-! ## Replacing a value -/

/-- A value before the closing bracket of a tag does not reach beyond it. -/
theorem width_readValue?_le {y : Text} {written : WrittenValue}
    (h : readValue? (y ++ ['>']) = some written) : written.width ≤ y.length := by
  cases y with
  | nil => simp [readValue?] at h
  | cons c y =>
      rw [List.cons_append, readValue?] at h
      split at h
      · next hquote =>
          obtain ⟨hmem, hwritten⟩ := Option.ite_none_right_eq_some.mp h
          obtain rfl := Option.some.inj hwritten
          have hc : c ∈ y := by
            have hne : c ≠ '>' := by
              rintro rfl
              revert hquote
              decide
            simpa [hne] using hmem
          obtain ⟨a, b, rfl, ha⟩ := List.eq_append_cons_of_mem hc
          have htake : (a ++ c :: b ++ ['>']).takeWhile (· != c) = a := by
            have hpass : ∀ x ∈ a, (x != c) = true := by
              intro x hx
              simpa using fun heq : x = c => ha (heq ▸ hx)
            rw [List.append_assoc, List.takeWhile_append_of_pos hpass]
            simp
          simp only [htake, List.length_cons, List.length_append]
          omega
      · obtain ⟨-, hwritten⟩ := Option.ite_none_left_eq_some.mp h
        obtain rfl := Option.some.inj hwritten
        rw [← List.cons_append, Text.takeWhile_append_stop (by decide)]
        exact (List.takeWhile_prefix _).length_le

/-- The value of an attribute stands behind the name of a tag and before its closing bracket. -/
theorem valueAt?_bounds {u : Tag} (hu : u.hasPlainName) {r name : Text} {offset : ℕ}
    {written : WrittenValue} (h : valueAt? (u.text ++ r) name = some (offset, written)) :
    u.word.length + 1 < offset ∧ offset + written.width ≤ u.body.length + 1 := by
  have hsplit : u.text = ('<' :: u.word) ++ (u.body.dropWhile Text.isWord ++ ['>']) := by
    simp [Tag.text, Tag.word, ← List.append_assoc]
  have hword : ∀ c ∈ '<' :: u.word, c ∉ ['"', '\''] ∧ endsAttribute c = false := by
    intro c hc
    rcases List.mem_cons.mp hc with rfl | hc
    · decide
    · rw [Tag.hasPlainName, Bool.and_eq_true] at hu
      have hletter := isNameLetter_ne
        (isNameLetter_of_isAlphanum (List.all_eq_true.mp hu.2 c hc))
      have := hletter.2.2.2
      exact ⟨by simp_all, hletter.1⟩
  rw [valueAt?_eq, u.openingTag_append] at h
  obtain ⟨stop, hstop, hread⟩ := Option.bind_eq_some_iff.mp h
  obtain ⟨value, hvalue, heq⟩ := Option.map_eq_some_iff.mp hread
  obtain ⟨rfl, rfl⟩ := Prod.mk.inj heq
  rw [hsplit, shows_maskQuoted.copies _ _ fun c hc => (hword c hc).1,
    Text.firstStop_append] at hstop
  · have hle := Text.le_firstStop (n := 2) ?_ hstop
    · rw [List.length_cons, Nat.zero_add] at hle
      obtain ⟨j, rfl⟩ : ∃ j, stop = j + 1 := ⟨stop - 1, by omega⟩
      refine ⟨by omega, ?_⟩
      rw [Tag.text, List.cons_append, List.drop_succ_cons] at hvalue
      by_cases hj : j ≤ u.body.length
      · rw [List.drop_append_of_le_length hj] at hvalue
        have hwidth := width_readValue?_le hvalue
        rw [List.length_drop] at hwidth
        omega
      · rw [List.drop_of_length_le (by simp; omega)] at hvalue
        cases hvalue
    · intro r k hr
      cases r with
      | nil => cases hr
      | cons c r =>
          obtain ⟨-, hk⟩ := Option.ite_none_right_eq_some.mp hr
          have := Option.some.inj hk
          omega
  · intro w c rest heq
    have hc := (hword c (by rw [heq]; simp)).2
    simp [valueRead?, hc]

theorem keepsName_setAttribute {name value : Text} (hname : Bracketless name)
    (hvalue : Bracketless value) : KeepsName (setAttribute name value) := by
  intro u r hu
  unfold setAttribute
  split
  · split
    · exact ⟨u, rfl, rfl⟩
    · next offset written hvalueAt =>
        obtain ⟨hstart, hstop⟩ := valueAt?_bounds hu hvalueAt
        obtain ⟨j, rfl⟩ : ∃ j, offset = j + 1 := ⟨offset - 1, by omega⟩
        have hpart : Bracketless ('"' :: value ++ ['"']) := by
          simp [Bracketless, hvalue.1, hvalue.2]
        refine ⟨u.splice j (j + written.width) _ hpart,
          u.word_splice hpart (by omega) (List.head?_cons ..) (by decide), ?_⟩
        have htake : (u.text ++ r).take (j + 1) = '<' :: u.body.take j := by
          simp [Tag.text, List.take_append_of_le_length (show j ≤ u.body.length by omega)]
        have hdrop : (u.text ++ r).drop (j + 1 + written.width) =
            u.body.drop (j + written.width) ++ '>' :: r := by
          rw [Nat.add_right_comm]
          simp [Tag.text,
            List.drop_append_of_le_length (show j + written.width ≤ u.body.length by omega)]
        rw [htake, hdrop]
        simp [Tag.splice, Tag.text]
  · refine keepsName_insertAttribute (bracketless_writeAttribute hname ?_) u r hu
    simpa using hvalue

end Markup

end MarkupAudit
