import MarkupAudit.Proofs.Markup.Elements
import MarkupAudit.Proofs.Markup.Scanner
import MarkupAudit.Proofs.Markup.Window

/-! # What an element encloses

An element is found from the left, with the first closing tag of its name behind its opening tag,
and it is taken apart from both sides: its opening tag reaches to its first `>`, its body from there
to its last `</`. The cuts are the same, whatever other tags and pieces of tags the body has. -/

namespace MarkupAudit

namespace Markup

variable {t name : Text}

/-! ## Closing tags -/

/-- A closing tag of the name: the name behind `</`, ignoring case, then white space and a `>`. -/
def IsClosingTag (name u : Text) : Prop :=
  ∃ w gap, u = '<' :: '/' :: (w ++ (gap ++ ['>'])) ∧ Text.isSpelled name w ∧ gap.all Text.isBlank

/-- A closing tag of the name stands somewhere in the text. -/
def HasClosingTag (name t : Text) : Prop :=
  ∃ u, IsClosingTag name u ∧ u <:+: t

/-- A name and white space have no marks. -/
theorem notMem_name_gap {w gap : Text} {c : Char} (hname : name.all Char.isAlphanum)
    (hw : Text.isSpelled name w) (hgap : gap.all Text.isBlank) (hword : Text.isWord c = false)
    (hblank : Text.isBlank c = false) : c ∉ w ++ gap := by
  rw [List.mem_append]
  rintro (hmem | hmem)
  · rw [Text.isWord_of_isSpelled hname hw c hmem] at hword
    cases hword
  · rw [List.all_eq_true.mp hgap c hmem] at hblank
    cases hblank

namespace IsClosingTag

variable {u : Text} (h : IsClosingTag name u) (hname : name.all Char.isAlphanum)

include h hname

/-- A closing tag has no opening bracket but its first character. -/
theorem exists_eq : ∃ z, u = '<' :: '/' :: z ∧ '<' ∉ z := by
  obtain ⟨w, gap, rfl, hw, hgap⟩ := h
  have hinside : '<' ∉ w ++ gap := notMem_name_gap hname hw hgap (by decide) (by decide)
  exact ⟨_, rfl, by simpa [not_or] using hinside⟩

/-- A closing tag that stands at an offset is read there. -/
theorem stop?_eq {r : Text} {q : ℕ} (hdrop : t.drop q = u ++ r) :
    closingTagStop? t name q = some (q + u.length) := by
  obtain ⟨w, gap, rfl, hw, hgap⟩ := h
  have hinside : '>' ∉ w ++ gap := notMem_name_gap hname hw hgap (by decide) (by decide)
  have hslash : t.standsAt "</".toList q := by
    rw [Text.standsAt, hdrop]
    rfl
  have hrest : t.drop (q + 2) = (w ++ gap) ++ '>' :: r := by
    rw [← List.drop_drop, hdrop]
    simp
  have hbehind : (w ++ gap).drop name.length = gap := by
    rw [← Text.length_eq_of_isSpelled hw, List.drop_left]
  rw [closingTagStop?_slash hslash hrest hinside hname, hbehind, hgap,
    Text.startsLike_append_of_isSpelled hw, Bool.and_true, if_pos rfl]
  simp only [List.length_cons, List.length_append]
  rfl

end IsClosingTag

/-- What is read as a closing tag is one. -/
theorem isClosingTag_of_stop? {q e : ℕ} (h : closingTagStop? t name q = some e) :
    IsClosingTag name (Text.slice t q e) := by
  obtain ⟨hopen, hspelled, bracket, hle, hbracket, hblank, rfl⟩ :=
    closingTagStop?_eq_some_iff.mp h
  refine ⟨Text.slice t (q + 2 : ℕ) (q + 2 + name.length : ℕ),
    Text.slice t (q + 2 + name.length : ℕ) bracket, ?_, ?_, ?_⟩
  · have hopener : Text.slice t q (q + 2 : ℕ) = "</".toList := Text.slice_of_standsAt hopen
    have hcloser : Text.slice t bracket (bracket + 1 : ℕ) = ['>'] :=
      Text.slice_of_standsAt hbracket
    rw [← hcloser, Text.slice_append t hle (by omega), Text.slice_append t (by omega) (by omega),
      ← Text.slice_append t (Nat.le_add_right q 2) (by omega), hopener]
    rfl
  · rw [Text.slice_natCast, List.drop_take, Nat.add_sub_cancel_left]
    exact Text.isSpelled_take hspelled
  · rw [List.all_eq_true]
    intro c hc
    obtain ⟨i, hlo, hhi, hget⟩ := Text.mem_slice_iff.mp hc
    simpa [hget] using hblank i hlo hhi

/-- A part in which no closing tag starts has none. -/
theorem not_hasClosingTag (hname : name.all Char.isAlphanum) {start : ℕ} {part rest : Text}
    (hpart : t.drop start = part ++ rest)
    (hnone : ∀ k < part.length, closingTagStop? t name (start + k) = none) :
    ¬HasClosingTag name part := by
  rintro ⟨u, hu, before, after, rfl⟩
  have hdrop : t.drop (start + before.length) = u ++ (after ++ rest) := by
    rw [← List.drop_drop, hpart]
    simp
  have hlt : before.length < (before ++ u ++ after).length := by
    obtain ⟨z, rfl, -⟩ := hu.exists_eq hname
    simp
  have hstop := hu.stop?_eq hname hdrop
  rw [hnone _ hlt] at hstop
  cases hstop

/-- No closing tag stands before the first one. -/
theorem not_hasClosingTag_slice (hname : name.all Char.isAlphanum) {start stop e : ℕ}
    (hnext : (closingTags t name).next? start = some (stop, e)) :
    ¬HasClosingTag name (Text.slice t start stop) := by
  obtain ⟨hle, hcloses, hfirst⟩ := (closingTags t name).next?_eq_some_iff.mp hnext
  have hstop : stop ≤ t.length :=
    ((closingTags t name).lt_stop hcloses).le.trans ((closingTags t name).stop_le hcloses)
  apply not_hasClosingTag hname (Text.slice_append_drop t hle).symm
  intro k hk
  rw [Text.length_slice t start hstop] at hk
  exact hfirst _ (Nat.le_add_right start k) (by omega)

theorem not_hasClosingTag_drop (hname : name.all Char.isAlphanum) {start : ℕ}
    (hnext : (closingTags t name).next? start = none) : ¬HasClosingTag name (t.drop start) := by
  apply not_hasClosingTag hname (List.append_nil _).symm
  intro k hk
  rw [List.length_drop] at hk
  exact (closingTags t name).next?_eq_none_iff.mp hnext _ (Nat.le_add_right start k) (by omega)

/-! ## Elements -/

/-- Where the element of the name that starts at an offset stops, which is with the first closing
tag behind its opening tag. -/
def elementEnd? (t name : Text) (q : ℕ) : Option ℕ :=
  ((openingTags t name).stop? q).bind fun start =>
    ((closingTags t name).next? start).map Prod.snd

theorem elementEnd?_eq_some_iff {t name : Text} {q e : ℕ} :
    elementEnd? t name q = some e ↔
      ∃ start stop, (openingTags t name).stop? q = some start ∧
        (closingTags t name).next? start = some (stop, e) := by
  simp [elementEnd?, Option.bind_eq_some_iff]

/-- The elements of a name. -/
def elements (t name : Text) : Occurrences t where
  stop? := elementEnd? t name
  lt_stop {q e} h := by
    obtain ⟨start, stop, hstart, hnext⟩ := elementEnd?_eq_some_iff.mp h
    obtain ⟨hle, hstop, -⟩ := (closingTags t name).next?_eq_some_iff.mp hnext
    have hq := (openingTags t name).lt_stop hstart
    have he := (closingTags t name).lt_stop hstop
    omega
  stop_le {q e} h := by
    obtain ⟨start, stop, -, hnext⟩ := elementEnd?_eq_some_iff.mp h
    exact (closingTags t name).stop_le ((closingTags t name).next?_eq_some_iff.mp hnext).2.1

/-- The elements of a name and the opening tags behind which it is not closed. -/
def elementsOrTags (t name : Text) : Occurrences t where
  stop? q := (elementEnd? t name q).or ((openingTags t name).stop? q)
  lt_stop h := by
    rcases Option.or_eq_some_iff.mp h with h | ⟨-, h⟩
    · exact (elements t name).lt_stop h
    · exact (openingTags t name).lt_stop h
  stop_le h := by
    rcases Option.or_eq_some_iff.mp h with h | ⟨-, h⟩
    · exact (elements t name).stop_le h
    · exact (openingTags t name).stop_le h

section Cuts

variable {q start : ℕ} (hstart : (openingTags t name).stop? q = some start)

include hstart

/-- What is read as an opening tag has one closing bracket, at its end. -/
theorem exists_slice_openingTags : ∃ b, Text.slice t q start = b ++ ['>'] ∧ '>' ∉ b := by
  obtain ⟨hlt, -, hbracket, hfirst⟩ := stop?_openingTags hstart
  exact Text.exists_slice_bracket (by omega) hbracket hfirst

/-- An element starts with its opening tag. -/
theorem openingTag_slice {e : ℕ} (he : start ≤ e) :
    openingTag (Text.slice t q e) = Text.slice t q start := by
  obtain ⟨b, hb, hnone⟩ := exists_slice_openingTags hstart
  have hlt := (openingTags t name).lt_stop hstart
  rw [← Text.slice_append t hlt.le he, hb, List.append_assoc]
  exact openingTag_append hnone _

/-- The last `</` of an element is that of its closing tag. -/
theorem elementBody_slice (hname : name.all Char.isAlphanum) {stop e : ℕ}
    (hnext : (closingTags t name).next? start = some (stop, e)) :
    elementBody (Text.slice t q e) = Text.slice t start stop := by
  obtain ⟨b, hb, hnone⟩ := exists_slice_openingTags hstart
  obtain ⟨hle, hstop, -⟩ := (closingTags t name).next?_eq_some_iff.mp hnext
  obtain ⟨z, hz, hopener⟩ := (isClosingTag_of_stop? hstop).exists_eq hname
  have hlt := (openingTags t name).lt_stop hstart
  have hlast := (closingTags t name).lt_stop hstop
  rw [← Text.slice_append t hlt.le (hle.trans hlast.le), ← Text.slice_append t hle hlast.le, hb, hz,
    List.append_assoc, List.singleton_append, elementBody_bracket hnone,
    beforeLastClosing?_append hopener]
  rfl

/-- An opening tag alone has no body. -/
theorem elementBody_openingTag : elementBody (Text.slice t q start) = [] := by
  obtain ⟨b, hb, hnone⟩ := exists_slice_openingTags hstart
  rw [hb, elementBody_bracket hnone]
  rfl

end Cuts

end Markup

namespace Pattern

open Cursor Markup

section Elements

variable {name : String} (hname : IsName name) {t : Text} {m : Match}

/-- Behind an opening tag, an element goes on behind the first closing tag. -/
theorem run_closing_place {q n : ℕ} (hread : tagRead? name.toList (t.drop q) = some n) :
    ((shortest fun _ => true).run (place t (q + n) []) fun there =>
        (closingTag (word name)).run there some) =
      (elementEnd? t name.toList q).map (place t · []) := by
  have hstart : (openingTags t name.toList).stop? q = some (q + n) := by
    simp [openingTags, hread]
  rw [run_shortest_next? (closingTags t name.toList) (run_closingTag name t)
    ((openingTags t name.toList).stop_le hstart), elementEnd?, hstart, Option.bind_some,
    Option.map_map]
  rfl

include hname

theorem run_element_place (t : Text) (q : ℕ) :
    (element name).run (place t q []) some =
      (elementEnd? t name.toList q).map (place t · []) := by
  have hrun : (element name).run (place t q []) some = (tag [name]).run (place t q [])
      fun there => (shortest fun _ => true).run there fun there =>
        (closingTag (word name)).run there some := rfl
  rw [hrun, run_tag_place hname]
  cases hread : tagRead? name.toList (t.drop q) with
  | none => simp [elementEnd?, openingTags, hread]
  | some n => exact run_closing_place hread

/-- If no closing tag follows, the opening tag is taken alone. -/
theorem run_elementOrTag_place (t : Text) (q : ℕ) :
    (elementOrTag name).run (place t q []) some =
      ((elementsOrTags t name.toList).stop? q).map (place t · []) := by
  have hrun : (elementOrTag name).run (place t q []) some = (tag [name]).run (place t q [])
      fun there => (optional (shortest (fun _ => true) ++ closingTag (word name))).run there
        some := rfl
  rw [hrun, run_tag_place hname, elementsOrTags, Option.map_or]
  cases hread : tagRead? name.toList (t.drop q) with
  | none => simp [elementEnd?, openingTags, hread]
  | some n =>
      rw [Option.bind_some, optional, run_orElse, run_append, run_closing_place hread]
      simp [openingTags, hread]

/-- An element is an opening tag with what follows up to the first closing tag. -/
theorem exists_tags_of_mem_element (h : m ∈ (element name).all t) :
    ∃ start stop, (openingTags t name.toList).stop? m.start = some start ∧
      (closingTags t name.toList).next? start = some (stop, m.stop) :=
  elementEnd?_eq_some_iff.mp
    (stop?_of_mem_all (elements t name.toList) (run_element_place hname t) h)

theorem exists_tags_of_mem_all (bare : Bool)
    (h : m ∈ (if bare then elementOrTag name else element name).all t) :
    ∃ start, (openingTags t name.toList).stop? m.start = some start ∧
      ((∃ stop, (closingTags t name.toList).next? start = some (stop, m.stop)) ∨
        bare ∧ (closingTags t name.toList).next? start = none ∧ m.stop = start) := by
  cases bare with
  | false =>
      obtain ⟨start, stop, hstart, hnext⟩ := exists_tags_of_mem_element hname h
      exact ⟨start, hstart, .inl ⟨stop, hnext⟩⟩
  | true =>
      have hstop :=
        stop?_of_mem_all (elementsOrTags t name.toList) (run_elementOrTag_place hname t) h
      rcases Option.or_eq_some_iff.mp hstop with hend | ⟨hend, hstart⟩
      · obtain ⟨start, stop, hstart, hnext⟩ := elementEnd?_eq_some_iff.mp hend
        exact ⟨start, hstart, .inl ⟨stop, hnext⟩⟩
      · refine ⟨m.stop, hstart, .inr ⟨rfl, ?_, rfl⟩⟩
        simpa [elementEnd?, hstart] using hend

/-- An element is its opening tag, its body and its closing tag, and the body has no closing tag of
the name. Where the closing tag may be left out, it is only if none follows the opening tag, and
then there is no body. -/
theorem elements_enclosed (bare : Bool)
    (h : m ∈ (if bare then elementOrTag name else element name).all t) :
    m.text = Text.slice t m.start m.stop ∧
      ∃ closer, m.text = openingTag m.text ++ (elementBody m.text ++ closer) ∧
        (openingTag m.text).count '>' = 1 ∧ (openingTag m.text).getLast? = some '>' ∧
        ¬HasClosingTag name.toList (elementBody m.text) ∧
        (IsClosingTag name.toList closer ∨
          bare ∧ ¬HasClosingTag name.toList (t.drop (m.start + (openingTag m.text).length)) ∧
            elementBody m.text = [] ∧ closer = []) := by
  refine ⟨(inText_all h).text_eq, ?_⟩
  rw [(inText_all h).text_eq]
  obtain ⟨start, hstart, hends⟩ := exists_tags_of_mem_all hname bare h
  obtain ⟨b, hb, hnone⟩ := exists_slice_openingTags hstart
  have hlt := (openingTags t name.toList).lt_stop hstart
  have hcount : (b ++ ['>']).count '>' = 1 := by simp [List.count_eq_zero.mpr hnone]
  have hlast : (b ++ ['>']).getLast? = some '>' := by simp
  rw [← hb] at hcount hlast
  rcases hends with ⟨stop, hnext⟩ | ⟨hbare, hnext, hstop⟩
  · obtain ⟨hle, hcloses, -⟩ := (closingTags t name.toList).next?_eq_some_iff.mp hnext
    have hstop := (closingTags t name.toList).lt_stop hcloses
    have hend := hle.trans hstop.le
    rw [openingTag_slice hstart hend, elementBody_slice hstart hname.2 hnext]
    refine ⟨Text.slice t stop m.stop, ?_, hcount, hlast, not_hasClosingTag_slice hname.2 hnext,
      .inl (isClosingTag_of_stop? hcloses)⟩
    rw [Text.slice_append t hle hstop.le, Text.slice_append t hlt.le hend]
  · have hbehind : m.start + (Text.slice t m.start start).length = start := by
      rw [Text.length_slice t m.start ((openingTags t name.toList).stop_le hstart)]
      omega
    have hunclosed := not_hasClosingTag_drop hname.2 hnext
    rw [hstop, openingTag_slice hstart le_rfl, elementBody_openingTag hstart, hbehind]
    refine ⟨[], by simp, hcount, hlast, ?_, .inr ⟨hbare, hunclosed, rfl, rfl⟩⟩
    rintro ⟨u, hu, hinfix⟩
    exact hunclosed ⟨u, hu, hinfix.trans List.nil_infix⟩

end Elements

/-- What looks like the closing tag of the first element stands in its opening tag, and its body has
a closing tag of another name. The second element is not closed. -/
theorem elements_enclosed_tag_like_attribute :
    let t := "<p </p>x</b></P ><p>y".toList
    let first : Match := ⟨0, 17, "<p </p>x</b></P >".toList, []⟩
    let second : Match := ⟨17, 20, "<p>".toList, []⟩
    first ∈ (element "p").all t ∧ second ∈ (elementOrTag "p").all t ∧
      openingTag first.text = "<p </p>".toList ∧ elementBody first.text = "x</b>".toList ∧
      ¬HasClosingTag "p".toList "x</b>".toList ∧ IsClosingTag "p".toList "</P >".toList ∧
      ¬HasClosingTag "p".toList "y".toList := by
  intro t first second
  have hfirst : first ∈ (element "p").all t := by decide +kernel
  have hsecond : second ∈ (elementOrTag "p").all t := by decide +kernel
  have hopening : openingTag first.text = "<p </p>".toList := by decide
  have hbody : elementBody first.text = "x</b>".toList := by decide
  obtain ⟨-, closer, htext, -, -, hnone, hcloser⟩ := elements_enclosed (by decide) false hfirst
  obtain ⟨-, closer', htext', -, -, -, hcloser'⟩ := elements_enclosed (by decide) true hsecond
  refine ⟨hfirst, hsecond, hopening, hbody, hbody ▸ hnone, ?_, ?_⟩
  · have hsplit : first.text = openingTag first.text ++
        (elementBody first.text ++ "</P >".toList) := by decide
    have heq := List.append_cancel_left (List.append_cancel_left (htext.symm.trans hsplit))
    simpa [heq] using hcloser
  · have hsplit : second.text = openingTag second.text ++ (elementBody second.text ++ []) := by
      decide
    have heq := List.append_cancel_left (List.append_cancel_left (htext'.symm.trans hsplit))
    rcases hcloser' with ⟨w, gap, hempty, -⟩ | ⟨-, hunclosed, -⟩
    · cases heq.symm.trans hempty
    · exact hunclosed

end Pattern

end MarkupAudit
