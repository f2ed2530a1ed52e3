import MarkupAudit.Proofs.Edit.Insertions
import MarkupAudit.Proofs.Evaluation.Reports
import MarkupAudit.Proofs.Text.Spelling

/-! # The names of the tags that are found

A pattern of tags ends a name where no word character follows it. The reader of names goes on over
word characters, colons and hyphens. So both cut a name at the same place but where a colon or a
hyphen follows: there the pattern finds the tag by the start of its name. -/

namespace MarkupAudit

namespace Text

theorem isPlain_append {t u : Text} : isPlain (t ++ u) ↔ isPlain t ∧ isPlain u := by
  simp [isPlain]

theorem lower_append_of_plain {t u : Text} (ht : isPlain t) (hu : isPlain u) :
    lower (t ++ u) = lower t ++ lower u := by
  rw [lower_of_plain (toNat_lt_of_isPlain (isPlain_append.mpr ⟨ht, hu⟩)),
    lower_of_plain (toNat_lt_of_isPlain ht), lower_of_plain (toNat_lt_of_isPlain hu),
    List.map_append]

end Text

namespace Pattern

open Cursor

/-- The names of elements that start with a letter. -/
def IsTagName (name : String) : Prop :=
  IsName name ∧ name.toList.head?.any Char.isAlpha

instance (name : String) : Decidable (IsTagName name) :=
  inferInstanceAs (Decidable (_ ∧ _))

/-- Whatever follows the name, a match starts with a bracket and one of the names, and no word
character stands behind the name. -/
theorem exists_word_of_mem_tagOf {names : List String} (hne : names ≠ [])
    (hnames : ∀ name ∈ names, IsName name) {rest : Pattern} {t : Text} {m : Match}
    (h : m ∈ (tagOf (names.map word) rest).all t) :
    ∃ name ∈ names, ∃ w tail, m.text = '<' :: (w ++ tail) ∧ Text.isSpelled name.toList w ∧
      tail.head?.any Text.isWord = false := by
  obtain ⟨q, -, next, there, hnext, hrun, rfl⟩ := exists_run_of_mem_all h
  have hparts : (tagOf (names.map word) rest).run (place t q []) next =
      (word "<").run (place t q []) fun there => (anyOf (names.map word)).run there fun there =>
        wordEdge.run there fun there => rest.run there next := rfl
  rw [hparts, run_word_of_isMark (by decide)] at hrun
  obtain ⟨hopen, hrun⟩ := Option.ite_none_right_eq_some.mp hrun
  obtain ⟨name, hname, hspelled, hrun⟩ := exists_name_of_run_anyOf hne hrun
  obtain ⟨hne, hletters⟩ := hnames name hname
  rw [run_wordEdge_place (Text.isWord_before_of_spelledAt hne hletters hspelled),
    Option.ite_none_left_eq_some] at hrun
  obtain ⟨hedge, hrun⟩ := hrun
  obtain ⟨r, hr⟩ := List.isPrefixOf_iff_prefix.mp hopen
  have hrest : t.drop (q + 1) = r := (Text.getElem?_of_drop hr.symm).2
  rw [show "<".toList.length = 1 from rfl] at hspelled hedge hrun
  rw [Text.spelledAt, hrest] at hspelled
  rw [← List.head?_drop, ← List.drop_drop, hrest] at hedge
  have hlength : q + 1 + name.toList.length ≤ t.length := by
    have := Markup.length_le_of_startsLike hspelled
    rw [← hrest, List.length_drop] at this
    have := List.length_pos_iff.mpr hne
    omega
  obtain ⟨k, held, hle, -, hthere⟩ := exists_place hlength hrun
  obtain rfl := hnext _ _ hthere
  obtain ⟨j, rfl⟩ : ∃ j, k = q + 1 + name.toList.length + j := ⟨_, (Nat.add_sub_cancel' hle).symm⟩
  refine ⟨name, hname, r.take name.toList.length, (r.drop name.toList.length).take j, ?_,
    Text.isSpelled_take hspelled, ?_⟩
  · calc (t.drop q).take (q + 1 + name.toList.length + j - q)
      _ = ('<' :: r).take (name.toList.length + j + 1) := by
        rw [← hr, show q + 1 + name.toList.length + j - q = name.toList.length + j + 1 by omega]
        rfl
      _ = '<' :: (r.take name.toList.length ++ (r.drop name.toList.length).take j) := by
        rw [List.take_succ_cons, List.take_add]
  · cases j with
    | zero => rfl
    | succ j => simpa [List.head?_take] using hedge

end Pattern

namespace Markup

open Pattern

/-- Behind a word, the reader of names goes on as long as it finds name characters. -/
theorem tagName_of_word {w tail : Text} (hfirst : w.head?.any Char.isAlpha)
    (hw : ∀ c ∈ w, Text.isWord c) :
    tagName ('<' :: (w ++ tail)) = Text.lower (w ++ tail.takeWhile isNameChar) := by
  have hchars : ∀ c ∈ w, isNameChar c := fun c hc => by simp [isNameChar, hw c hc]
  cases w with
  | nil => cases hfirst
  | cons c w =>
      rw [tagName, List.cons_append, tagHead?_of_isAlpha (by simpa using hfirst)]
      simp only
      rw [← List.cons_append, List.takeWhile_append_of_pos hchars]

/-- The part starts with a bracket and one of the names. Its name is that one, and goes on only if a
colon or a hyphen follows. -/
def NamedAfter (names : List String) (part : Text) : Prop :=
  ∃ name ∈ names, ∃ w tail, part = '<' :: (w ++ tail) ∧
    Text.lower w = Text.lower name.toList ∧ tail.head?.any Text.isWord = false ∧
    tagName part = Text.lower name.toList ++ Text.lower (tail.takeWhile isNameChar) ∧
    (tagName part ∈ names.map (Text.lower ·.toList) ↔
      tail.head? ≠ some ':' ∧ tail.head? ≠ some '-')

theorem notMem_lower_of_isName {name : String} (hname : IsName name) {c : Char}
    (hc : c = ':' ∨ c = '-') : c ∉ Text.lower name.toList := by
  have hletters := List.all_eq_true.mp hname.2
  rw [Text.lower_of_plain fun x hx => Text.plain_of_isAlphanum (hletters x hx), List.mem_map]
  rintro ⟨x, hx, rfl⟩
  revert hc
  exact Text.forall_plain (P := fun x => x.isAlphanum → ¬(x.toLower = ':' ∨ x.toLower = '-'))
    (by decide) x (Text.plain_of_isAlphanum (hletters x hx)) (hletters x hx)

/-- Behind a word, a name goes on just if a colon or a hyphen follows. -/
theorem takeWhile_isNameChar_eq_nil_or {tail : Text} (hedge : tail.head?.any Text.isWord = false) :
    (tail.head? ≠ some ':' ∧ tail.head? ≠ some '-') ∧ tail.takeWhile isNameChar = [] ∨
      ∃ c r, (c = ':' ∨ c = '-') ∧ tail.head? = some c ∧ tail.takeWhile isNameChar = c :: r := by
  cases tail with
  | nil => exact .inl ⟨by simp, rfl⟩
  | cons c tail =>
      have hword : Text.isWord c = false := by simpa using hedge
      by_cases hc : c = ':' ∨ c = '-'
      · refine .inr ⟨c, tail.takeWhile isNameChar, hc, rfl, List.takeWhile_cons_of_pos ?_⟩
        simpa [isNameChar, hword] using hc
      · rw [not_or] at hc
        refine .inl ⟨by simpa using hc, List.takeWhile_cons_of_neg ?_⟩
        simpa [isNameChar, hword] using hc

theorem isAlpha_of_isSpelled {name w : Text} (hfirst : name.head?.any Char.isAlpha)
    (hplain : Text.isPlain w) (h : Text.isSpelled name w) : w.head?.any Char.isAlpha := by
  cases Text.isSpelled_iff.mp h with
  | nil => cases hfirst
  | @cons c x name w hfold _ =>
      have hc : c.isAlpha := by simpa using hfirst
      have hcplain : c.toNat < 128 := Text.plain_of_isAlphanum (by simp [Char.isAlphanum, hc])
      have hxplain : x.toNat < 128 := Text.toNat_lt_of_isPlain hplain x (by simp)
      rw [Text.sameFold_of_plain hcplain hxplain, beq_iff_eq] at hfold
      simpa [hc] using Text.eq_of_toLower_eq Char.isAlpha (by decide) hcplain hfold

/-- A plain part that starts with a bracket and a name that ends has that name. -/
theorem namedAfter_of_isSpelled {names : List String} (hnames : ∀ name ∈ names, IsTagName name)
    {name : String} (hname : name ∈ names) {w tail : Text} (hplain : Text.isPlain (w ++ tail))
    (hspelled : Text.isSpelled name.toList w) (hedge : tail.head?.any Text.isWord = false) :
    NamedAfter names ('<' :: (w ++ tail)) := by
  obtain ⟨hwplain, htail⟩ := Text.isPlain_append.mp hplain
  obtain ⟨hisName, hfirst⟩ := hnames name hname
  have hgoes : Text.isPlain (tail.takeWhile isNameChar) :=
    List.all_eq_true.mpr fun c hc =>
      List.all_eq_true.mp htail c ((List.takeWhile_prefix _).subset hc)
  have hnamePlain : Text.isPlain name.toList :=
    List.all_eq_true.mpr fun c hc =>
      decide_eq_true (Text.plain_of_isAlphanum (List.all_eq_true.mp hisName.2 c hc))
  have hlower : Text.lower w = Text.lower name.toList := by
    rwa [Text.isSpelled_of_plain hnamePlain hwplain, decide_eq_true_iff] at hspelled
  have htagName : tagName ('<' :: (w ++ tail)) =
      Text.lower name.toList ++ Text.lower (tail.takeWhile isNameChar) := by
    rw [tagName_of_word (isAlpha_of_isSpelled hfirst hwplain hspelled)
      (Text.isWord_of_isSpelled hisName.2 hspelled), Text.lower_append_of_plain hwplain hgoes,
      hlower]
  refine ⟨name, hname, w, tail, rfl, hlower, hedge, htagName, ?_⟩
  rw [htagName]
  rcases takeWhile_isNameChar_eq_nil_or hedge with ⟨hends, hnil⟩ | ⟨c, r, hc, hhead, hcons⟩
  · rw [hnil, List.mem_map]
    exact iff_of_true ⟨name, hname, (List.append_nil _).symm⟩ hends
  · -- a name with a colon or a hyphen is none of the names
    have hmem : c ∈ Text.lower (tail.takeWhile isNameChar) := by
      rw [Text.lower_of_plain (Text.toNat_lt_of_isPlain hgoes), hcons, List.map_cons]
      rcases hc with rfl | rfl <;> exact List.mem_cons_self
    refine iff_of_false (fun hsame => ?_) fun hends => ?_
    · obtain ⟨other, hother, heq⟩ := List.mem_map.mp hsame
      apply notMem_lower_of_isName (hnames other hother).1 hc
      rw [heq]
      exact List.mem_append_right _ hmem
    · rw [hhead] at hends
      rcases hc with rfl | rfl
      · exact hends.1 rfl
      · exact hends.2 rfl

theorem namedAfter_of_mem_tagOf {names : List String} (hne : names ≠ [])
    (hnames : ∀ name ∈ names, IsTagName name) {rest : Pattern} {t : Text} (ht : Text.isPlain t)
    {m : Match} (h : m ∈ (tagOf (names.map word) rest).all t) : NamedAfter names m.text := by
  have hplain : Text.isPlain m.text := by
    refine List.all_eq_true.mpr fun c hc => List.all_eq_true.mp ht c ?_
    rw [(inText_all h).text_eq, Text.mem_slice_iff] at hc
    obtain ⟨i, -, -, hi⟩ := hc
    exact List.mem_of_getElem? hi
  obtain ⟨name, hname, w, tail, htext, hspelled, hedge⟩ :=
    exists_word_of_mem_tagOf hne (fun name hname => (hnames name hname).1) h
  rw [htext] at hplain ⊢
  exact namedAfter_of_isSpelled hnames hname
    (Text.isPlain_append (t := ['<']).mp hplain).2 hspelled hedge

/-- In a plain text, whatever a pattern of tags finds has one of its names, and so has whatever is
reported by a rule that is asked about such tags, but for names that go on with a colon or a
hyphen. -/
theorem tags_named_after {names : List String} (hne : names ≠ [])
    (hnames : ∀ name ∈ names, IsTagName name) {t : Text} (ht : Text.isPlain t) :
    (∀ m ∈ (tag names).all t, NamedAfter names m.text) ∧
      ∀ (r : Rule) (rest : Pattern), r.pattern = some (tagOf (names.map word) rest) →
        ∀ s, ∀ f ∈ (Evaluation.ofRule t s r).findings,
          NamedAfter names (Text.slice t f.span.start f.span.stop) := by
  refine ⟨fun m hm => namedAfter_of_mem_tagOf hne hnames ht hm, fun r rest hr s f hf => ?_⟩
  obtain ⟨m, hm, rfl⟩ := Evaluation.exists_match_of_pattern hr hf
  have hnamed := namedAfter_of_mem_tagOf hne hnames ht hm
  rwa [(inText_all hm).text_eq] at hnamed

theorem tags_named_after_area :
    let names := ["img", "area"]
    let t := "<IMG><area shape=poly>".toList
    ((∀ name ∈ names, IsTagName name) ∧ Text.isPlain t) ∧
      ((tag names).all t).map (tagName ·.text) = ["img".toList, "area".toList] ∧
      (∀ m ∈ (tag names).all t, NamedAfter names m.text) ∧
      ∀ s, ∀ f ∈ (Evaluation.ofRule t s Guideline.TextAlternatives.area).findings,
        NamedAfter ["area"] (Text.slice t f.span.start f.span.stop) := by
  intro names t
  have hnames : ∀ name ∈ names, IsTagName name := by decide
  have ht : Text.isPlain t := by decide
  refine ⟨⟨hnames, ht⟩, by decide +kernel,
    (tags_named_after (List.cons_ne_nil _ _) hnames ht).1, ?_⟩
  exact (tags_named_after (List.cons_ne_nil _ _) (by decide) ht).2
    Guideline.TextAlternatives.area restOfTag rfl

/-- An element whose name starts with that of an image and a hyphen is taken for an image. -/
theorem tag_found_by_start_of_name :
    let t := "<img-x>".toList
    (IsTagName "img" ∧ Text.isPlain t) ∧
      (∃ m ∈ (tag ["img"]).all t, tagName m.text = "img-x".toList ∧
        tagName m.text ∉ ["img"].map (Text.lower ·.toList)) ∧
      Guideline.TextAlternatives.image.pattern = some (tag ["img"]) ∧
      (Evaluation.ofRule t { text := t } Guideline.TextAlternatives.image).findings.map
        (·.evidence) = [t] := by
  refine ⟨⟨by decide, by decide⟩, ⟨⟨0, 7, "<img-x>".toList, []⟩, ?_, ?_, ?_⟩, rfl, ?_⟩
  · decide +kernel
  · decide +kernel
  · decide +kernel
  · decide +kernel

end Markup

end MarkupAudit
