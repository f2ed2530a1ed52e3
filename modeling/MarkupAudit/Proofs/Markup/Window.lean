import MarkupAudit.Proofs.Edit.Cores
import MarkupAudit.Proofs.Pattern.Bounds
import MarkupAudit.Proofs.Text.Spelling

/-! # Tags in a part of a text

An opening tag reaches to the first closing bracket, so that two tags that overlap have the same
end. The tags of a part that starts behind a closing bracket are then those of the whole text that
lie in the part: none of them starts before the part, and one that the end of the part cuts off has
no closing bracket in it. -/

namespace MarkupAudit

namespace Text

theorem slice_slice (t : Text) {a b x y : ℕ} (h : a + y ≤ b) :
    slice (slice t a b) x y = slice t (a + x : ℕ) (a + y : ℕ) := by
  rw [slice_natCast, slice_natCast, slice_natCast, List.take_drop, List.drop_drop, List.take_take,
    min_eq_left h]

theorem drop_slice (t : Text) (a b x : ℕ) :
    (slice t a b).drop x = (t.drop (a + x)).take (b - (a + x)) := by
  rw [slice_natCast, List.drop_drop, List.drop_take]

theorem least?_bracket_append {t b s : Text} {q : ℕ} (h : t.drop q = b ++ '>' :: s)
    (hb : '>' ∉ b) : t.least? q (t.standsAt ">".toList) = some (q + b.length) := by
  have htake : (t.drop q).takeWhile (· != '>') = b := by
    rw [h, takeWhile_append_stop (by decide), List.takeWhile_eq_self_iff]
    intro c hc
    simpa using ne_of_mem_of_not_mem hc hb
  have hstands : t.standsAt ">".toList (q + b.length) := by
    rw [standsAt_bracket, ← List.getElem?_drop, h]
    simp
  rw [least?_bracket, htake]
  exact if_pos hstands

end Text

/-! ## Things that share their ends -/

namespace Occurrences

variable {t : Text} (o : Occurrences t)

/-- What starts before the end of something ends there or before. -/
def ShareStops : Prop :=
  ∀ {q e r f : ℕ}, o.stop? q = some e → o.stop? r = some f → r < e → f ≤ e

theorem apart_of_mem_scan {p : ℕ} {r s : ℕ × ℕ} (hr : r ∈ o.scan p) (hs : s ∈ o.scan p)
    (hne : r ≠ s) : r.2 ≤ s.1 ∨ s.2 ≤ r.1 := by
  have : Std.Symm fun r s : ℕ × ℕ => r.2 ≤ s.1 ∨ s.2 ≤ r.1 := ⟨fun _ _ => Or.symm⟩
  have hpairs : (o.scan p).Pairwise fun r s => r.2 ≤ s.1 ∨ s.2 ≤ r.1 :=
    (o.scan_pairwise p).imp Or.inl
  exact hpairs.forall hr hs hne

/-- Of things that share their ends, the scanner takes the first one for each end. -/
theorem mem_scan_zero_iff (h : o.ShareStops) {q e : ℕ} :
    (q, e) ∈ o.scan 0 ↔ o.stop? q = some e ∧ ∀ r < q, o.stop? r ≠ some e := by
  constructor
  · intro hmem
    have hstop := (o.mem_scan hmem).2
    refine ⟨hstop, fun r hr hsame => ?_⟩
    -- what covers an earlier one with this end overlaps the one that was taken
    obtain ⟨⟨q', e'⟩, hmem', hle, hlt⟩ := o.exists_mem_scan (Nat.zero_le r) hsame
    have hend : e ≤ e' := h (o.mem_scan hmem').2 hsame hlt
    have hqe : q < e := o.lt_stop hstop
    have hne : (q', e') ≠ (q, e) := by
      rw [ne_eq, Prod.mk.injEq]
      simp only at hle
      omega
    have hapart := o.apart_of_mem_scan hmem' hmem hne
    simp only at hle hapart
    omega
  · rintro ⟨hstop, hfirst⟩
    obtain ⟨⟨q', e'⟩, hmem, hle, hlt⟩ := o.exists_mem_scan (Nat.zero_le q) hstop
    have hstop' := (o.mem_scan hmem).2
    have hend : e = e' :=
      Nat.le_antisymm (h hstop' hstop hlt) (h hstop hstop' (hle.trans_lt (o.lt_stop hstop)))
    subst hend
    obtain rfl : q' = q := by
      by_contra hne
      exact hfirst q' (lt_of_le_of_ne hle hne) hstop'
    exact hmem

end Occurrences

/-! ## Opening tags -/

namespace Markup

open Text

/-- The number of characters of the opening tag of the name that a text starts with. Other brackets
may stand in the tag, but no closing one. -/
def tagRead? (name r : Text) : Option ℕ :=
  if r.head? == some '<' && r.contains '>' && isSpelled name ((r.drop 1).takeWhile isWord) then
    some (openingTag r).length
  else none

theorem tagRead?_bracket {name b : Text} (hb : '>' ∉ b) (s : Text) :
    tagRead? name ('<' :: (b ++ '>' :: s)) =
      if isSpelled name (b.takeWhile isWord) then some (b.length + 2) else none := by
  have hopening : openingTag ('<' :: (b ++ '>' :: s)) = '<' :: b ++ ['>'] :=
    openingTag_append (b := '<' :: b) (by simpa using hb) s
  have hword : (b ++ '>' :: s).takeWhile isWord = b.takeWhile isWord :=
    takeWhile_append_stop (by decide) b s
  simp [tagRead?, hopening, hword]

theorem tagRead?_eq_some_iff {name r : Text} {n : ℕ} :
    tagRead? name r = some n ↔
      ∃ b s, r = '<' :: (b ++ '>' :: s) ∧ '>' ∉ b ∧ isSpelled name (b.takeWhile isWord) ∧
        n = b.length + 2 := by
  constructor
  · intro h
    have hr : r.head? = some '<' ∧ '>' ∈ r := by
      have := (Option.ite_none_right_eq_some.mp h).1
      simp_all
    obtain ⟨r, rfl⟩ := List.head?_eq_some_iff.mp hr.1
    obtain ⟨b, s, rfl, hb⟩ := List.eq_append_cons_of_mem (show '>' ∈ r by simpa using hr.2)
    rw [tagRead?_bracket hb, Option.ite_none_right_eq_some, Option.some.injEq] at h
    exact ⟨b, s, rfl, hb, h.1, h.2.symm⟩
  · rintro ⟨b, s, rfl, hb, hname, rfl⟩
    rw [tagRead?_bracket hb, if_pos hname]

/-- A tag is read in a part of a text just if it is not cut off. -/
theorem tagRead?_take {name r : Text} {k n : ℕ} :
    tagRead? name (r.take k) = some n ↔ tagRead? name r = some n ∧ n ≤ k := by
  simp only [tagRead?_eq_some_iff]
  constructor
  · rintro ⟨b, s, htake, hb, hname, rfl⟩
    have hlength := congrArg List.length htake
    simp only [List.length_take, List.length_cons, List.length_append] at hlength
    refine ⟨⟨b, s ++ r.drop k, ?_, hb, hname, rfl⟩, by omega⟩
    calc r = r.take k ++ r.drop k := (List.take_append_drop k r).symm
      _ = '<' :: (b ++ '>' :: (s ++ r.drop k)) := by simp [htake]
  · rintro ⟨⟨b, s, rfl, hb, hname, rfl⟩, hle⟩
    refine ⟨b, s.take (k - (b.length + 2)), ?_, hb, hname, rfl⟩
    have hsplit : '<' :: (b ++ '>' :: s) = ('<' :: b ++ ['>']) ++ s := by simp
    have hlength : ('<' :: b ++ ['>']).length = b.length + 2 := by simp
    rw [hsplit, List.take_append, hlength, List.take_of_length_le (by omega)]
    simp

/-- A tag ends with the first closing bracket from its start on. -/
theorem brackets_of_tagRead? {name t : Text} {q n : ℕ} (h : tagRead? name (t.drop q) = some n) :
    2 ≤ n ∧ t[q]? = some '<' ∧ t[q + n - 1]? = some '>' ∧
      ∀ i, q ≤ i → i + 1 < q + n → t[i]? ≠ some '>' := by
  obtain ⟨b, s, hdrop, hb, -, rfl⟩ := tagRead?_eq_some_iff.mp h
  have hget : ∀ i, q ≤ i → t[i]? = ('<' :: (b ++ '>' :: s))[i - q]? := by
    intro i hi
    rw [← hdrop, List.getElem?_drop, Nat.add_sub_cancel' hi]
  refine ⟨by omega, by simp [hget q le_rfl], ?_, fun i hle hlt heq => ?_⟩
  · rw [hget _ (by omega), show q + (b.length + 2) - 1 - q = b.length + 1 by omega]
    simp
  · rw [hget i hle, ← List.cons_append, List.getElem?_append_left (by simp; omega)] at heq
    have hmem := List.mem_of_getElem? heq
    simp [hb] at hmem

/-- The opening tags of a name. -/
def openingTags (t name : Text) : Occurrences t where
  stop? q := (tagRead? name (t.drop q)).map (q + ·)
  lt_stop {q e} h := by
    obtain ⟨n, hn, rfl⟩ := Option.map_eq_some_iff.mp h
    have := (brackets_of_tagRead? hn).1
    omega
  stop_le {q e} h := by
    obtain ⟨n, hn, rfl⟩ := Option.map_eq_some_iff.mp h
    obtain ⟨htwo, -, hget, -⟩ := brackets_of_tagRead? hn
    have := (List.getElem?_eq_some_iff.mp hget).1
    omega

theorem stop?_openingTags {t name : Text} {q e : ℕ} (h : (openingTags t name).stop? q = some e) :
    q + 2 ≤ e ∧ t[q]? = some '<' ∧ t[e - 1]? = some '>' ∧
      ∀ i, q ≤ i → i + 1 < e → t[i]? ≠ some '>' := by
  obtain ⟨n, hn, rfl⟩ := Option.map_eq_some_iff.mp h
  obtain ⟨htwo, hbrackets⟩ := brackets_of_tagRead? hn
  exact ⟨by omega, hbrackets⟩

/-- What starts before a closing bracket stops with it or before. -/
theorem stop_le_of_bracket {t name : Text} {q e g : ℕ} (hg : t[g]? = some '>')
    (h : (openingTags t name).stop? q = some e) (hq : q ≤ g) : e ≤ g + 1 := by
  obtain ⟨-, -, -, hnone⟩ := stop?_openingTags h
  by_contra hlt
  exact hnone g hq (by omega) hg

theorem shareStops_openingTags (t name : Text) : (openingTags t name).ShareStops := by
  intro q e r f hq hr hlt
  obtain ⟨htwo, -, hbracket, -⟩ := stop?_openingTags hq
  have := stop_le_of_bracket hbracket hr (by omega)
  omega

/-! ## A part of a text -/

theorem stop?_openingTags_slice {t : Text} {a b : ℕ} (name : Text) {x y : ℕ} (hb : a + x ≤ b) :
    (openingTags (slice t a b) name).stop? x = some y ↔
      (openingTags t name).stop? (a + x) = some (a + y) ∧ a + y ≤ b := by
  simp only [openingTags, Option.map_eq_some_iff, drop_slice, tagRead?_take]
  constructor
  · rintro ⟨n, ⟨hn, hle⟩, rfl⟩
    exact ⟨⟨n, hn, by omega⟩, by omega⟩
  · rintro ⟨⟨n, hn, heq⟩, hle⟩
    exact ⟨n, ⟨hn, by omega⟩, by omega⟩

end Markup

namespace Pattern

open Cursor Markup

/-- Behind an opening bracket, a name that ends is the word that stands there. -/
theorem run_name_place {name : String} (hname : IsName name) {t b s : Text} {q : ℕ}
    (h : t.drop q = b ++ '>' :: s) (next : Cursor → Option Cursor) :
    ((word name).run (place t q []) fun there => wordEdge.run there next) =
      if Text.isSpelled name.toList (b.takeWhile Text.isWord) then
        next (place t (q + name.toList.length) []) else none := by
  have hend := Text.startsLike_nameEnd hname.2 (fun c => !c.any Text.isWord) (fun _ => rfl) b s
  have hget : t[q + name.toList.length]? = ((b ++ '>' :: s).drop name.toList.length).head? := by
    rw [← h, List.drop_drop, List.head?_drop]
  rw [← hget] at hend
  rw [Text.isSpelled, ← hend, run_word_place, Text.spelledAt, h]
  cases hspelled : Text.startsLike name.toList (b ++ '>' :: s) with
  | false => rfl
  | true =>
      have hbefore : (t.take (q + name.toList.length)).getLast?.any Text.isWord :=
        Text.isWord_before_of_spelledAt hname.1 hname.2 (by rwa [Text.spelledAt, h])
      rw [if_pos rfl, run_wordEdge_place hbefore]
      cases t[q + name.toList.length]?.any Text.isWord <;> rfl

/-- The pattern of the opening tags of a name goes on behind the tag that is read. -/
theorem run_tag_place {name : String} (hname : IsName name) (t : Text) (q : ℕ)
    (next : Cursor → Option Cursor) :
    (tag [name]).run (place t q []) next =
      (tagRead? name.toList (t.drop q)).bind fun n => next (place t (q + n) []) := by
  have hopens : OpensTag (tag [name]) _ := opensTag_tag (by simpa using hname)
  by_cases hopen : t[q]? = some '<'
  swap
  · rw [hopens.run_of_ne hopen]
    simp [tagRead?, hopen]
  by_cases hclose : '>' ∈ t.drop q
  swap
  · rw [hopens.run_of_notMem hclose]
    simp [tagRead?, hclose]
  obtain ⟨r, hr⟩ := List.head?_eq_some_iff.mp (List.head?_drop.trans hopen)
  obtain ⟨-, hdrop⟩ := Text.getElem?_of_drop hr
  obtain ⟨b, s, rfl, hb⟩ := List.eq_append_cons_of_mem (show '>' ∈ r by simpa [hr] using hclose)
  have hrun : (tag [name]).run (place t q []) next = (word "<").run (place t q []) fun there =>
      (word name).run there fun there => wordEdge.run there fun there =>
        restOfTag.run there next := rfl
  have hstands : t.standsAt "<".toList q := by
    rw [show "<".toList = ['<'] from rfl, Text.standsAt_singleton, hopen]
    rfl
  rw [hrun, run_word_of_isMark (by decide), if_pos hstands, show "<".toList.length = 1 from rfl,
    run_name_place hname hdrop, hr, tagRead?_bracket hb]
  by_cases hspelled : Text.isSpelled name.toList (b.takeWhile Text.isWord)
  · have hle : name.toList.length ≤ b.length :=
      (Text.length_eq_of_isSpelled hspelled).symm.trans_le (List.takeWhile_prefix _).length_le
    have hrest : t.drop (q + 1 + name.toList.length) = b.drop name.toList.length ++ '>' :: s := by
      rw [← List.drop_drop, hdrop, List.drop_append_of_le_length hle]
    rw [if_pos hspelled, if_pos hspelled, run_restOfTag_place,
      Text.least?_bracket_append hrest fun hmem => hb (List.mem_of_mem_drop hmem), List.length_drop,
      Option.bind_some, Option.bind_some]
    congr 2
    omega
  · rw [if_neg hspelled, if_neg hspelled]
    rfl

section Part

variable {name : String} (hname : IsName name) {t : Text}

include hname

/-- The matches of the pattern are the tags that a scanner finds. -/
theorem all_tag_eq_scan (t : Text) :
    ((tag [name]).all t).map (fun m => (m.start, m.stop)) = (openingTags t name.toList).scan 0 := by
  apply all_eq_scan
  intro q _
  change _ = (tagRead? name.toList (t.drop q)).map (q + ·)
  rw [matchAt?, run_tag_place hname]
  cases tagRead? name.toList (t.drop q) <;> rfl

/-- There is a tag at an offset just if it can be read there and no tag with the same end starts
before. -/
theorem exists_mem_all_tag_iff {x y : ℕ} :
    (∃ m ∈ (tag [name]).all t, (m.start, m.stop) = (x, y)) ↔
      (openingTags t name.toList).stop? x = some y ∧
        ∀ r < x, (openingTags t name.toList).stop? r ≠ some y := by
  rw [← (openingTags t name.toList).mem_scan_zero_iff (shareStops_openingTags t name.toList),
    ← all_tag_eq_scan hname, List.mem_map]

/-- The tags of a part that starts behind a closing bracket are those of the text that lie in the
part. -/
theorem exists_mem_all_slice_iff {a b : ℕ} (hb : b ≤ t.length) (hbracket : t[a]? = some '>')
    {x y : ℕ} :
    (∃ m ∈ (tag [name]).all (Text.slice t (a + 1 : ℕ) b), (m.start, m.stop) = (x, y)) ↔
      a + 1 + y ≤ b ∧ ∃ m ∈ (tag [name]).all t, (m.start, m.stop) = (a + 1 + x, a + 1 + y) := by
  simp only [exists_mem_all_tag_iff hname]
  constructor
  · rintro ⟨hstop, hfirst⟩
    have hxy := (openingTags _ name.toList).lt_stop hstop
    have hy := (openingTags _ name.toList).stop_le hstop
    rw [Text.length_slice t _ hb] at hy
    obtain ⟨hstop, hle⟩ := (stop?_openingTags_slice name.toList (by omega)).mp hstop
    refine ⟨hle, hstop, fun r hr hsame => ?_⟩
    by_cases hra : r ≤ a
    -- from before the part, a tag reaches at most to the bracket that the part starts behind
    · have := stop_le_of_bracket hbracket hsame hra
      omega
    · obtain ⟨k, rfl⟩ : ∃ k, r = a + 1 + k := ⟨r - (a + 1), by omega⟩
      exact hfirst k (by omega) ((stop?_openingTags_slice name.toList (by omega)).mpr ⟨hsame, hle⟩)
  · rintro ⟨hle, hstop, hfirst⟩
    have hxy := (openingTags t name.toList).lt_stop hstop
    refine ⟨(stop?_openingTags_slice name.toList (by omega)).mpr ⟨hstop, hle⟩, fun r hr hsame => ?_⟩
    exact hfirst (a + 1 + r) (by omega)
      ((stop?_openingTags_slice name.toList (by omega)).mp hsame).1

theorem exists_mem_all_slice {a b : ℕ} (hb : b ≤ t.length) (hbracket : t[a]? = some '>')
    (holds : Text → Prop) :
    (∃ m ∈ (tag [name]).all (Text.slice t (a + 1 : ℕ) b), holds m.text) ↔
      ∃ m ∈ (tag [name]).all t, a + 1 ≤ m.start ∧ m.stop ≤ b ∧ holds m.text := by
  have hpart {x y : ℕ} := exists_mem_all_slice_iff hname (x := x) (y := y) hb hbracket
  constructor
  · rintro ⟨m, hm, hholds⟩
    obtain ⟨hle, i, hi, hspan⟩ := hpart.mp ⟨m, hm, rfl⟩
    obtain ⟨hstart, hstop⟩ := Prod.mk.inj hspan
    refine ⟨i, hi, by omega, by omega, ?_⟩
    rwa [(inText_all hi).text_eq, hstart, hstop, ← Text.slice_slice t hle,
      ← (inText_all hm).text_eq]
  · rintro ⟨i, hi, hstart, hstop, hholds⟩
    have hle := (inText_all hi).start_le
    obtain ⟨m, hm, hspan⟩ := hpart (x := i.start - (a + 1)) (y := i.stop - (a + 1)).mpr
      ⟨by omega, i, hi, by rw [Nat.add_sub_cancel' hstart, Nat.add_sub_cancel' (by omega)]⟩
    obtain ⟨hmstart, hmstop⟩ := Prod.mk.inj hspan
    refine ⟨m, hm, ?_⟩
    rwa [(inText_all hm).text_eq, Text.slice_slice t (by omega), hmstart, hmstop,
      Nat.add_sub_cancel' hstart, Nat.add_sub_cancel' (by omega), ← (inText_all hi).text_eq]

end Part

end Pattern

end MarkupAudit
