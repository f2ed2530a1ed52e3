import MarkupAudit.Proofs.Edit.Amendment
import MarkupAudit.Proofs.Pattern.Bounds
import MarkupAudit.Proofs.Region.Comments

/-! # The opening tags that a left-to-right scanner finds

Of several names, at most one ends where a tag starts, and a tag reaches to the first closing
bracket whichever name it has. So the names and their order play no part in where a tag stops, and
the pattern of opening tags finds what a scanner finds that goes on behind each closing bracket. -/

namespace MarkupAudit

/-- The part up to and with the first closing bracket. -/
theorem Text.exists_slice_bracket {t : Text} {q e : ℕ} (hlt : q < e)
    (hbracket : t[e - 1]? = some '>') (hfirst : ∀ i, q ≤ i → i + 1 < e → t[i]? ≠ some '>') :
    ∃ b, slice t q e = b ++ ['>'] ∧ '>' ∉ b := by
  have hstands : t.standsAt ">".toList (e - 1) := by
    rw [standsAt_bracket, hbracket]
    rfl
  have hend : slice t (e - 1 : ℕ) e = ['>'] := by
    have hslice := slice_of_standsAt hstands
    rwa [show e - 1 + ">".toList.length = e by simp; omega] at hslice
  refine ⟨slice t q (e - 1 : ℕ), ?_, ?_⟩
  · rw [← hend, slice_append t (by omega) (by omega)]
  · rw [mem_slice_iff]
    rintro ⟨i, hlo, hhi, hi⟩
    exact hfirst i hlo (by omega) hi

namespace Markup

/-- Where the opening tag of the name that starts at an offset stops: behind the first closing
bracket from the end of the name on. -/
def openingTagStop? (t name : Text) (q : ℕ) : Option ℕ :=
  let nameStop := q + 1 + name.length
  if t.standsAt "<".toList q && t.spelledAt name (q + 1) && t[nameStop]?.any (!Text.isWord ·) then
    (t.least? nameStop (t.standsAt ">".toList)).map (· + 1)
  else none

/-- Where the opening tag of one of the names that starts at an offset stops. -/
def tagStop? (t : Text) (names : List Text) (q : ℕ) : Option ℕ :=
  names.findSome? (openingTagStop? t · q)

section Brackets

variable {t name other : Text} {q e e' : ℕ}

theorem openingTagStop?_bounds (h : openingTagStop? t name q = some e) :
    q + 1 < e ∧ e ≤ t.length := by
  simp only [openingTagStop?, Option.ite_none_right_eq_some, Option.map_eq_some_iff] at h
  obtain ⟨-, bracket, hbracket, rfl⟩ := h
  obtain ⟨hstands, hle, -⟩ := Text.least?_eq_some_iff.mp hbracket
  have hlen : bracket + 1 ≤ t.length := Text.add_length_le_of_standsAt (by decide) hstands
  exact ⟨by omega, hlen⟩

/-- An opening tag has a closing bracket at its end only. -/
theorem brackets_of_openingTagStop? (hname : name.all Char.isAlphanum)
    (h : openingTagStop? t name q = some e) :
    t[e - 1]? = some '>' ∧ ∀ i, q ≤ i → i + 1 < e → t[i]? ≠ some '>' := by
  simp only [openingTagStop?, Option.ite_none_right_eq_some, Option.map_eq_some_iff,
    Bool.and_eq_true] at h
  obtain ⟨⟨⟨hopen, hspelled⟩, -⟩, bracket, hbracket, rfl⟩ := h
  obtain ⟨hstands, -, -, hbefore⟩ := Text.least?_eq_some_iff.mp hbracket
  rw [Text.standsAt_bracket] at hstands
  obtain ⟨c, hc, heq⟩ := (Option.any_eq_true _ _).mp hstands
  refine ⟨hc.trans (congrArg some (beq_iff_eq.mp heq)), fun i hlo hhi hi => ?_⟩
  by_cases hstart : i = q
  · rw [show "<".toList = ['<'] from rfl, Text.standsAt_singleton, ← hstart, hi] at hopen
    revert hopen
    decide
  by_cases hletter : i < q + 1 + name.length
  · have hword := Text.isWord_of_spelledAt hname hspelled (by omega) hletter
    rw [hi] at hword
    revert hword
    decide
  · have hnone := hbefore i (by omega) (by omega)
    rw [Text.standsAt_bracket, hi] at hnone
    revert hnone
    decide

/-- Two tags that start at one offset stop at one offset, whatever their names. -/
theorem openingTagStop?_unique (hname : name.all Char.isAlphanum)
    (hother : other.all Char.isAlphanum) (h : openingTagStop? t name q = some e)
    (h' : openingTagStop? t other q = some e') : e = e' := by
  obtain ⟨hbracket, hfirst⟩ := brackets_of_openingTagStop? hname h
  obtain ⟨hbracket', hfirst'⟩ := brackets_of_openingTagStop? hother h'
  have hlt := (openingTagStop?_bounds h).1
  have hlt' := (openingTagStop?_bounds h').1
  rcases Nat.lt_trichotomy e e' with hle | heq | hge
  · exact absurd hbracket (hfirst' (e - 1) (by omega) (by omega))
  · exact heq
  · exact absurd hbracket' (hfirst (e' - 1) (by omega) (by omega))

end Brackets

section Names

variable {t : Text} {names : List Text} {q e : ℕ}

theorem tagStop?_cons (t name : Text) (names : List Text) (q : ℕ) :
    tagStop? t (name :: names) q = (openingTagStop? t name q).or (tagStop? t names q) := by
  rw [tagStop?, List.findSome?_cons]
  cases openingTagStop? t name q <;> rfl

theorem exists_name_of_tagStop? (h : tagStop? t names q = some e) :
    ∃ name ∈ names, openingTagStop? t name q = some e :=
  List.exists_of_findSome?_eq_some h

/-- Every name that can be read where a tag starts gives its end. -/
theorem tagStop?_eq_some_iff (hnames : ∀ name ∈ names, name.all Char.isAlphanum) :
    tagStop? t names q = some e ↔ ∃ name ∈ names, openingTagStop? t name q = some e := by
  refine ⟨exists_name_of_tagStop?, ?_⟩
  rintro ⟨name, hname, hstop⟩
  have hsome : (tagStop? t names q).isSome :=
    List.findSome?_isSome_iff.mpr ⟨name, hname, by rw [hstop]; rfl⟩
  obtain ⟨e', he'⟩ := Option.isSome_iff_exists.mp hsome
  obtain ⟨other, hother, hstop'⟩ := exists_name_of_tagStop? he'
  rw [he', openingTagStop?_unique (hnames name hname) (hnames other hother) hstop hstop']

/-- The opening tags of some names. -/
def tags (t : Text) (names : List Text) : Occurrences t where
  stop? := tagStop? t names
  lt_stop h := by
    obtain ⟨name, -, hstop⟩ := exists_name_of_tagStop? h
    exact Nat.lt_of_succ_lt (openingTagStop?_bounds hstop).1
  stop_le h := by
    obtain ⟨name, -, hstop⟩ := exists_name_of_tagStop? h
    exact (openingTagStop?_bounds hstop).2

end Names

end Markup

namespace Pattern

open Cursor Markup

/-- Behind its opening bracket, a tag is a name that ends and what follows up to the first closing
bracket. -/
theorem run_openingTag_place {name : String} (hname : IsName name) {t : Text} {q : ℕ}
    (hopen : t.standsAt "<".toList q) (held : Text) :
    ((word name).run (place t (q + 1) held) fun there => wordEdge.run there fun there =>
        restOfTag.run there some) =
      (openingTagStop? t name.toList q).map (place t · held) := by
  rw [run_word_place, openingTagStop?, hopen]
  cases hspelled : t.spelledAt name.toList (q + 1) with
  | false => rfl
  | true =>
      -- at the end of the text the word ends as well, but then no bracket follows
      have hbefore := Text.isWord_before_of_spelledAt hname.1 hname.2 hspelled
      rw [if_pos rfl, run_wordEdge_place hbefore, run_restOfTag_place]
      cases hget : t[q + 1 + name.toList.length]? with
      | none =>
          rw [Text.least?_bracket_of_none hget]
          rfl
      | some c =>
          cases hc : Text.isWord c <;>
            cases t.least? (q + 1 + name.toList.length) (t.standsAt ">".toList) <;> simp [hc]

section Tags

variable {names : List String} (hne : names ≠ []) (hnames : ∀ name ∈ names, IsName name)

include hne hnames

theorem run_names_place {t : Text} {q : ℕ} (hopen : t.standsAt "<".toList q) (held : Text) :
    ((anyOf (names.map word)).run (place t (q + 1) held) fun there => wordEdge.run there
        fun there => restOfTag.run there some) =
      (tagStop? t (names.map String.toList) q).map (place t · held) := by
  induction names with
  | nil => exact absurd rfl hne
  | cons name names ih =>
      obtain ⟨hname, hnames⟩ := List.forall_mem_cons.mp hnames
      have hfirst := run_openingTag_place hname hopen held
      rw [List.map_cons, List.map_cons, tagStop?_cons, Option.map_or, ← hfirst]
      cases names with
      | nil => exact Option.or_none.symm
      | cons name' names =>
          rw [← ih (by simp) hnames]
          exact run_orElse (word name) _ _ _

theorem run_tags_place (t : Text) (q : ℕ) (held : Text) :
    (tag names).run (place t q held) some =
      (tagStop? t (names.map String.toList) q).map (place t · held) := by
  have hrun : (tag names).run (place t q held) some = (word "<").run (place t q held) fun there =>
      (anyOf (names.map word)).run there fun there => wordEdge.run there fun there =>
        restOfTag.run there some := rfl
  rw [hrun, run_word_of_isMark (by decide)]
  cases hopen : t.standsAt "<".toList q with
  | true => exact run_names_place hne hnames hopen held
  | false =>
      have hnone : tagStop? t (names.map String.toList) q = none :=
        List.findSome?_eq_none_iff.mpr fun name _ => by rw [openingTagStop?, hopen]; rfl
      rw [hnone]
      rfl

theorem all_tags_eq_scan (t : Text) :
    ((tag names).all t).map (fun m => (m.start, m.stop)) =
      (tags t (names.map String.toList)).scan 0 :=
  all_eq_scan_of_run (tags t _) fun q => run_tags_place hne hnames t q []

/-- What is found is an opening tag of one of the names. -/
theorem exists_name_of_mem_tags {t : Text} {m : Match} (h : m ∈ (tag names).all t) :
    ∃ name ∈ names, openingTagStop? t name.toList m.start = some m.stop := by
  obtain ⟨_, hread, hstop⟩ := exists_name_of_tagStop?
    (stop?_of_mem_all (tags t _) (fun q => run_tags_place hne hnames t q []) h)
  obtain ⟨name, hname, rfl⟩ := List.mem_map.mp hread
  exact ⟨name, hname, hstop⟩

/-- What is found ends with its only closing bracket. -/
theorem exists_body_of_mem_tags {t : Text} {m : Match} (h : m ∈ (tag names).all t) :
    ∃ body, m.text = body ++ ['>'] ∧ '>' ∉ body := by
  obtain ⟨name, hname, hstop⟩ := exists_name_of_mem_tags hne hnames h
  obtain ⟨hbracket, hfirst⟩ := brackets_of_openingTagStop? (hnames name hname).2 hstop
  have hlt := (openingTagStop?_bounds hstop).1
  rw [(inText_all h).text_eq]
  exact Text.exists_slice_bracket (by omega) hbracket hfirst

/-- A tag of one of the names is found, or it starts inside one that is. -/
theorem exists_mem_tags_of_stop {t : Text} {name : String} (hname : name ∈ names) {q e : ℕ}
    (h : openingTagStop? t name.toList q = some e) :
    (∃ m ∈ (tag names).all t, m.start = q ∧ m.stop = e) ∨
      ∃ m ∈ (tag names).all t, m.start < q ∧ q < m.stop := by
  have hplain : ∀ name ∈ names.map String.toList, name.all Char.isAlphanum :=
    List.forall_mem_map.mpr fun name hname => (hnames name hname).2
  have hstop : (tags t (names.map String.toList)).stop? q = some e :=
    (tagStop?_eq_some_iff hplain).mpr ⟨_, List.mem_map_of_mem hname, h⟩
  obtain ⟨r, hr, hle, hlt⟩ := (tags t _).exists_mem_scan (Nat.zero_le q) hstop
  have hfound := ((tags t _).mem_scan hr).2
  rw [← all_tags_eq_scan hne hnames] at hr
  obtain ⟨m, hm, rfl⟩ := List.mem_map.mp hr
  rcases hle.lt_or_eq with hbefore | heq
  · exact .inr ⟨m, hm, hbefore, hlt⟩
  · rw [heq, hstop] at hfound
    exact .inl ⟨m, hm, heq, (Option.some.inj hfound).symm⟩

/-- The pattern of opening tags finds what a scanner finds that looks for the least place where a
bracket and one of the names open a tag, and goes on behind the closing bracket. What is found has
one closing bracket, at its end, and a tag is passed over only if it starts inside an earlier
one. -/
theorem all_tags_left_to_right (t : Text) :
    ((tag names).all t).map (fun m => (m.start, m.stop)) =
        (tags t (names.map String.toList)).scan 0 ∧
      (∀ m ∈ (tag names).all t, m.text = Text.slice t m.start m.stop ∧ m.text.count '>' = 1 ∧
        m.text.getLast? = some '>') ∧
      ∀ name ∈ names, ∀ q e, openingTagStop? t name.toList q = some e →
        (∃ m ∈ (tag names).all t, m.start = q ∧ m.stop = e) ∨
          ∃ m ∈ (tag names).all t, m.start < q ∧ q < m.stop := by
  refine ⟨all_tags_eq_scan hne hnames t, fun m hm => ⟨(inText_all hm).text_eq, ?_⟩,
    fun name hname q e => exists_mem_tags_of_stop hne hnames hname⟩
  obtain ⟨body, hbody, hnone⟩ := exists_body_of_mem_tags hne hnames hm
  simp [hbody, List.count_eq_zero.mpr hnone]

omit hne hnames in
/-- The shorter name comes first and does not end in the longer one. The last tag starts inside
another and is passed over. -/
theorem all_tags_left_to_right_nested :
    let names := ["th", "thead"]
    let t := "<THEAD x><th<th>".toList
    (∀ name ∈ names, IsName name) ∧
      ((tag names).all t).map (fun m => (m.start, m.stop)) = [(0, 9), (9, 16)] ∧
      (tags t (names.map String.toList)).scan 0 = [(0, 9), (9, 16)] ∧
      openingTagStop? t "th".toList 12 = some 16 ∧
      ∃ m ∈ (tag names).all t, m.start < 12 ∧ 12 < m.stop := by
  intro names t
  have hnames : ∀ name ∈ names, IsName name := by decide
  have hfound : ((tag names).all t).map (fun m => (m.start, m.stop)) = [(0, 9), (9, 16)] := by
    decide +kernel
  have hstop : openingTagStop? t "th".toList 12 = some 16 := by decide +kernel
  obtain ⟨hscan, -, htaken⟩ := all_tags_left_to_right (List.cons_ne_nil _ _) hnames t
  refine ⟨hnames, hfound, hscan.symm.trans hfound, hstop, ?_⟩
  refine (htaken "th" (by decide) 12 16 hstop).resolve_left ?_
  rintro ⟨m, hm, hstart, -⟩
  have hmem := List.mem_map_of_mem (f := fun m : Match => (m.start, m.stop)) hm
  rw [hfound, hstart] at hmem
  simp at hmem

end Tags

end Pattern

end MarkupAudit
