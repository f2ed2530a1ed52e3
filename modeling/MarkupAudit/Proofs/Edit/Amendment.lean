import MarkupAudit.Proofs.Edit.Substitution
import MarkupAudit.Proofs.Markup.Relayout

/-! # Edits that amend tags

An edit that amends the tag at its start and keeps what follows the tag changes one piece of a
layout. Separated edits of this kind give the layout with these tags amended. -/

namespace MarkupAudit

namespace Text

theorem slice_append (t : Text) {a m n : ℕ} (ham : a ≤ m) (hmn : m ≤ n) :
    slice t a m ++ slice t m n = slice t a n := by
  have hm : (t.drop a).drop (m - a) = t.drop m := by
    rw [List.drop_drop, Nat.add_sub_cancel' ham]
  have hn : n - a = (m - a) + (n - m) := by omega
  rw [slice_natCast, slice_natCast, slice_natCast, List.drop_take, List.drop_take, List.drop_take,
    hn, List.take_add, hm]

theorem slice_append_drop (t : Text) {a m : ℕ} (ham : a ≤ m) :
    slice t a m ++ t.drop m = t.drop a := by
  have hm : (t.drop a).drop (m - a) = t.drop m := by
    rw [List.drop_drop, Nat.add_sub_cancel' ham]
  rw [slice_natCast, List.drop_take, ← hm, List.take_append_drop]

theorem slice_of_standsAt {t part : Text} {q : ℕ} (h : t.standsAt part q) :
    slice t q (q + part.length : ℕ) = part := by
  obtain ⟨r, hr⟩ := List.isPrefixOf_iff_prefix.mp h
  rw [slice_natCast, List.drop_take, ← hr, Nat.add_sub_cancel_left, List.take_left]

end Text

namespace Markup

/-! ## The tag at the start of a text -/

/-- The tag that a text starts with; of another text, the part up to the next bracket, with
brackets. -/
def Tag.read (t : Text) : Tag where
  body := (t.drop 1).takeWhile fun c => c != '<' && c != '>'
  opening_notMem hmem := by simpa using List.mem_takeWhile_imp hmem
  closing_notMem hmem := by simpa using List.mem_takeWhile_imp hmem

theorem Tag.read_append (u : Tag) (r : Text) : Tag.read (u.text ++ r) = u := by
  obtain ⟨body, hopen, hclose⟩ := u
  have hpass : ∀ c ∈ body, (c != '<' && c != '>') = true := by
    intro c hc
    rw [Bool.and_eq_true, bne_iff_ne, bne_iff_ne]
    exact ⟨fun heq => hopen (heq ▸ hc), fun heq => hclose (heq ▸ hc)⟩
  simp [read, text, List.takeWhile_append_of_pos hpass]

theorem Tag.eq_of_standsAt {t : Text} {q : ℕ} {u v : Tag} (hu : t.standsAt u.text q)
    (hv : t.standsAt v.text q) : u = v := by
  obtain ⟨r, hr⟩ := List.isPrefixOf_iff_prefix.mp hu
  obtain ⟨s, hs⟩ := List.isPrefixOf_iff_prefix.mp hv
  rw [← u.read_append r, hr, ← hs, v.read_append]

theorem Tag.getElem?_of_standsAt {t : Text} {q : ℕ} {u : Tag} (hu : t.standsAt u.text q) :
    t[q]? = some '<' :=
  Text.getElem?_of_standsAt (k := 0) hu (by simp)

/-- An opening bracket from a piece on starts this piece, which is then a tag, or stands behind
it. -/
theorem Layout.isTag_or_le {d : Layout} {before after : List Piece} {x : Piece}
    (hpieces : d.pieces = before ++ x :: after) {q : ℕ} (hopen : d.text[q]? = some '<')
    (hq : (render before).length ≤ q) :
    (q = (render before).length ∧ ∃ u, x = .tag u) ∨
      (render before).length + x.text.length ≤ q := by
  obtain ⟨i, rfl⟩ := Nat.exists_eq_add_of_le hq
  by_cases hi : i < x.text.length
  · rw [getElem?_piece hpieces hi] at hopen
    cases x with
    | plain t ht => exact absurd (List.mem_of_getElem? hopen) ht
    | tag u =>
        cases i with
        | zero => exact .inl ⟨rfl, u, rfl⟩
        | succ i => exact absurd hopen (u.getElem?_succ_ne i)
  · exact .inr (by omega)

/-- Where a tag stands, pieces are left. -/
theorem Layout.lt_of_standsAt (d : Layout) {q : ℕ} {u : Tag} (hu : d.text.standsAt u.text q) :
    q < (render d.pieces).length := by
  by_contra hge
  obtain ⟨r, hr⟩ := List.isPrefixOf_iff_prefix.mp hu
  rw [d.drop_of_le (Nat.le_of_not_lt hge)] at hr
  have hmem : '>' ∈ d.tail.drop (q - (render d.pieces).length) := by
    rw [← hr]
    simp [Tag.text]
  exact d.closing_notMem (List.mem_of_mem_drop hmem)

end Markup

namespace Edit

open Markup

/-- From a place before all parts on, what stands before a later such place is kept. -/
theorem substitution_eq_append {t : Text} {cursor place : ℕ} {edits : List Edit}
    (hle : cursor ≤ place) (h : ∀ e ∈ edits, place ≤ e.start) :
    substitution t cursor edits = Text.slice t cursor place ++ substitution t place edits := by
  cases edits with
  | nil => exact (Text.slice_append_drop t hle).symm
  | cons e edits =>
      rw [substitution, substitution, ← Text.slice_append t hle (h e (by simp))]
      simp only [List.append_assoc]

/-! ## Amending one tag -/

/-- The edit amends a tag with a plain name at its start and keeps what follows the tag. -/
structure AmendsTag (t : Text) (e : Edit) (u u' : Tag) : Prop where
  standsAt : t.standsAt u.text e.start
  hasPlainName : u.hasPlainName
  word_eq : u'.word = u.word
  le_stop : e.start + u.text.length ≤ e.stop
  newText_eq : e.newText = u'.text ++ Text.slice t (e.start + u.text.length : ℕ) e.stop

theorem AmendsTag.start_lt_stop {t : Text} {e : Edit} {u u' : Tag} (h : e.AmendsTag t u u') :
    e.start < e.stop := by
  have := h.le_stop
  rw [Tag.length_text] at this
  omega

/-- The first of separated edits that amend tags is the only one that may start at or before the
place where it starts. -/
theorem eq_of_start_le {t : Text} {e f : Edit} {edits : List Edit} {u u' : Tag}
    (h : e.AmendsTag t u u') (hseparated : (e :: edits).Pairwise fun e f => e.stop ≤ f.start)
    (hf : f ∈ e :: edits) (hle : f.start ≤ e.start) : f = e := by
  rcases List.mem_cons.mp hf with rfl | hmem
  · rfl
  · have hstop := (List.pairwise_cons.mp hseparated).1 f hmem
    have hlt := h.start_lt_stop
    omega

section Pieces

variable {d : Layout} {change : ℕ → Tag → Tag} {before after : List Piece} {edits : List Edit}

/-- A piece in which no edit starts is kept. -/
theorem substitution_past {x : Piece} (hpieces : d.pieces = before ++ x :: after)
    (hpast : ∀ e ∈ edits, (render before).length + x.text.length ≤ e.start) :
    substitution d.text (render before).length edits =
      x.text ++ substitution d.text (render (before ++ [x])).length edits := by
  have hnext : (render (before ++ [x])).length = (render before).length + x.text.length := by
    simp
  rw [substitution_eq_append (Nat.le_add_right _ _) hpast,
    Text.slice_of_standsAt (Layout.standsAt_piece hpieces), hnext]

/-- A tag at which the first edit starts is amended. -/
theorem substitution_tag {u u' : Tag} {e : Edit} (hamends : e.AmendsTag d.text u u')
    (hstart : e.start = (render before).length) (hlater : ∀ f ∈ edits, e.stop ≤ f.start) :
    substitution d.text (render before).length (e :: edits) =
      u'.text ++ substitution d.text (render (before ++ [.tag u])).length edits := by
  have hnext : (render (before ++ [.tag u])).length = e.start + u.text.length := by
    simp [Piece.text, hstart]
  have hnone : Text.slice d.text e.start e.start = [] := by
    rw [Text.slice_natCast, List.drop_take_self]
  rw [substitution, ← hstart, hnone, List.nil_append, hamends.newText_eq, List.append_assoc, hnext,
    substitution_eq_append hamends.le_stop hlater]

/-- From a piece on, separated edits that amend tags all start behind the piece, or the piece is a
tag at which the first of them starts. -/
theorem past_or_first {x : Piece} (hpieces : d.pieces = before ++ x :: after)
    (hcursor : ∀ e ∈ edits, (render before).length ≤ e.start)
    (hamends : ∀ e ∈ edits, ∃ u, e.AmendsTag d.text u (change e.start u))
    (hseparated : edits.Pairwise fun e f => e.stop ≤ f.start) :
    (∀ e ∈ edits, (render before).length + x.text.length ≤ e.start) ∨
      ∃ e rest u, edits = e :: rest ∧ x = .tag u ∧ e.start = (render before).length ∧
        e.AmendsTag d.text u (change e.start u) := by
  by_cases hpast : ∀ e ∈ edits, (render before).length + x.text.length ≤ e.start
  · exact .inl hpast
  · push Not at hpast
    obtain ⟨f, hf, hlt⟩ := hpast
    obtain ⟨v, hv⟩ := hamends f hf
    rcases Layout.isTag_or_le hpieces (Tag.getElem?_of_standsAt hv.standsAt) (hcursor f hf) with
      ⟨hstart, u, rfl⟩ | hle
    · obtain rfl := Tag.eq_of_standsAt hv.standsAt (hstart ▸ Layout.standsAt_tag hpieces)
      obtain ⟨e, rest, rfl⟩ := List.exists_cons_of_ne_nil (List.ne_nil_of_mem hf)
      obtain ⟨w, hw⟩ := hamends e (by simp)
      have hfirst : f.start ≤ e.start := hstart ▸ hcursor e (by simp)
      obtain rfl := eq_of_start_le hw hseparated hf hfirst
      exact .inr ⟨f, rest, v, rfl, rfl, hstart, hv⟩
    · omega

/-- Separated edits that amend tags put the amended tags in place of the tags. They start behind the
pieces `before`, and no other tag is changed there. -/
theorem substitution_eq_render (hpieces : d.pieces = before ++ after)
    (hcursor : ∀ e ∈ edits, (render before).length ≤ e.start)
    (hamends : ∀ e ∈ edits, ∃ u, e.AmendsTag d.text u (change e.start u))
    (hseparated : edits.Pairwise fun e f => e.stop ≤ f.start)
    (hsame : ∀ q u, (render before).length ≤ q → (∀ e ∈ edits, e.start ≠ q) → change q u = u) :
    substitution d.text (render before).length edits =
      render (amend change (render before).length after) ++ d.tail := by
  induction after generalizing before edits with
  | nil =>
      rw [List.append_nil] at hpieces
      have hnone : edits = [] := by
        rw [List.eq_nil_iff_forall_not_mem]
        intro e he
        obtain ⟨u, hu⟩ := hamends e he
        have hlt := d.lt_of_standsAt hu.standsAt
        have := hcursor e he
        rw [hpieces] at hlt
        omega
      rw [hnone, substitution, d.drop_of_le (by rw [hpieces]), hpieces, Nat.sub_self]
      rfl
  | cons x after ih =>
      have hnext : d.pieces = (before ++ [x]) ++ after := by
        rw [hpieces, List.append_assoc]
        rfl
      have hlength : (render (before ++ [x])).length = (render before).length + x.text.length := by
        simp
      rw [amend, render_cons, List.append_assoc, ← hlength]
      rcases past_or_first hpieces hcursor hamends hseparated with
        hpast | ⟨e, rest, u, rfl, rfl, hstart, hu⟩
      · have hkept : x.amend (change (render before).length) = x := by
          cases x with
          | plain t ht => rfl
          | tag u =>
              rw [Piece.amend, hsame _ u le_rfl]
              intro e he heq
              have := hpast e he
              rw [Piece.text, Tag.length_text] at this
              omega
        rw [substitution_past hpieces hpast, hkept,
          ih hnext (by rwa [hlength]) hamends hseparated fun q u hq => hsame q u (by omega)]
      · obtain ⟨hlater, hrest⟩ := List.pairwise_cons.mp hseparated
        have hbehind : ∀ f ∈ rest, (render (before ++ [.tag u])).length ≤ f.start := by
          intro f hf
          have := hlater f hf
          have := hu.le_stop
          rw [hlength, Piece.text]
          omega
        have hothers : ∀ q v, (render (before ++ [.tag u])).length ≤ q →
            (∀ f ∈ rest, f.start ≠ q) → change q v = v := by
          intro q v hq hne
          rw [hlength, Piece.text, Tag.length_text] at hq
          exact hsame q v (by omega) (List.forall_mem_cons.mpr ⟨by omega, hne⟩)
        rw [substitution_tag hu hstart hlater, hstart, Piece.amend, Piece.text,
          ih hnext hbehind (fun f hf => hamends f (List.mem_cons_of_mem _ hf)) hrest hothers]

end Pieces

/-! ## Amending all tags -/

/-- What the edits make of a tag at an offset: the tag at the start of the new text, if it keeps a
plain name. -/
def amendment (edits : List Edit) (q : ℕ) (u : Tag) : Tag :=
  match edits.find? (·.start == q) with
  | none => u
  | some e =>
    if u.hasPlainName && (Tag.read e.newText).word == u.word then Tag.read e.newText else u

theorem amended_amendment (edits : List Edit) (q : ℕ) (u : Tag) :
    u.Amended (amendment edits q u) := by
  unfold amendment
  split
  · exact .inl rfl
  · split
    · next h =>
        rw [Bool.and_eq_true, beq_iff_eq] at h
        exact .inr h
    · exact .inl rfl

theorem amendment_of_ne {edits : List Edit} {q : ℕ} (h : ∀ e ∈ edits, e.start ≠ q) (u : Tag) :
    amendment edits q u = u := by
  have hnone : edits.find? (·.start == q) = none := by simpa using h
  rw [amendment, hnone]

section Separated

variable {t : Text} {edits : List Edit}
  (hamends : ∀ e ∈ edits, ∃ u u', e.AmendsTag t u u')
  (hseparated : edits.Pairwise fun e f => e.stop ≤ f.start)

include hamends hseparated

/-- No two of the edits start at the same place. -/
theorem find?_start {e : Edit} (he : e ∈ edits) : edits.find? (·.start == e.start) = some e := by
  induction edits with
  | nil => cases he
  | cons f edits ih =>
      obtain ⟨hlater, hrest⟩ := List.pairwise_cons.mp hseparated
      obtain ⟨u, u', hu⟩ := hamends f (by simp)
      rw [List.find?_cons]
      rcases List.mem_cons.mp he with rfl | hmem
      · simp
      · have hne : (f.start == e.start) = false := by
          have := hlater e hmem
          have := hu.start_lt_stop
          rw [beq_eq_false_iff_ne]
          omega
        rw [hne]
        exact ih (fun g hg => hamends g (List.mem_cons_of_mem f hg)) hrest hmem

theorem amendment_of_mem {e : Edit} (he : e ∈ edits) {u u' : Tag} (h : e.AmendsTag t u u') :
    amendment edits e.start u = u' := by
  rw [amendment, find?_start hamends hseparated he]
  simp [h.newText_eq, Tag.read_append, h.hasPlainName, h.word_eq]

end Separated

/-- Separated edits that amend tags give the layout with these tags amended. -/
theorem substitution_eq_amend {d : Layout} {edits : List Edit}
    (hamends : ∀ e ∈ edits, ∃ u u', e.AmendsTag d.text u u')
    (hseparated : edits.Pairwise fun e f => e.stop ≤ f.start) :
    substitution d.text 0 edits = (d.amend (amendment edits)).text := by
  refine substitution_eq_render (show d.pieces = [] ++ d.pieces from rfl) (by simp) ?_ hseparated
    fun q u _ hne => amendment_of_ne hne u
  intro e he
  obtain ⟨u, u', hu⟩ := hamends e he
  exact ⟨u, (amendment_of_mem hamends hseparated he hu).symm ▸ hu⟩

end Edit

end MarkupAudit
