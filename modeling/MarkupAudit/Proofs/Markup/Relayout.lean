import MarkupAudit.Proofs.Markup.Amendment
import MarkupAudit.Proofs.Region.Layout

/-! # Layouts with amended tags

Tags that keep their names start no new regions, and what starts at a tag of the amended layout
starts at the tag that was amended, as long as it covers the same number of pieces. -/

namespace MarkupAudit

namespace Markup

/-! ## Amended tags -/

namespace Tag.Amended

variable {u u' : Tag} (h : u.Amended u')

include h

theorem word_eq : u'.word = u.word := by
  rcases h with rfl | h
  · rfl
  · exact h.2

theorem isNamed_eq (name : Text) : u'.isNamed name = u.isNamed name := by
  rw [isNamed, isNamed, h.word_eq]

/-- A tag that is not the same starts with a letter, before and after. -/
theorem eq_or_exists_body :
    u' = u ∨ ∃ c b b', c.isAlpha ∧ u.body = c :: b ∧ u'.body = c :: b' := by
  rcases h with rfl | ⟨hplain, hword⟩
  · exact .inl rfl
  · obtain ⟨c, b, hbody, halpha⟩ := exists_body_of_hasPlainName hplain
    have hplain' : u'.hasPlainName := by rwa [hasPlainName, hword]
    obtain ⟨c', b', hbody', halpha'⟩ := exists_body_of_hasPlainName hplain'
    have hwordChar : ∀ d : Char, d.isAlpha → Text.isWord d := by
      intro d hd
      have hplaind : d.toNat < 128 :=
        Text.plain_of_isAlphanum (by rw [Char.isAlphanum, hd, Bool.true_or])
      exact Text.forall_plain (P := fun d => d.isAlpha → Text.isWord d) (by decide) d hplaind hd
    rw [word, word, hbody, hbody', List.takeWhile_cons_of_pos (hwordChar c halpha),
      List.takeWhile_cons_of_pos (hwordChar c' halpha'), List.cons.injEq] at hword
    exact .inr ⟨c, b, b', halpha, hbody, hword.1 ▸ hbody'⟩

theorem opensRegion_eq : u'.opensRegion = u.opensRegion := by
  have hcomment : "!--".toList.isPrefixOf u'.body = "!--".toList.isPrefixOf u.body := by
    rcases h.eq_or_exists_body with rfl | ⟨c, b, b', halpha, hbody, hbody'⟩
    · rfl
    · have hne : ('!' == c) = false := by
        rw [beq_eq_false_iff_ne]
        rintro rfl
        revert halpha
        decide
      rw [hbody, hbody']
      simp [List.isPrefixOf, hne]
  rw [opensRegion, opensRegion, hcomment, h.isNamed_eq, h.isNamed_eq]

end Tag.Amended

/-! ## Amended layouts -/

/-- Whether a piece is a tag of which something holds. -/
def Piece.isTag (holds : Tag → Bool) : Piece → Bool
  | .plain _ _ => false
  | .tag u => holds u

/-- The piece, changed if it is a tag. -/
def Piece.amend (change : Tag → Tag) : Piece → Piece
  | .plain t h => .plain t h
  | .tag u => .tag (change u)

/-- The pieces with their tags changed, each by the offset at which it starts. -/
def amend (change : ℕ → Tag → Tag) : (offset : ℕ) → List Piece → List Piece
  | _, [] => []
  | q, x :: r => x.amend (change q) :: amend change (q + x.text.length) r

/-- The layout with its tags changed, each by the offset at which it starts. -/
def Layout.amend (d : Layout) (change : ℕ → Tag → Tag) : Layout :=
  { d with pieces := Markup.amend change 0 d.pieces }

section Amend

variable {change : ℕ → Tag → Tag}

theorem amend_append (q : ℕ) (pieces more : List Piece) :
    amend change q (pieces ++ more) =
      amend change q pieces ++ amend change (q + (render pieces).length) more := by
  induction pieces generalizing q with
  | nil => rfl
  | cons x pieces ih => simp [amend, ih, Nat.add_assoc]

theorem take_amend (q k : ℕ) (pieces : List Piece) :
    (amend change q pieces).take k = amend change q (pieces.take k) := by
  induction pieces generalizing q k with
  | nil => simp [amend]
  | cons x pieces ih =>
      cases k with
      | zero => rfl
      | succ k => simp [amend, ih]

theorem exists_of_mem_amend {q : ℕ} {pieces : List Piece} {u' : Tag}
    (h : .tag u' ∈ amend change q pieces) : ∃ u q, .tag u ∈ pieces ∧ u' = change q u := by
  induction pieces generalizing q with
  | nil => cases h
  | cons x pieces ih =>
      cases x with
      | plain t ht =>
          obtain ⟨u, k, hu, heq⟩ := ih (List.mem_of_ne_of_mem (by simp [Piece.amend]) h)
          exact ⟨u, k, List.mem_cons_of_mem _ hu, heq⟩
      | tag u =>
          rcases List.mem_cons.mp h with heq | hmem
          · exact ⟨u, q, by simp, Piece.tag.inj heq⟩
          · obtain ⟨v, k, hv, heq⟩ := ih hmem
            exact ⟨v, k, List.mem_cons_of_mem _ hv, heq⟩

variable (hchange : ∀ (q : ℕ) (u : Tag), u.Amended (change q u))

include hchange

section Same

variable {holds : Tag → Bool} (hsame : ∀ {u u' : Tag}, u.Amended u' → holds u' = holds u) (q : ℕ)
  (pieces : List Piece)

include hsame

theorem findIdx?_amend :
    (amend change q pieces).findIdx? (Piece.isTag holds) =
      pieces.findIdx? (Piece.isTag holds) := by
  induction pieces generalizing q with
  | nil => rfl
  | cons x pieces ih =>
      cases x with
      | plain t ht => simp [amend, Piece.amend, List.findIdx?_cons, Piece.isTag, ih]
      | tag u =>
          rw [amend, Piece.amend, List.findIdx?_cons, List.findIdx?_cons, ih, Piece.isTag,
            Piece.isTag, hsame (hchange q u)]

theorem any_amend :
    (amend change q pieces).any (Piece.isTag holds) = pieces.any (Piece.isTag holds) := by
  induction pieces generalizing q with
  | nil => rfl
  | cons x pieces ih =>
      cases x with
      | plain t ht => simp [amend, Piece.amend, Piece.isTag, ih]
      | tag u => simp [amend, Piece.amend, Piece.isTag, ih, hsame (hchange q u)]

end Same

/-- Amended tags start no regions. -/
theorem regions_amend {d : Layout} (h : Region.all d.text = []) :
    Region.all (d.amend change).text = [] := by
  rw [Region.all_layout_eq_nil_iff] at h ⊢
  refine ⟨?_, h.2⟩
  intro u' hu'
  obtain ⟨u, q, hu, rfl⟩ := exists_of_mem_amend hu'
  rw [(hchange q u).opensRegion_eq, h.1 u hu]

end Amend

/-! ## What starts at amended tags -/

theorem spans_tag (takes : Tag → List Piece → Option ℕ) (q : ℕ) (u : Tag) (r : List Piece) :
    spans takes 0 q (.tag u :: r) =
      ((takes u r).map fun k => (q, q + u.text.length + (render (r.take k)).length)).toList ++
        spans takes ((takes u r).getD 0) (q + u.text.length) r := by
  rw [spans]
  cases takes u r <;> rfl

/-- A part of the amended pieces starts at an amended tag. If something starts at the tag before it
is amended, that is reached among the pieces as well. The pieces start at an offset `q`, and amended
at an offset `q'`. -/
def StartsAmended (takes : Tag → List Piece → Option ℕ) (change : ℕ → Tag → Tag)
    (skip q q' : ℕ) (pieces : List Piece) (part : ℕ × ℕ) : Prop :=
  ∃ before u after k, pieces = before ++ .tag u :: after ∧
    let start := q + (render before).length
    let after' := amend change (start + u.text.length) after
    takes (change start u) after' = some k ∧
    part.1 = q' + (render (amend change q before)).length ∧
    part.2 = part.1 + (change start u).text.length + (render (after'.take k)).length ∧
    ∀ j, takes u after = some j →
      (start, start + u.text.length + (render (after.take j)).length) ∈ spans takes skip q pieces

section Starts

variable {takes : Tag → List Piece → Option ℕ} {change : ℕ → Tag → Tag} {skip q q' : ℕ}
  {pieces : List Piece} {part : ℕ × ℕ}

theorem StartsAmended.cons {x : Piece} {skip' : ℕ}
    (h : StartsAmended takes change skip' (q + x.text.length)
      (q' + (x.amend (change q)).text.length) pieces part)
    (hspans : spans takes skip' (q + x.text.length) pieces ⊆ spans takes skip q (x :: pieces)) :
    StartsAmended takes change skip q q' (x :: pieces) part := by
  obtain ⟨before, u, after, k, rfl, htakes, hstart, hstop, hreached⟩ := h
  have hoffset :
      q + (render (x :: before)).length = q + x.text.length + (render before).length := by
    rw [render_cons, List.length_append, Nat.add_assoc]
  refine ⟨x :: before, u, after, k, rfl, ?_⟩
  rw [hoffset]
  refine ⟨htakes, ?_, hstop, fun j hj => hspans (hreached j hj)⟩
  rw [hstart, amend, render_cons, List.length_append, Nat.add_assoc]

/-- What starts among the amended pieces starts at an amended tag. -/
theorem startsAmended_of_mem
    (hskip : ∀ q u r, (takes (change q u) (amend change (q + u.text.length) r)).getD 0 =
      (takes u r).getD 0)
    (h : part ∈ spans takes skip q' (amend change q pieces)) :
    StartsAmended takes change skip q q' pieces part := by
  induction pieces generalizing skip q q' with
  | nil => simp [amend, spans] at h
  | cons x pieces ih =>
      cases skip with
      | succ skip => exact (ih h).cons fun _ hpart => hpart
      | zero =>
          cases x with
          | plain t ht => exact (ih h).cons fun _ hpart => hpart
          | tag u =>
              rw [amend, Piece.amend, spans_tag, Piece.text, hskip] at h
              rcases List.mem_append.mp h with hhere | hlater
              · obtain ⟨k, hk, rfl⟩ := Option.map_eq_some_iff.mp (Option.mem_toList.mp hhere)
                refine ⟨[], u, pieces, k, rfl, hk, rfl, rfl, fun j hj => ?_⟩
                rw [spans_tag, hj]
                simp
              · refine (ih hlater).cons fun _ hpart => ?_
                rw [spans_tag]
                exact List.mem_append_right _ hpart

theorem Layout.pieces_amend {d : Layout} {before after : List Piece} {u : Tag}
    (hpieces : d.pieces = before ++ .tag u :: after) (change : ℕ → Tag → Tag) :
    (d.amend change).pieces = Markup.amend change 0 before ++
      .tag (change (render before).length u) ::
        Markup.amend change ((render before).length + u.text.length) after := by
  change Markup.amend change 0 d.pieces = _
  rw [hpieces, amend_append, Nat.zero_add]
  rfl

/-- What starts in an amended layout shows an amended tag and amended pieces behind it. -/
theorem Layout.slice_amend {d : Layout}
    (hskip : ∀ q u r, (takes (change q u) (Markup.amend change (q + u.text.length) r)).getD 0 =
      (takes u r).getD 0)
    (h : part ∈ spans takes 0 0 (d.amend change).pieces) :
    ∃ before u after k, d.pieces = before ++ .tag u :: after ∧
      let start := (render before).length
      let after' := Markup.amend change (start + u.text.length) after
      takes (change start u) after' = some k ∧
      Text.slice (d.amend change).text part.1 part.2 =
        (change start u).text ++ render (after'.take k) ∧
      ∀ j, takes u after = some j →
        (start, start + u.text.length + (render (after.take j)).length) ∈
          spans takes 0 0 d.pieces := by
  obtain ⟨before, u, after, k, hpieces, htakes, hstart, hstop, hreached⟩ :=
    startsAmended_of_mem hskip h
  simp only [Nat.zero_add] at htakes hstart hstop hreached
  refine ⟨before, u, after, k, hpieces, htakes, ?_, hreached⟩
  rw [hstop, hstart, Layout.slice_tag (Layout.pieces_amend hpieces change)]

end Starts

end Markup

end MarkupAudit
