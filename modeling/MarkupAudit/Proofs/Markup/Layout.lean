import MarkupAudit.Proofs.Markup.Opening

/-! # Texts laid out in pieces

A text in which no opening bracket stands between an opening bracket and the next closing one is a
sequence of tags and of parts without opening brackets, perhaps with an unclosed rest. What starts
with an opening bracket and needs a closing one starts at a tag, so that a pattern of such things is
sought by going from piece to piece. -/

namespace MarkupAudit

namespace Markup

/-! ## Pieces -/

/-- A tag, or a part of a text without opening brackets. -/
inductive Piece where
  | plain (t : Text) (opening_notMem : '<' ∉ t)
  | tag (u : Tag)

/-- The characters of a piece. -/
def Piece.text : Piece → Text
  | .plain t _ => t
  | .tag u => u.text

/-- The characters of pieces in order. -/
def render (pieces : List Piece) : Text :=
  pieces.flatMap Piece.text

@[simp] theorem render_nil : render [] = [] := rfl

@[simp] theorem render_cons (x : Piece) (pieces : List Piece) :
    render (x :: pieces) = x.text ++ render pieces := rfl

@[simp] theorem render_append (pieces more : List Piece) :
    render (pieces ++ more) = render pieces ++ render more :=
  List.flatMap_append

theorem length_render_take_le (k : ℕ) (pieces : List Piece) :
    (render (pieces.take k)).length ≤ (render pieces).length := by
  have hsplit := congrArg (fun l => (render l).length) (List.take_append_drop k pieces)
  simp only [render_append, List.length_append] at hsplit
  omega

/-- A text in pieces, with a rest that no bracket closes. -/
structure Layout where
  pieces : List Piece
  tail : Text
  closing_notMem : '>' ∉ tail

/-- The text as a whole. -/
def Layout.text (d : Layout) : Text :=
  render d.pieces ++ d.tail

/-- Whether no opening bracket stands between an opening bracket and the next closing one. -/
def isTidy : Text → Bool
  | [] => true
  | c :: r =>
    (c != '<' || !r.contains '>' || !(r.takeWhile (· != '>')).contains '<') && isTidy r

theorem isTidy_append {b r : Text} (h : isTidy (b ++ r)) : isTidy r := by
  induction b with
  | nil => exact h
  | cons c b ih =>
      rw [List.cons_append, isTidy, Bool.and_eq_true] at h
      exact ih h.2

/-- A tidy text that starts with an opening bracket starts with a tag, or has no closing bracket. -/
theorem exists_tag_of_isTidy {s : Text} (h : isTidy ('<' :: s)) (hs : '>' ∈ s) :
    ∃ (u : Tag) (r : Text), '<' :: s = u.text ++ r := by
  obtain ⟨b, r, rfl, hb⟩ := List.eq_append_cons_of_mem hs
  have hpass : ∀ c ∈ b, (c != '>') = true := by
    intro c hc
    simpa using fun heq : c = '>' => hb (heq ▸ hc)
  have htake : (b ++ '>' :: r).takeWhile (· != '>') = b := by
    rw [List.takeWhile_append_of_pos hpass]
    simp
  rw [isTidy, Bool.and_eq_true, htake] at h
  have hopen : '<' ∉ b := by simpa using h.1
  exact ⟨⟨b, hopen, hb⟩, r, by simp [Tag.text]⟩

theorem exists_layout {t : Text} (h : isTidy t) : ∃ d : Layout, d.text = t := by
  by_cases hopen : '<' ∈ t
  · obtain ⟨a, s, rfl, ha⟩ := List.eq_append_cons_of_mem hopen
    have htidy := isTidy_append h
    by_cases hclose : '>' ∈ s
    · obtain ⟨u, r, hr⟩ := exists_tag_of_isTidy htidy hclose
      rw [hr] at htidy
      have hshort : r.length < (a ++ '<' :: s).length := by
        rw [hr]
        simp
        omega
      obtain ⟨d, hd⟩ := exists_layout (isTidy_append htidy)
      refine ⟨⟨.plain a ha :: .tag u :: d.pieces, d.tail, d.closing_notMem⟩, ?_⟩
      rw [hr, ← hd]
      simp [Layout.text, Piece.text]
    · refine ⟨⟨[.plain a ha], '<' :: s, by simpa using hclose⟩, ?_⟩
      simp [Layout.text, Piece.text]
  · refine ⟨⟨[.plain t hopen], [], by simp⟩, ?_⟩
    simp [Layout.text, Piece.text]
termination_by t.length

theorem Tag.isFiller_append (u : Tag) (r : Text) : Text.isFiller (u.text ++ r) = false := by
  simp [Text.isFiller, text, show Text.isBlank '<' = false by decide]

theorem Tag.getElem?_succ_ne (u : Tag) (i : ℕ) : u.text[i + 1]? ≠ some '<' := by
  intro hget
  rw [text, List.cons_append, List.getElem?_cons_succ] at hget
  have hmem := List.mem_of_getElem? hget
  simp [u.opening_notMem] at hmem

/-- An opening bracket starts a tag, or stands in the unclosed rest. -/
theorem exists_tag_or_le {pieces : List Piece} {tail : Text} {q : ℕ}
    (hopen : (render pieces ++ tail)[q]? = some '<') :
    (∃ before u after, pieces = before ++ .tag u :: after ∧ q = (render before).length) ∨
      (render pieces).length ≤ q := by
  induction pieces generalizing q with
  | nil => exact .inr (Nat.zero_le q)
  | cons x pieces ih =>
      rw [render_cons, List.append_assoc] at hopen
      by_cases hq : q < x.text.length
      · rw [List.getElem?_append_left hq] at hopen
        cases x with
        | plain t ht => exact absurd (List.mem_of_getElem? hopen) ht
        | tag u =>
            cases q with
            | zero => exact .inl ⟨[], u, pieces, rfl, rfl⟩
            | succ q => exact absurd hopen (u.getElem?_succ_ne q)
      · have hle : x.text.length ≤ q := Nat.le_of_not_lt hq
        rw [List.getElem?_append_right hle] at hopen
        obtain ⟨before, u, after, rfl, hbefore⟩ | hafter := ih hopen
        · refine .inl ⟨x :: before, u, after, rfl, ?_⟩
          rw [render_cons, List.length_append]
          omega
        · right
          rw [render_cons, List.length_append]
          omega

theorem Layout.drop_of_le (d : Layout) {q : ℕ} (hq : (render d.pieces).length ≤ q) :
    d.text.drop q = d.tail.drop (q - (render d.pieces).length) := by
  rw [text, List.drop_append, List.drop_of_length_le hq, List.nil_append]

/-- An opening bracket that is closed starts a tag. -/
theorem Layout.exists_tag (d : Layout) {q : ℕ} (hopen : d.text[q]? = some '<')
    (hclose : '>' ∈ d.text.drop q) :
    ∃ before u after, d.pieces = before ++ .tag u :: after ∧ q = (render before).length := by
  obtain htag | hle := exists_tag_or_le hopen
  · exact htag
  · rw [d.drop_of_le hle] at hclose
    exact absurd (List.mem_of_mem_drop hclose) d.closing_notMem

theorem Layout.standsAt_piece {d : Layout} {before after : List Piece} {x : Piece}
    (hpieces : d.pieces = before ++ x :: after) :
    d.text.standsAt x.text (render before).length := by
  rw [Text.standsAt, List.isPrefixOf_iff_prefix, text, hpieces, render_append, List.append_assoc,
    List.drop_left, render_cons, List.append_assoc]
  exact List.prefix_append ..

theorem Layout.standsAt_tag {d : Layout} {before after : List Piece} {u : Tag}
    (hpieces : d.pieces = before ++ .tag u :: after) :
    d.text.standsAt u.text (render before).length :=
  Layout.standsAt_piece hpieces

theorem getElem?_piece {d : Layout} {before after : List Piece} {x : Piece}
    (hpieces : d.pieces = before ++ x :: after) {i : ℕ} (hi : i < x.text.length) :
    d.text[(render before).length + i]? = x.text[i]? := by
  rw [Layout.text, hpieces, render_append, render_cons, List.append_assoc, List.append_assoc,
    List.getElem?_append_right (Nat.le_add_right _ _), Nat.add_sub_cancel_left,
    List.getElem?_append_left hi]

/-! ## Going from piece to piece -/

/-- The offsets of what starts at tags, from left to right, where `takes` gives the number of pieces
behind a tag that belong to what starts there. The next `skip` pieces belong to something else. -/
def spans (takes : Tag → List Piece → Option ℕ) : (skip offset : ℕ) → List Piece → List (ℕ × ℕ)
  | _, _, [] => []
  | skip + 1, q, x :: r => spans takes skip (q + x.text.length) r
  | 0, q, .plain t _ :: r => spans takes 0 (q + t.length) r
  | 0, q, .tag u :: r =>
    match takes u r with
    | none => spans takes 0 (q + u.text.length) r
    | some k =>
      (q, q + u.text.length + (render (r.take k)).length) ::
        spans takes k (q + u.text.length) r

theorem Layout.slice_tag {d : Layout} {before after : List Piece} {u : Tag}
    (hpieces : d.pieces = before ++ .tag u :: after) (k : ℕ) :
    Text.slice d.text (render before).length
        ((render before).length + u.text.length + (render (after.take k)).length : ℕ) =
      u.text ++ render (after.take k) := by
  have hsplit : d.text = render before ++
      ((u.text ++ render (after.take k)) ++ (render (after.drop k) ++ d.tail)) := by
    have hafter : render after = render (after.take k) ++ render (after.drop k) := by
      rw [← render_append, List.take_append_drop]
    simp [text, hpieces, Piece.text, hafter]
  rw [Text.slice_natCast, List.drop_take, hsplit, List.drop_left, List.take_left']
  rw [List.length_append]
  omega

/-- Of single tags, those are left of which something holds. -/
theorem filter_spans (takes flags : Text → Bool) {d : Layout} {before after : List Piece}
    (hpieces : d.pieces = before ++ after) :
    (spans (fun u _ => if takes u.text then some 0 else none) 0 (render before).length after).filter
        (fun part => flags (Text.slice d.text part.1 part.2)) =
      spans (fun u _ => if takes u.text && flags u.text then some 0 else none) 0
        (render before).length after := by
  induction after generalizing before with
  | nil => rfl
  | cons x after ih =>
      have hrest := ih (show d.pieces = (before ++ [x]) ++ after by simp [hpieces])
      simp only [render_append, render_cons, render_nil, List.append_nil,
        List.length_append] at hrest
      cases x with
      | plain t ht => exact hrest
      | tag u =>
          have hslice := Layout.slice_tag hpieces 0
          simp only [List.take_zero, render_nil, List.length_nil, Nat.add_zero,
            List.append_nil] at hslice
          cases htakes : takes u.text with
          | false => simpa [spans, htakes, Piece.text] using hrest
          | true =>
              cases hflags : flags u.text with
              | false =>
                  simp only [spans, htakes, hflags, if_true, Bool.and_false, Bool.false_eq_true,
                    if_false, List.take_zero, render_nil, List.length_nil, Nat.add_zero,
                    List.filter_cons, hslice]
                  exact hrest
              | true =>
                  simp only [spans, htakes, hflags, if_true, Bool.and_true, List.take_zero,
                    render_nil, List.length_nil, Nat.add_zero, List.filter_cons, hslice]
                  exact congrArg _ hrest

end Markup

namespace Occurrences

theorem scan_add {t : Text} (o : Occurrences t) {q n : ℕ}
    (h : ∀ i < n, o.stop? (q + i) = none) : o.scan q = o.scan (q + n) := by
  induction n with
  | zero => rfl
  | succ n ih =>
      rw [ih fun i hi => h i (by omega), o.scan_of_none (h n (by omega)), Nat.add_assoc]

end Occurrences

namespace Pattern

open Cursor Markup

/-- The pattern matches at tags only, and with each of them as many pieces as `takes` says. -/
structure TakesPieces (p : Pattern) (takes : Tag → List Piece → Option ℕ) : Prop where
  run_of_ne : ∀ {t q}, t[q]? ≠ some '<' → p.run (place t q []) some = none
  run_of_notMem : ∀ {t q}, '>' ∉ t.drop q → p.run (place t q []) some = none
  run_tag : ∀ {d : Layout} {before u after}, d.pieces = before ++ .tag u :: after →
    p.run (place d.text (render before).length []) some = (takes u after).map fun k =>
      place d.text ((render before).length + u.text.length + (render (after.take k)).length) []

namespace TakesPieces

variable {p : Pattern} {takes : Tag → List Piece → Option ℕ} (h : TakesPieces p takes)

include h

/-- A match starts at a tag and has the pieces that belong to it. -/
theorem exists_tag {d : Layout} {q : ℕ} {there : Cursor}
    (hrun : p.run (place d.text q []) some = some there) :
    ∃ before u after k, d.pieces = before ++ .tag u :: after ∧ q = (render before).length ∧
      takes u after = some k ∧
      there.offset = q + u.text.length + (render (after.take k)).length := by
  have hopen : d.text[q]? = some '<' := by
    by_contra hne
    rw [h.run_of_ne hne] at hrun
    cases hrun
  have hclose : '>' ∈ d.text.drop q := by
    by_contra hnone
    rw [h.run_of_notMem hnone] at hrun
    cases hrun
  obtain ⟨before, u, after, hpieces, rfl⟩ := d.exists_tag hopen hclose
  rw [h.run_tag hpieces] at hrun
  obtain ⟨k, hk, rfl⟩ := Option.map_eq_some_iff.mp hrun
  exact ⟨before, u, after, k, hpieces, rfl, hk, rfl⟩

theorem bounds {d : Layout} {q e : ℕ}
    (hstop : (p.run (place d.text q []) some).map (·.offset) = some e) :
    q < e ∧ e ≤ d.text.length := by
  obtain ⟨there, hrun, rfl⟩ := Option.map_eq_some_iff.mp hstop
  obtain ⟨before, u, after, k, hpieces, rfl, -, hoffset⟩ := h.exists_tag hrun
  have htake := length_render_take_le k after
  rw [hoffset, Layout.text, hpieces]
  simp [Piece.text]
  omega

/-- The matches of the pattern in a layout. -/
def occurrences (d : Layout) : Occurrences d.text where
  stop? q := (p.run (place d.text q []) some).map (·.offset)
  lt_stop hstop := (h.bounds hstop).1
  stop_le hstop := (h.bounds hstop).2

theorem stop?_eq_none {d : Layout} {q : ℕ}
    (hq : ∀ before u after, d.pieces = before ++ .tag u :: after → q ≠ (render before).length) :
    (h.occurrences d).stop? q = none := by
  by_contra hne
  obtain ⟨e, he⟩ := Option.ne_none_iff_exists'.mp hne
  obtain ⟨there, hrun, -⟩ := Option.map_eq_some_iff.mp he
  obtain ⟨before, u, after, -, hpieces, hbefore, -⟩ := h.exists_tag hrun
  exact hq before u after hpieces hbefore

theorem stop?_tag {d : Layout} {before after : List Piece} {u : Tag}
    (hpieces : d.pieces = before ++ .tag u :: after) :
    (h.occurrences d).stop? (render before).length = (takes u after).map fun k =>
      (render before).length + u.text.length + (render (after.take k)).length := by
  change (p.run (place d.text _ []) some).map (·.offset) = _
  rw [h.run_tag hpieces, Option.map_map]
  rfl

/-- Inside a piece nothing starts. -/
theorem stop?_inside {d : Layout} {before after : List Piece} {x : Piece}
    (hpieces : d.pieces = before ++ x :: after) {i : ℕ} (hi : i < x.text.length)
    (hinside : x.text[i]? ≠ some '<') :
    (h.occurrences d).stop? ((render before).length + i) = none := by
  rw [← getElem?_piece hpieces hi] at hinside
  change (p.run (place d.text _ []) some).map (·.offset) = _
  rw [h.run_of_ne hinside]
  rfl

theorem scan_end (d : Layout) : (h.occurrences d).scan (render d.pieces).length = [] := by
  have hnext : (h.occurrences d).next? (render d.pieces).length = none := by
    rw [Occurrences.next?_eq_none_iff]
    intro q hq _
    apply h.stop?_eq_none
    rintro before u after hpieces rfl
    rw [hpieces, render_append, render_cons, Piece.text, List.length_append, List.length_append,
      Tag.length_text] at hq
    omega
  rw [Occurrences.scan_eq, hnext]

/-- The scanner goes from piece to piece. -/
theorem scan_eq_spans (d : Layout) (skip : ℕ) (before after : List Piece)
    (hpieces : d.pieces = before ++ after) :
    (h.occurrences d).scan (render (before ++ after.take skip)).length =
      spans takes skip (render before).length after := by
  induction after generalizing before skip with
  | nil => simpa [hpieces, spans] using h.scan_end d
  | cons x after ih =>
      have hnext : d.pieces = (before ++ [x]) ++ after := by
        rw [hpieces, List.append_assoc]
        rfl
      cases skip with
      | succ skip => simpa [spans] using ih skip (before ++ [x]) hnext
      | zero =>
          have hrest := ih 0 (before ++ [x]) hnext
          simp only [List.take_zero, List.append_nil, render_append, render_cons, render_nil,
            List.length_append] at hrest ⊢
          cases x with
          | plain t ht =>
              rw [spans]
              refine (Occurrences.scan_add _ fun i hi => ?_).trans hrest
              exact h.stop?_inside hpieces hi fun hget => ht (List.mem_of_getElem? hget)
          | tag u =>
              have hstop := h.stop?_tag hpieces
              rw [spans]
              cases htakes : takes u after with
              | none =>
                  rw [htakes, Option.map_none] at hstop
                  refine (Occurrences.scan_add _ fun i hi => ?_).trans hrest
                  cases i with
                  | zero => exact hstop
                  | succ i => exact h.stop?_inside hpieces hi (u.getElem?_succ_ne i)
              | some k =>
                  rw [htakes, Option.map_some] at hstop
                  have htaken := ih k (before ++ [.tag u]) hnext
                  rw [Occurrences.scan_of_some _ hstop]
                  simpa [Piece.text, Nat.add_assoc] using htaken

/-- What is found by going from piece to piece starts at a tag and has the pieces that belong to
it. -/
theorem exists_tag_of_mem {d : Layout} {part : ℕ × ℕ} (hpart : part ∈ spans takes 0 0 d.pieces) :
    ∃ before u after k, d.pieces = before ++ .tag u :: after ∧ takes u after = some k ∧
      part = ((render before).length,
        (render before).length + u.text.length + (render (after.take k)).length) := by
  have hscan := h.scan_eq_spans d 0 [] d.pieces rfl
  obtain ⟨-, hstop⟩ := Occurrences.mem_scan _ (hscan.symm ▸ hpart)
  obtain ⟨there, hrun, hoffset⟩ := Option.map_eq_some_iff.mp hstop
  obtain ⟨before, u, after, k, hpieces, hstart, hk, hthere⟩ := h.exists_tag hrun
  refine ⟨before, u, after, k, hpieces, hk, Prod.ext hstart ?_⟩
  rw [← hoffset, hthere, hstart]

/-- The matches of the pattern, found by going from piece to piece. -/
theorem all_eq_spans (d : Layout) :
    (p.all d.text).map (fun m => (m.start, m.stop)) = spans takes 0 0 d.pieces := by
  have hscan := h.scan_eq_spans d 0 [] d.pieces rfl
  rw [all_eq_scan (h.occurrences d)]
  · simpa using hscan
  · intro q _
    rw [matchAt?, Option.map_map]
    rfl

end TakesPieces

/-- A pattern of tags takes single tags. -/
theorem OpensTag.takesPieces {p inner : Pattern} (h : OpensTag p inner) :
    TakesPieces p fun u _ => if p.startsIn u.text then some 0 else none where
  run_of_ne hq := h.run_of_ne hq some
  run_of_notMem hq := h.run_of_notMem hq some
  run_tag {d before u after} hpieces := by
    rw [h.run_tag (Layout.standsAt_tag hpieces)]
    cases p.startsIn u.text <;> rfl

end Pattern

end MarkupAudit
