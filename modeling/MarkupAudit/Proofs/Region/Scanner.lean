import MarkupAudit.Proofs.Markup.Equations
import MarkupAudit.Region

/-! # The regions that a left-to-right scanner finds

The three patterns of regions, with their shortest runs and their ways out at the end of the text,
stop where a scanner stops that only looks for the first end of what it has found. -/

namespace MarkupAudit.Region

open Pattern Cursor

/-! ## Comments -/

/-- Where the end of a comment that starts at an offset stops. -/
def commentEndStop? (t : Text) (q : ℕ) : Option ℕ :=
  if t.standsAt "-->".toList q then some (q + 3) else none

theorem commentEndStop?_bounds {t : Text} {q e : ℕ} (h : commentEndStop? t q = some e) :
    q < e ∧ e ≤ t.length := by
  obtain ⟨hend, he⟩ := Option.ite_none_right_eq_some.mp h
  obtain rfl := Option.some.inj he
  exact ⟨by omega, Text.add_length_le_of_standsAt (by decide) hend⟩

/-- The ends of comments. -/
def commentEnds (t : Text) : Occurrences t where
  stop? := commentEndStop? t
  lt_stop h := (commentEndStop?_bounds h).1
  stop_le h := (commentEndStop?_bounds h).2

/-- Where a comment that starts at an offset stops. -/
def commentStop (t : Text) (q : ℕ) : ℕ :=
  if t.standsAt "<!-->".toList q then q + 5
  else if t.standsAt "<!--->".toList q then q + 6
  else (commentEnds t).stopFrom (q + 4)

theorem commentStop_bounds {t : Text} {q : ℕ} (h : t.standsAt "<!--".toList q) :
    q < commentStop t q ∧ commentStop t q ≤ t.length := by
  have hlen : q + 4 ≤ t.length := Text.add_length_le_of_standsAt (by decide) h
  unfold commentStop
  split
  · next habrupt => exact ⟨by omega, Text.add_length_le_of_standsAt (by decide) habrupt⟩
  · split
    · next habrupt => exact ⟨by omega, Text.add_length_le_of_standsAt (by decide) habrupt⟩
    · have hbounds := (commentEnds t).stopFrom_bounds hlen
      omega

theorem run_comment_place (t : Text) (q : ℕ) (held : Text) :
    comment.run (place t q held) some =
      if t.standsAt "<!--".toList q then some (place t (commentStop t q) held) else none := by
  have hends : ∀ k, (exactly "-->".toList).run (place t k held) some =
      ((commentEnds t).stop? k).map (place t · held) := by
    intro k
    simp only [run_exactly_place, commentEnds, commentEndStop?]
    by_cases hend : t.standsAt "-->".toList k
    · rw [if_pos hend, if_pos hend]
      rfl
    · rw [if_neg hend, if_neg hend]
      rfl
  rw [comment, run_append, run_exactly_place]
  by_cases hopen : t.standsAt "<!--".toList q
  · have hlen : q + 4 ≤ t.length := Text.add_length_le_of_standsAt (by decide) hopen
    have hshort : t.standsAt "<!-->".toList q = t.standsAt ">".toList (q + 4) := by
      rw [show "<!-->".toList = "<!--".toList ++ ">".toList from rfl, Text.standsAt_append, hopen]
      rfl
    have hlong : t.standsAt "<!--->".toList q = t.standsAt "->".toList (q + 4) := by
      rw [show "<!--->".toList = "<!--".toList ++ "->".toList from rfl, Text.standsAt_append,
        hopen]
      rfl
    rw [if_pos hopen, if_pos hopen, show q + "<!--".toList.length = q + 4 from rfl, run_orElse,
      run_orElse, run_append, run_exactly_place, run_exactly_place,
      run_shortest_orElse_textEnd (commentEnds t) hends hlen, commentStop, hshort, hlong]
    by_cases hbracket : t.standsAt ">".toList (q + 4)
    · have hdash : ¬t.standsAt "->".toList (q + 4) := Text.not_standsAt_dash hbracket
      rw [if_neg hdash, if_pos hbracket, if_pos hbracket]
      rfl
    · rw [if_neg hbracket, if_neg hbracket]
      split <;> rfl
  · rw [if_neg hopen, if_neg hopen]

/-! ## Elements -/

/-- Where an element of the name that starts at an offset stops. Its opening tag must have a closing
bracket. -/
def elementStop? (t name : Text) (q : ℕ) : Option ℕ :=
  let nameStop := q + 1 + name.length
  if t.standsAt "<".toList q && t.spelledAt name (q + 1) && t[nameStop]?.any (!Text.isWord ·) then
    (t.least? nameStop (t.standsAt ">".toList)).map fun bracket =>
      (Markup.closingTags t name).stopFrom (bracket + 1)
  else none

theorem elementStop?_bounds {t name : Text} {q e : ℕ} (h : elementStop? t name q = some e) :
    q < e ∧ e ≤ t.length := by
  simp only [elementStop?, Option.ite_none_right_eq_some, Option.map_eq_some_iff] at h
  obtain ⟨-, bracket, hbracket, rfl⟩ := h
  obtain ⟨hstands, hle, -⟩ := Text.least?_eq_some_iff.mp hbracket
  have hlen : bracket + 1 ≤ t.length := Text.add_length_le_of_standsAt (by decide) hstands
  have hbounds := (Markup.closingTags t name).stopFrom_bounds hlen
  omega

/-- Behind its name, an element reaches to its first closing tag behind the closing bracket of its
opening tag. -/
theorem run_restOfElement_place (name : String) (t : Text) (q : ℕ) (held : Text) :
    restOfTag.run (place t q held) (fun there =>
        (shortest fun _ => true).run there fun there =>
          (closingTag (word name) <|> textEnd).run there some) =
      ((t.least? q (t.standsAt ">".toList)).map fun bracket =>
        (Markup.closingTags t name.toList).stopFrom (bracket + 1)).map (place t · held) := by
  have hclosing : ∀ k, (closingTag (word name)).run (place t k held) some =
      ((Markup.closingTags t name.toList).stop? k).map (place t · held) := by
    intro k
    rw [run_closingTag_place, Option.map_eq_bind]
    rfl
  rw [run_restOfTag_place]
  cases hbracket : t.least? q (t.standsAt ">".toList) with
  | none => rfl
  | some bracket =>
      have hstands := (Text.least?_eq_some_iff.mp hbracket).1
      have hlen : bracket + 1 ≤ t.length := Text.add_length_le_of_standsAt (by decide) hstands
      exact run_shortest_orElse_textEnd (Markup.closingTags t name.toList) hclosing hlen

theorem run_element_place {name : String} (hne : name.toList ≠ [])
    (hname : name.toList.all Char.isAlphanum) (t : Text) (q : ℕ) (held : Text) :
    (element name).run (place t q held) some =
      (elementStop? t name.toList q).map (place t · held) := by
  simp only [element, run_append]
  rw [run_word_of_isMark (by decide), run_word_place, elementStop?,
    show q + "<".toList.length = q + 1 from rfl]
  cases t.standsAt "<".toList q with
  | false => rfl
  | true =>
      cases hspelled : t.spelledAt name.toList (q + 1) with
      | false => rfl
      | true =>
          -- at the end of the text the word ends as well, but then no bracket follows
          have hbefore := Text.isWord_before_of_spelledAt hne hname hspelled
          rw [if_pos rfl, if_pos rfl, run_wordEdge_place hbefore, run_restOfElement_place]
          cases hget : t[q + 1 + name.toList.length]? with
          | none =>
              rw [Text.least?_bracket_of_none hget]
              rfl
          | some c => cases hc : Text.isWord c <;> simp [hc]

/-! ## The scanner -/

/-- Where the region that starts at an offset stops. -/
def stopAt? (t : Text) (q : ℕ) : Option ℕ :=
  if t.standsAt "<!--".toList q then some (commentStop t q)
  else (elementStop? t "script".toList q).or (elementStop? t "style".toList q)

theorem stopAt?_bounds {t : Text} {q e : ℕ} (h : stopAt? t q = some e) :
    q < e ∧ e ≤ t.length := by
  unfold stopAt? at h
  split at h
  · next hopen =>
      obtain rfl := Option.some.inj h
      exact commentStop_bounds hopen
  · rcases Option.or_eq_some_iff.mp h with hscript | ⟨-, hstyle⟩
    · exact elementStop?_bounds hscript
    · exact elementStop?_bounds hstyle

/-- The regions by the offsets at which they may start. -/
def occurrences (t : Text) : Occurrences t where
  stop? := stopAt? t
  lt_stop h := (stopAt?_bounds h).1
  stop_le h := (stopAt?_bounds h).2

theorem run_pattern_place (t : Text) (q : ℕ) (held : Text) :
    pattern.run (place t q held) some = (stopAt? t q).map (place t · held) := by
  rw [pattern, run_orElse, run_orElse, run_comment_place,
    run_element_place (by decide) (by decide), run_element_place (by decide) (by decide), stopAt?]
  by_cases hopen : t.standsAt "<!--".toList q
  · rw [if_pos hopen, if_pos hopen]
    rfl
  · rw [if_neg hopen, if_neg hopen, Option.none_or, Option.map_or]

theorem all_eq_occurrences_scan (t : Text) : all t = (occurrences t).scan 0 := by
  apply all_eq_scan
  intro q _
  rw [matchAt?, run_pattern_place, Option.map_map, Option.map_map]
  exact Option.map_id_apply

theorem bounds_of_mem_all {t : Text} {r : ℕ × ℕ} (h : r ∈ all t) :
    r.1 < r.2 ∧ r.2 ≤ t.length := by
  rw [all_eq_occurrences_scan] at h
  exact stopAt?_bounds ((occurrences t).mem_scan h).2

theorem all_pairwise (t : Text) : (all t).Pairwise fun r s => r.2 ≤ s.1 := by
  rw [all_eq_occurrences_scan]
  exact (occurrences t).scan_pairwise 0

/-- The regions are what a scanner finds that goes on behind each region. They have characters, lie
in the text and do not overlap. -/
theorem all_left_to_right (t : Text) :
    all t = (occurrences t).scan 0 ∧
      (∀ r ∈ all t, r.1 < r.2 ∧ r.2 ≤ t.length) ∧
      (all t).Pairwise fun r s => r.2 ≤ s.1 :=
  ⟨all_eq_occurrences_scan t, fun _ h => bounds_of_mem_all h, all_pairwise t⟩

end MarkupAudit.Region
