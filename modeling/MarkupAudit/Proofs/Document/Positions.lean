import MarkupAudit.Document.Snapshot
import Mathlib.Data.List.DropRight
import Mathlib.Data.List.Induction
import Mathlib.Data.Prod.Lex

/-! # Positions of offsets

The lines that start up to an offset are the lines of the text before it. So a position is told by
the characters before the offset alone: its line counts their line feeds, and its column counts what
follows the last of them. -/

namespace MarkupAudit

/-! ## The starts of lines -/

theorem startsAfter_append (offset : ℕ) (t u : Text) :
    startsAfter offset (t ++ u) = startsAfter offset t ++ startsAfter (offset + t.length) u := by
  induction t generalizing offset with
  | nil => rfl
  | cons c t ih =>
      have hlength : offset + 1 + t.length = offset + (c :: t).length := by
        simp only [List.length_cons]
        omega
      simp only [List.cons_append, startsAfter, ih, hlength]
      split <;> rfl

theorem length_startsAfter (offset : ℕ) (t : Text) :
    (startsAfter offset t).length = t.count '\n' := by
  induction t generalizing offset with
  | nil => rfl
  | cons c t ih =>
      by_cases hc : c = '\n' <;> simp [startsAfter, hc, ih]

/-- The starts up to an offset are those in the text before it. -/
theorem takeWhile_startsAfter (offset stop : ℕ) (t : Text) :
    (startsAfter offset t).takeWhile (· ≤ stop) = startsAfter offset (t.take (stop - offset)) := by
  induction t generalizing offset with
  | nil => simp [startsAfter]
  | cons c t ih =>
      by_cases hstop : offset < stop
      · have htake : stop - offset = stop - (offset + 1) + 1 := by omega
        rw [htake, List.take_succ_cons]
        by_cases hc : c = '\n'
        · simp [startsAfter, hc, ih, Nat.succ_le_of_lt hstop]
        · simp [startsAfter, hc, ih]
      · have hnone : stop - (offset + 1) = 0 := by omega
        have hnone' : stop - offset = 0 := by omega
        by_cases hc : c = '\n'
        · rw [startsAfter, if_pos hc, hnone', List.take_zero,
            List.takeWhile_cons_of_neg (by rw [decide_eq_true_iff]; omega)]
          rfl
        · simp [startsAfter, hc, ih, hnone, hnone']

theorem takeWhile_lineStarts (t : Text) (offset : ℕ) :
    (lineStarts t).takeWhile (· ≤ offset) = lineStarts (t.take offset) := by
  simp [lineStarts, takeWhile_startsAfter]

theorem lineStarts_concat (t : Text) (c : Char) :
    lineStarts (t ++ [c]) = lineStarts t ++ if c = '\n' then [t.length + 1] else [] := by
  simp only [lineStarts, startsAfter_append, startsAfter, Nat.zero_add]
  split <;> simp

/-- Behind the start of the last line stand the characters after the last line feed. -/
theorem getLastD_lineStarts_add (t : Text) :
    (lineStarts t).getLastD 0 + (t.rtakeWhile (· != '\n')).length = t.length := by
  induction t using List.reverseRecOn with
  | nil => rfl
  | append_singleton t c ih =>
      by_cases hc : c = '\n'
      · simp [lineStarts_concat, hc]
      · simp [lineStarts_concat, hc, ← ih, Nat.add_assoc]

/-! ## Lines and columns -/

/-- Positions are ordered by line, and in a line by column. -/
def Position.key (p : Position) : ℕ ×ₗ ℕ :=
  toLex (p.line, p.column)

namespace Snapshot

variable {s : Snapshot} {q r : ℕ}

theorem position?_of_le {offset : ℕ} (h : offset ≤ s.text.length) :
    s.position? offset = .ok (s.position offset) := by
  simp [position?, h]

theorem position?_eq_error_iff {offset : ℤ} {e : OffsetError} :
    s.position? offset = .error e ↔
      (offset < 0 ∨ s.text.length < offset) ∧ e = ⟨offset, s.text.length⟩ := by
  by_cases hout : offset < 0 ∨ s.text.length < offset
  · rw [position?, if_pos (by simpa using hout), Except.error.injEq, eq_comm]
    exact (and_iff_right hout).symm
  · rw [position?, if_neg (by simpa using hout)]
    simp [hout]

theorem exists_offset_of_position? {offset : ℤ} {p : Position} (h : s.position? offset = .ok p) :
    ∃ q ≤ s.text.length, offset = q ∧ p = s.position q := by
  by_cases hout : offset < 0 ∨ s.text.length < offset
  · rw [position?_eq_error_iff.mpr ⟨hout, rfl⟩] at h
    cases h
  · obtain ⟨q, rfl⟩ := Int.eq_ofNat_of_zero_le (show 0 ≤ offset by omega)
    have hq : q ≤ s.text.length := by omega
    rw [position?_of_le hq] at h
    exact ⟨q, hq, rfl, (Except.ok.inj h).symm⟩

/-- Of a text, the position of an offset is told by what stands before it. -/
theorem position_eq (s : Snapshot) (q : ℕ) :
    s.position q = ⟨(lineStarts (s.text.take q)).length,
      q - (lineStarts (s.text.take q)).getLastD 0⟩ := by
  simp only [position, positionAmong, takeWhile_lineStarts]

theorem line_position (s : Snapshot) (q : ℕ) :
    (s.position q).line = 1 + (s.text.take q).count '\n' := by
  simp [position_eq, lineStarts, length_startsAfter, Nat.add_comm]

theorem column_position (hq : q ≤ s.text.length) :
    (s.position q).column = ((s.text.take q).rtakeWhile (· != '\n')).length := by
  have hadd := getLastD_lineStarts_add (s.text.take q)
  rw [List.length_take, min_eq_left hq] at hadd
  rw [position_eq]
  exact Nat.sub_eq_of_eq_add' hadd.symm

/-- The line of an offset starts where the last line before the offset does. -/
theorem lineStart_position (s : Snapshot) (q : ℕ) :
    (lineStarts s.text)[(s.position q).line - 1]? =
      some ((lineStarts (s.text.take q)).getLastD 0) := by
  obtain ⟨later, hlater⟩ : lineStarts (s.text.take q) <+: lineStarts s.text := by
    rw [← takeWhile_lineStarts]
    exact List.takeWhile_prefix _
  have hne : lineStarts (s.text.take q) ≠ [] := List.cons_ne_nil _ _
  have hpos := List.length_pos_iff.mpr hne
  rw [position_eq, ← hlater, List.getElem?_append_left (by simp only; omega),
    ← List.getLast?_eq_getElem?, List.getLast?_eq_some_getLast hne, List.getLastD_eq_getLast?,
    List.getLast?_eq_some_getLast hne]
  rfl

theorem exists_lineStart (hq : q ≤ s.text.length) :
    ∃ start, (lineStarts s.text)[(s.position q).line - 1]? = some start ∧
      start + (s.position q).column = q := by
  refine ⟨_, lineStart_position s q, ?_⟩
  rw [column_position hq, getLastD_lineStarts_add, List.length_take, min_eq_left hq]

/-- A later offset has a later position. -/
theorem key_position_lt (hqr : q < r) (hr : r ≤ s.text.length) :
    (s.position q).key < (s.position r).key := by
  have hline : (s.position q).line ≤ (s.position r).line := by
    rw [line_position, line_position]
    have hfront : s.text.take q <+: s.text.take r := List.take_prefix_take_left hqr.le
    exact Nat.add_le_add_left (hfront.sublist.count_le '\n') 1
  obtain ⟨start, hstart, hq⟩ := exists_lineStart (hqr.le.trans hr)
  obtain ⟨start', hstart', hr⟩ := exists_lineStart hr
  rw [Position.key, Position.key, Prod.Lex.toLex_lt_toLex]
  rcases hline.lt_or_eq with hlt | heq
  · exact .inl hlt
  · -- both columns are counted from the start of the same line
    rw [heq, hstart', Option.some.injEq] at hstart
    exact .inr ⟨heq, by simp only; omega⟩

/-- An offset has a position just if it lies in the document or at its end. Its line counts the line
feeds before it and its column the characters behind the last of them, and later offsets have later
positions. -/
theorem positions_of_offsets (s : Snapshot) :
    (∀ offset : ℤ, (∃ e, s.position? offset = .error e) ↔
      offset < 0 ∨ s.text.length < offset) ∧
    (∀ offset : ℤ, ¬(offset < 0 ∨ s.text.length < offset) →
      ∃ p start, s.position? offset = .ok p ∧
        p.line = 1 + (s.text.take offset.toNat).count '\n' ∧
        p.column = ((s.text.take offset.toNat).rtakeWhile (· != '\n')).length ∧
        (lineStarts s.text)[p.line - 1]? = some start ∧ (start + p.column : ℕ) = offset) ∧
    (∀ (offset offset' : ℤ) (p p' : Position), s.position? offset = .ok p →
      s.position? offset' = .ok p' → offset < offset' → p.key < p'.key) ∧
    ∀ (offset offset' : ℤ) (p : Position), s.position? offset = .ok p →
      s.position? offset' = .ok p → offset = offset' := by
  have hincreasing : ∀ (offset offset' : ℤ) (p p' : Position), s.position? offset = .ok p →
      s.position? offset' = .ok p' → offset < offset' → p.key < p'.key := by
    intro offset offset' p p' hp hp' hlt
    obtain ⟨q, -, rfl, rfl⟩ := exists_offset_of_position? hp
    obtain ⟨r, hr, rfl, rfl⟩ := exists_offset_of_position? hp'
    exact key_position_lt (by omega) hr
  refine ⟨fun offset => ?_, fun offset hin => ?_, hincreasing, fun offset offset' p hp hp' => ?_⟩
  · simp [position?_eq_error_iff]
  · obtain ⟨q, rfl⟩ := Int.eq_ofNat_of_zero_le (show 0 ≤ offset by omega)
    have hq : q ≤ s.text.length := by omega
    obtain ⟨start, hstart, hadd⟩ := exists_lineStart hq
    exact ⟨s.position q, start, position?_of_le hq, line_position s q, column_position hq, hstart,
      by rw [hadd]⟩
  · rcases lt_trichotomy offset offset' with hlt | heq | hgt
    · exact absurd (hincreasing _ _ _ _ hp hp' hlt) (lt_irrefl _)
    · exact heq
    · exact absurd (hincreasing _ _ _ _ hp' hp hgt) (lt_irrefl _)

/-- The end of a text that ends with a line feed is the start of a line. -/
theorem positions_of_offsets_last_line_feed :
    let s : Snapshot := { text := "a\n\nb\n".toList }
    (∃ e, s.position? 6 = .error e) ∧
      (∃ p start, s.position? 5 = .ok p ∧ p.line = 1 + 3 ∧ p.column = 0 ∧
        (lineStarts s.text)[p.line - 1]? = some start ∧ (start + p.column : ℕ) = (5 : ℤ)) ∧
      s.position? 2 = .ok ⟨2, 0⟩ ∧ s.position? 5 = .ok ⟨4, 0⟩ ∧
      (⟨2, 0⟩ : Position).key < (⟨4, 0⟩ : Position).key := by
  intro s
  obtain ⟨herror, hok, hlt, -⟩ := positions_of_offsets s
  have hstart : s.position? 2 = .ok ⟨2, 0⟩ := by decide
  have hend : s.position? 5 = .ok ⟨4, 0⟩ := by decide
  exact ⟨(herror 6).mpr (by decide), hok 5 (by decide), hstart, hend,
    hlt 2 5 _ _ hstart hend (by decide)⟩

end Snapshot

end MarkupAudit
