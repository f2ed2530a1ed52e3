import MarkupAudit.Document.Snapshot
import MarkupAudit.Proofs.Region.Scanner

/-! # What blanking keeps

Blanking replaces characters one by one, and none of them is a line break. So a blanked text has its
length, its lines, and the positions of its offsets from the text. -/

namespace MarkupAudit

/-- The lines depend only on where line feeds stand. -/
theorem startsAfter_mapIdx {shown : ℕ → Char → Char}
    (hshown : ∀ i c, shown i c = '\n' ↔ c = '\n') (offset : ℕ) (t : Text) :
    startsAfter offset (t.mapIdx shown) = startsAfter offset t := by
  induction t generalizing offset shown with
  | nil => rfl
  | cons c t ih =>
      rw [List.mapIdx_cons, startsAfter, startsAfter, ih fun i => hshown (i + 1)]
      simp only [hshown]

namespace Region

/-- Whether an offset lies in one of the regions. -/
def Covers (regions : List (ℕ × ℕ)) (i : ℕ) : Prop :=
  ∃ r ∈ regions, r.1 ≤ i ∧ i < r.2

instance (regions : List (ℕ × ℕ)) (i : ℕ) : Decidable (Covers regions i) :=
  inferInstanceAs (Decidable (∃ r ∈ regions, r.1 ≤ i ∧ i < r.2))

/-- What stands for a character at an offset: itself outside the regions or if it breaks a line, and
otherwise a space. -/
def shownAt (regions : List (ℕ × ℕ)) (i : ℕ) (c : Char) : Char :=
  if ¬Covers regions i ∨ c = '\r' ∨ c = '\n' then c else ' '

theorem shownAt_of_not_covers {regions : List (ℕ × ℕ)} {i : ℕ} (h : ¬Covers regions i) (c : Char) :
    shownAt regions i c = c :=
  if_pos (.inl h)

theorem shownAt_of_covers {regions : List (ℕ × ℕ)} {i : ℕ} (h : Covers regions i) (c : Char) :
    shownAt regions i c = blanked c := by
  simp only [shownAt, blanked, h, not_true, false_or, Bool.or_eq_true, decide_eq_true_eq,
    or_comm]

theorem covers_cons {r : ℕ × ℕ} {regions : List (ℕ × ℕ)} {i : ℕ} :
    Covers (r :: regions) i ↔ (r.1 ≤ i ∧ i < r.2) ∨ Covers regions i := by
  simp [Covers]

theorem shownAt_cons_of_le {r : ℕ × ℕ} {regions : List (ℕ × ℕ)} {i : ℕ} (h : r.2 ≤ i) :
    shownAt (r :: regions) i = shownAt regions i := by
  have hcovers : Covers (r :: regions) i ↔ Covers regions i := by
    rw [covers_cons, or_iff_right (by omega)]
  funext c
  simp only [shownAt, hcovers]

/-! ## Character by character -/

/-- Regions from left to right between two offsets. -/
structure Ordered (regions : List (ℕ × ℕ)) (lo hi : ℕ) : Prop where
  apart : regions.Pairwise fun r s => r.2 ≤ s.1
  within : ∀ r ∈ regions, lo ≤ r.1 ∧ r.1 ≤ r.2 ∧ r.2 ≤ hi

theorem Ordered.tail {r : ℕ × ℕ} {regions : List (ℕ × ℕ)} {lo hi : ℕ}
    (h : Ordered (r :: regions) lo hi) : Ordered regions r.2 hi where
  apart := (List.pairwise_cons.mp h.apart).2
  within s hs := by
    have hafter := (List.pairwise_cons.mp h.apart).1 s hs
    have hbounds := h.within s (List.mem_cons_of_mem r hs)
    exact ⟨hafter, hbounds.2⟩

theorem Ordered.not_covers {regions : List (ℕ × ℕ)} {lo hi i : ℕ} (h : Ordered regions lo hi)
    (hi : i < lo) : ¬Covers regions i := by
  rintro ⟨r, hr, hle, -⟩
  have hlo := (h.within r hr).1
  omega

theorem all_ordered (t : Text) : Ordered (all t) 0 t.length where
  apart := all_pairwise t
  within r hr := by
    obtain ⟨hlt, hle⟩ := bounds_of_mem_all hr
    exact ⟨Nat.zero_le _, hlt.le, hle⟩

section Pieces

variable {cursor start stop : ℕ} {t : Text} (regions : List (ℕ × ℕ)) {i : ℕ}

theorem blankFrom_before (hstart : start ≤ cursor + t.length) (hi : cursor + i < start) :
    (blankFrom cursor t ((start, stop) :: regions))[i]? = t[i]? := by
  have hlength : (t.take (start - cursor)).length = start - cursor := by
    rw [List.length_take]
    omega
  rw [blankFrom, List.append_assoc, List.getElem?_append_left (by omega),
    List.getElem?_take_of_lt (by omega)]

variable (hlo : cursor ≤ start) (hle : start ≤ stop) (hhi : stop ≤ cursor + t.length)

include hlo hle hhi

theorem blankFrom_inside (hstart : start ≤ cursor + i) (hstop : cursor + i < stop) :
    (blankFrom cursor t ((start, stop) :: regions))[i]? = t[i]?.map blanked := by
  have hbefore : (t.take (start - cursor)).length = start - cursor := by
    rw [List.length_take]
    omega
  have hregion : ((t.drop (start - cursor)).take (stop - start)).length = stop - start := by
    rw [List.length_take, List.length_drop]
    omega
  rw [blankFrom, List.append_assoc, List.getElem?_append_right (by omega), hbefore,
    List.getElem?_append_left (by rw [List.length_map]; omega), List.getElem?_map,
    List.getElem?_take_of_lt (by omega), List.getElem?_drop, Nat.add_sub_cancel' (by omega)]

theorem blankFrom_behind (hstop : stop ≤ cursor + i) :
    (blankFrom cursor t ((start, stop) :: regions))[i]? =
      (blankFrom stop (t.drop (stop - cursor)) regions)[cursor + i - stop]? := by
  have hlength : (t.take (start - cursor) ++
      ((t.drop (start - cursor)).take (stop - start)).map blanked).length = stop - cursor := by
    rw [List.length_append, List.length_map, List.length_take, List.length_take, List.length_drop]
    omega
  rw [blankFrom, List.getElem?_append_right (by omega), hlength,
    show i - (stop - cursor) = cursor + i - stop by omega]

end Pieces

theorem getElem?_blankFrom {regions : List (ℕ × ℕ)} {cursor : ℕ} {t : Text}
    (h : Ordered regions cursor (cursor + t.length)) (i : ℕ) :
    (blankFrom cursor t regions)[i]? = t[i]?.map (shownAt regions (cursor + i)) := by
  induction regions generalizing cursor t i with
  | nil =>
      have hcovers : ¬Covers [] (cursor + i) := by simp [Covers]
      rw [funext (shownAt_of_not_covers hcovers), Option.map_id']
      rfl
  | cons r regions ih =>
      obtain ⟨start, stop⟩ := r
      obtain ⟨hlo, hle, hhi⟩ := h.within (start, stop) (by simp)
      simp only at hlo hle hhi
      by_cases hstart : cursor + i < start
      · have hcovers : ¬Covers ((start, stop) :: regions) (cursor + i) := by
          rw [covers_cons, not_or]
          exact ⟨by omega, h.tail.not_covers (hstart.trans_le hle)⟩
        rw [blankFrom_before regions (hle.trans hhi) hstart,
          funext (shownAt_of_not_covers hcovers), Option.map_id']
      by_cases hstop : cursor + i < stop
      · have hcovers : Covers ((start, stop) :: regions) (cursor + i) :=
          covers_cons.mpr (.inl ⟨Nat.le_of_not_lt hstart, hstop⟩)
        rw [blankFrom_inside regions hlo hle hhi (Nat.le_of_not_lt hstart) hstop,
          funext (shownAt_of_covers hcovers)]
      · have hbehind : stop ≤ cursor + i := Nat.le_of_not_lt hstop
        have htail : Ordered regions stop (stop + (t.drop (stop - cursor)).length) := by
          rw [List.length_drop, show stop + (t.length - (stop - cursor)) = cursor + t.length by omega]
          exact h.tail
        rw [blankFrom_behind regions hlo hle hhi hbehind, ih htail, List.getElem?_drop,
          show stop - cursor + (cursor + i - stop) = i by omega, Nat.add_sub_cancel' hbehind,
          shownAt_cons_of_le hbehind]

/-- Blanking shows or hides each character by itself. -/
theorem blank_eq_mapIdx (t : Text) : blank t = t.mapIdx (shownAt (all t)) := by
  apply List.ext_getElem?
  intro i
  have hordered : Ordered (all t) 0 (0 + t.length) := by simpa using all_ordered t
  rw [blank, getElem?_blankFrom hordered, List.getElem?_mapIdx, Nat.zero_add]

theorem length_blank (t : Text) : (blank t).length = t.length := by
  rw [blank_eq_mapIdx, List.length_mapIdx]

/-! ## Lines and positions -/

theorem shownAt_eq_lineFeed_iff (regions : List (ℕ × ℕ)) (i : ℕ) (c : Char) :
    shownAt regions i c = '\n' ↔ c = '\n' := by
  by_cases hcovers : Covers regions i
  · rw [shownAt_of_covers hcovers, blanked]
    split <;> simp_all
  · rw [shownAt_of_not_covers hcovers]

theorem lineStarts_blank (t : Text) : lineStarts (blank t) = lineStarts t := by
  rw [lineStarts, lineStarts, blank_eq_mapIdx, startsAfter_mapIdx (shownAt_eq_lineFeed_iff (all t))]

theorem position?_blank (s : Snapshot) (t : Text) (offset : ℤ) :
    { s with text := blank t }.position? offset = { s with text := t }.position? offset := by
  simp only [Snapshot.position?, Snapshot.position, length_blank, lineStarts_blank]

/-- Blanking keeps the length of a text, its characters outside the regions, its line breaks and its
lines, so an offset has the same position in the blanked text. -/
theorem blank_keeps_positions (t : Text) :
    (blank t).length = t.length ∧
      (∀ i, (blank t)[i]? = t[i]?.map fun c =>
        if ¬Covers (all t) i ∨ c = '\r' ∨ c = '\n' then c else ' ') ∧
      lineStarts (blank t) = lineStarts t ∧
      ∀ (s : Snapshot) (offset : ℤ),
        { s with text := blank t }.position? offset = { s with text := t }.position? offset := by
  refine ⟨length_blank t, fun i => ?_, lineStarts_blank t, fun s => position?_blank s t⟩
  rw [blank_eq_mapIdx, List.getElem?_mapIdx]
  rfl

end Region

end MarkupAudit
