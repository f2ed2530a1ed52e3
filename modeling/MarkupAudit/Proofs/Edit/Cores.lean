import MarkupAudit.Proofs.Edit.Amendment
import MarkupAudit.Proofs.Region.Blanking

/-! # Edits that keep regions

An edit may replace a part with regions in it and still change nothing inside them. What it does
change is its core. Separated edits with cores outside the regions keep all regions, in their
order. -/

namespace MarkupAudit

namespace Text

theorem length_slice (t : Text) (start : ℕ) {stop : ℕ} (hstop : stop ≤ t.length) :
    (slice t start stop).length = stop - start := by
  rw [slice_natCast, List.length_drop, List.length_take, min_eq_left hstop]

/-- A part that is made of two can be split between them. -/
theorem slice_eq_append {t front back : Text} {start stop : ℕ} (hle : start ≤ stop)
    (hstop : stop ≤ t.length) (h : slice t start stop = front ++ back) :
    start + front.length ≤ stop ∧ slice t start (start + front.length : ℕ) = front ∧
      slice t (start + front.length : ℕ) stop = back := by
  have hlength := length_slice t start hstop
  rw [h, List.length_append] at hlength
  have hmiddle : start + front.length ≤ t.length := by omega
  have hfront := length_slice t start hmiddle
  rw [← slice_append t (Nat.le_add_right start front.length) (by omega)] at h
  obtain ⟨hfront, hback⟩ := List.append_inj h (by omega)
  exact ⟨by omega, hfront, hback⟩

end Text

/-! ## The cores of edits -/

namespace Edit

/-- All that the edit changes lies between the offsets of the core, and none of it in a region. -/
structure Core (t : Text) (regions : List (ℕ × ℕ)) (e core : Edit) : Prop where
  start_le : e.start ≤ core.start
  start_le_stop : core.start ≤ core.stop
  stop_le : core.stop ≤ e.stop
  newText_eq : e.newText =
    Text.slice t e.start core.start ++ core.newText ++ Text.slice t core.stop e.stop
  outside : ∀ r ∈ regions, core.stop ≤ r.1 ∨ r.2 ≤ core.start

/-- An edit that takes nothing away: it puts some of the pieces at a place of which `fits` holds. -/
structure Supplies (pieces : List Text) (fits : ℕ → Prop) (e : Edit) : Prop where
  stop_eq : e.stop = e.start
  exists_added : ∃ added : List Text, e.newText = added.flatten ∧
    ∀ piece ∈ added, piece ∈ pieces ∧ fits e.start

/-- An edit that replaces the middle of its part has the middle for its core. -/
theorem core_of_append {t : Text} {regions : List (ℕ × ℕ)} {e : Edit}
    (front middle back new : Text) (hle : e.start ≤ e.stop) (hstop : e.stop ≤ t.length)
    (hslice : Text.slice t e.start e.stop = front ++ (middle ++ back))
    (hnew : e.newText = front ++ (new ++ back))
    (houtside : ∀ r ∈ regions, e.start + front.length + middle.length ≤ r.1 ∨
      r.2 ≤ e.start + front.length) :
    Core t regions e
      ⟨e.start + front.length, e.start + front.length + middle.length, new, []⟩ := by
  obtain ⟨hmiddle, hfront, hrest⟩ := Text.slice_eq_append hle hstop hslice
  obtain ⟨hback, -, hlast⟩ := Text.slice_eq_append hmiddle hstop hrest
  refine ⟨Nat.le_add_right _ _, Nat.le_add_right _ _, hback, ?_, houtside⟩
  rw [hfront, hlast, hnew, List.append_assoc]

section Cores

variable {t : Text} {regions : List (ℕ × ℕ)} {edits : List Edit} {coreOf : Edit → Edit}
  (hcore : ∀ e ∈ edits, Core t regions e (coreOf e))
  (hseparated : edits.Pairwise fun e f => e.stop ≤ f.start)

include hcore hseparated

/-- Replacing the parts of edits replaces their cores. -/
theorem substitution_cores {cursor : ℕ} (hcursor : ∀ e ∈ edits, cursor ≤ e.start) :
    substitution t cursor edits = substitution t cursor (edits.map coreOf) := by
  induction edits generalizing cursor with
  | nil => rfl
  | cons e edits ih =>
      obtain ⟨hlater, hseparated⟩ := List.pairwise_cons.mp hseparated
      obtain ⟨he, hcore⟩ := List.forall_mem_cons.mp hcore
      have hcores : ∀ c ∈ edits.map coreOf, e.stop ≤ c.start := by
        intro c hc
        obtain ⟨f, hf, rfl⟩ := List.mem_map.mp hc
        exact (hlater f hf).trans (hcore f hf).start_le
      rw [List.map_cons, substitution, substitution, ih hcore hseparated hlater, he.newText_eq,
        substitution_eq_append he.stop_le hcores,
        ← Text.slice_append t (hcursor e (by simp)) he.start_le]
      simp only [List.append_assoc]

theorem separated_cores : (edits.map coreOf).Pairwise fun e f => e.stop ≤ f.start := by
  rw [List.pairwise_map]
  refine hseparated.imp_of_mem fun {e f} he hf hle => ?_
  exact (hcore e he).stop_le.trans (hle.trans (hcore f hf).start_le)

end Cores

end Edit

/-! ## Parts that occur in order -/

namespace Text

/-- The parts occur in the text one behind the other. -/
def OccurInOrder : List Text → Text → Prop
  | [], _ => True
  | part :: parts, t => ∃ before rest, t = before ++ (part ++ rest) ∧ OccurInOrder parts rest

end Text

namespace Edit

/-- A region that no edit touches is kept, and only edits behind it are left for what follows. -/
theorem exists_substitution_eq {t : Text} {r : ℕ × ℕ} (hle : r.1 ≤ r.2) {edits : List Edit}
    (hwithin : ∀ e ∈ edits, e.start ≤ e.stop)
    (hseparated : edits.Pairwise fun e f => e.stop ≤ f.start)
    (houtside : ∀ e ∈ edits, e.stop ≤ r.1 ∨ r.2 ≤ e.start) {cursor : ℕ} (hcursor : cursor ≤ r.1) :
    ∃ before later, List.Sublist later edits ∧ substitution t cursor edits =
      before ++ (Text.slice t r.1 r.2 ++ substitution t r.2 later) := by
  induction edits generalizing cursor with
  | nil =>
      refine ⟨Text.slice t cursor r.1, [], List.nil_sublist _, ?_⟩
      rw [substitution_eq_append (hcursor.trans hle) (by simp), ← Text.slice_append t hcursor hle,
        List.append_assoc]
  | cons e edits ih =>
      obtain ⟨hafter, hseparated⟩ := List.pairwise_cons.mp hseparated
      obtain ⟨he, hwithin⟩ := List.forall_mem_cons.mp hwithin
      obtain ⟨hbefore | hbehind, houtside⟩ := List.forall_mem_cons.mp houtside
      · obtain ⟨before, later, hlater, heq⟩ := ih hwithin hseparated houtside hbefore
        refine ⟨Text.slice t cursor e.start ++ e.newText ++ before, later, hlater.cons e, ?_⟩
        rw [substitution, heq, List.append_assoc _ before]
      · have hlater : ∀ f ∈ e :: edits, r.2 ≤ f.start :=
          List.forall_mem_cons.mpr ⟨hbehind, fun f hf => hbehind.trans (he.trans (hafter f hf))⟩
        refine ⟨Text.slice t cursor r.1, e :: edits, List.Sublist.refl _, ?_⟩
        rw [substitution_eq_append (hcursor.trans hle) hlater, ← Text.slice_append t hcursor hle,
          List.append_assoc]

/-- Regions that no edit touches occur in order in what the edits make of the text. -/
theorem occurInOrder_substitution {t : Text} {regions : List (ℕ × ℕ)} {edits : List Edit}
    {cursor : ℕ} (hregions : Region.Ordered regions cursor t.length)
    (hwithin : ∀ e ∈ edits, e.start ≤ e.stop)
    (hseparated : edits.Pairwise fun e f => e.stop ≤ f.start)
    (houtside : ∀ e ∈ edits, ∀ r ∈ regions, e.stop ≤ r.1 ∨ r.2 ≤ e.start) :
    Text.OccurInOrder (regions.map fun r => Text.slice t r.1 r.2) (substitution t cursor edits) := by
  induction regions generalizing cursor edits with
  | nil => trivial
  | cons r regions ih =>
      obtain ⟨hcursor, hle, -⟩ := hregions.within r (by simp)
      obtain ⟨before, later, hlater, heq⟩ := exists_substitution_eq hle hwithin hseparated
        (fun e he => houtside e he r (by simp)) hcursor
      refine ⟨before, _, heq, ih hregions.tail (fun e he => hwithin e (hlater.subset he))
        (hseparated.sublist hlater) fun e he r' hr' => ?_⟩
      exact houtside e (hlater.subset he) r' (List.mem_cons_of_mem r hr')

end Edit

end MarkupAudit
