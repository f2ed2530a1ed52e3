import MarkupAudit.Proofs.Evaluation.Order
import MarkupAudit.Proofs.Region.Idempotence

/-! # Findings show something

Blanking leaves nothing but white space in a region, and a match of white space is passed over. So
every finding is about at least one character that a reader of the document sees. -/

namespace MarkupAudit

/-- A part of a text that is not a filler has a character that is not white space. -/
theorem Text.exists_shown_of_slice {t : Text} {start stop : ℕ}
    (h : ¬isFiller (slice t start stop)) :
    ∃ i, start ≤ i ∧ i < stop ∧ t[i]?.any (!isBlank ·) := by
  rw [isFiller, List.all_eq_true, not_forall] at h
  obtain ⟨c, hc⟩ := h
  obtain ⟨hmem, hshown⟩ := Classical.not_imp.mp hc
  obtain ⟨i, hle, hlt, hget⟩ := mem_slice_iff.mp hmem
  exact ⟨i, hle, hlt, by simpa [hget] using hshown⟩

namespace Region

/-- Blanking puts in white space only. -/
theorem blanked_ne_of_not_isBlank {c : Char} (h : !Text.isBlank c) : blanked c ≠ c := by
  intro hsame
  have hblank : Text.isBlank (blanked c) := by
    unfold blanked
    split
    · next hbreak =>
        rw [Bool.or_eq_true, decide_eq_true_iff, decide_eq_true_iff] at hbreak
        rcases hbreak with rfl | rfl <;> decide
    · decide
  rw [hsame] at hblank
  rw [hblank] at h
  cases h

/-- All offsets from one to another are in a region or have white space there. -/
def Hidden (t : Text) (start stop : ℕ) : Prop :=
  ∀ i, start ≤ i → i < stop → Covers (all t) i ∨ t[i]?.any Text.isBlank

theorem hidden_of_mem_all {t : Text} {r : ℕ × ℕ} (h : r ∈ all t) : Hidden t r.1 r.2 :=
  fun _ hle hlt => .inl ⟨r, h, hle, hlt⟩

end Region

namespace Evaluation

open Region

/-- What a rule reports is not white space in the prepared text. -/
theorem shown_of_mem {t : Text} {s : Snapshot} {r : Rule} (hlength : t.length = s.text.length)
    {f : Finding} (h : f ∈ (ofRule t s r).findings) :
    ¬Text.isFiller (Text.slice t f.span.start f.span.stop) := by
  cases hpattern : r.pattern with
  | none => simp [ofRule, Rule.findings, Rule.reports, hpattern, Except.map] at h
  | some p => exact (Rule.found_ofRule hlength (by rw [hpattern]; rfl)).shown f h

/-- Every finding of an evaluation of a blanked text covers an offset that is outside all regions
and has a character that is not white space. So it is not inside a region, nor inside a part made of
regions and white space. -/
theorem findings_show (t : Text) (s : Snapshot) (rules : List Rule)
    (hlength : t.length = s.text.length) :
    ∃ e, ofEntries? (blank t) s (rules.map .rule) = .ok e ∧
      ∀ f ∈ e.findings,
        (∃ i, f.span.start ≤ i ∧ i < f.span.stop ∧ ¬Covers (all t) i ∧
          t[i]?.any (!Text.isBlank ·)) ∧
        (∀ r ∈ all t, ¬(r.1 ≤ f.span.start ∧ f.span.stop ≤ r.2)) ∧
        ∀ start stop, Hidden t start stop → ¬(start ≤ f.span.start ∧ f.span.stop ≤ stop) := by
  have hblank : (blank t).length = s.text.length := (length_blank t).trans hlength
  refine ⟨_, ofEntries?_of_length hblank rules, fun f hf => ?_⟩
  obtain ⟨r, -, hfound⟩ := mem_findings_iff.mp hf
  obtain ⟨i, hle, hlt, hi⟩ := Text.exists_shown_of_slice (shown_of_mem hblank hfound)
  obtain ⟨hshown, houtside⟩ := shown_of_any (fun c => blanked_ne_of_not_isBlank) hi
  have hhidden : ∀ start stop, Hidden t start stop →
      ¬(start ≤ f.span.start ∧ f.span.stop ≤ stop) := by
    intro start stop hhidden hinside
    rcases hhidden i (by omega) (by omega) with hcovers | hspace
    · exact houtside hcovers
    · cases hget : t[i]? <;> simp_all
  exact ⟨⟨i, hle, hlt, houtside, hshown⟩, fun r hr => hhidden r.1 r.2 (hidden_of_mem_all hr),
    hhidden⟩

/-- A rule that looks for everything but bars reports nothing of a comment alone, and a comment
together with the letter behind it. -/
theorem findings_show_letter :
    let t := "<!--a-->|<!--b-->c".toList
    let s : Snapshot := { text := t }
    let r : Rule :=
      { Guideline.TextAlternatives.image with
        pattern := some (.longest (· != '|'))
        applies := some (.ofTag fun _ => true) }
    all t = [(0, 8), (9, 17)] ∧
      ∃ e, ofEntries? (blank t) s [.rule r] = .ok e ∧
        e.findings.map (fun f => (f.span.start, f.span.stop)) = [(9, 18)] ∧
        ∀ f ∈ e.findings, ∃ i, f.span.start ≤ i ∧ i < f.span.stop ∧ ¬Covers (all t) i ∧
          t[i]?.any (!Text.isBlank ·) := by
  intro t s r
  obtain ⟨e, he, hshow⟩ := findings_show t s [r] rfl
  have hfindings : e = ofPrepared (blank t) s [r] :=
    Except.ok.inj (he.symm.trans (ofEntries?_blank s [r]))
  refine ⟨by decide +kernel, e, he, ?_, fun f hf => (hshow f hf).1⟩
  rw [hfindings]
  decide +kernel

end Evaluation

end MarkupAudit
