import MarkupAudit.Proofs.Pattern.Bounds

/-! # Matches stand in order

Whatever a pattern looks for, its matches in a text go from left to right and do not overlap. Where
it matches no character, a longer match may follow at the same place, and nothing else starts before
the end of that. -/

namespace MarkupAudit.Pattern

variable {p : Pattern} {here : Cursor} {m : Match}

theorem start_of_mem_allAt (h : m ∈ p.allAt here) : m.start = here.offset := by
  obtain ⟨next, there, -, -, rfl⟩ := exists_run_of_mem_allAt h
  rfl

/-- Of two matches at one place the first has no characters. -/
theorem allAt_pairwise (p : Pattern) (here : Cursor) :
    (p.allAt here).Pairwise fun m n => m.stop ≤ n.start := by
  have hstart : ∀ n ∈ p.allAt here, n.start = here.offset := fun n => start_of_mem_allAt
  unfold allAt at hstart ⊢
  cases hfirst : p.matchAt? here with
  | none => exact .nil
  | some m =>
      simp only [hfirst] at hstart ⊢
      split
      · exact List.pairwise_singleton _ m
      · next hempty =>
          rw [if_neg hempty] at hstart
          have hm : m.start = here.offset := hstart m (by simp)
          refine List.pairwise_cons.mpr ⟨fun n hn => ?_, ?_⟩
          · have := hstart n (List.mem_cons_of_mem m hn)
            omega
          · cases p.advanceAt? here <;> simp

/-- Matches that start at one place stop within what they cover. -/
theorem stop_le_add_covered {ms : List Match} {q : ℕ} (hstart : ∀ n ∈ ms, n.start = q)
    (hm : m ∈ ms) : m.stop ≤ q + covered ms := by
  induction ms with
  | nil => simp at hm
  | cons n ms ih =>
      have hcovered : covered (n :: ms) = n.stop - n.start + covered ms := rfl
      obtain ⟨hn, hrest⟩ := List.forall_mem_cons.mp hstart
      rcases List.mem_cons.mp hm with rfl | hmem
      · omega
      · have := ih hrest hmem
        omega

theorem le_start_of_mem_allFrom {skip q : ℕ} {before : Option Char} {r : Text}
    (h : m ∈ p.allFrom skip before q r) : q + skip ≤ m.start := by
  induction r generalizing skip before q with
  | nil =>
      cases skip with
      | zero => exact (start_of_mem_allAt h).ge
      | succ skip => simp [allFrom] at h
  | cons c r ih =>
      cases skip with
      | zero =>
          rw [allFrom] at h
          rcases List.mem_append.mp h with hhere | hafter
          · exact (start_of_mem_allAt hhere).ge
          · have := ih hafter
            omega
      | succ skip =>
          have := ih h
          omega

theorem allFrom_pairwise (p : Pattern) (skip : ℕ) (before : Option Char) (q : ℕ) (r : Text) :
    (p.allFrom skip before q r).Pairwise fun m n => m.stop ≤ n.start := by
  induction r generalizing skip before q with
  | nil =>
      cases skip with
      | zero => exact allAt_pairwise p _
      | succ skip => exact .nil
  | cons c r ih =>
      cases skip with
      | zero =>
          rw [allFrom]
          refine List.pairwise_append.mpr ⟨allAt_pairwise p _, ih _ _ _, fun m hm n hn => ?_⟩
          have hstop : m.stop ≤ q + covered _ :=
            stop_le_add_covered (fun n => start_of_mem_allAt) hm
          have hstart := le_start_of_mem_allFrom hn
          omega
      | succ skip => exact ih _ _ _

/-- The matches in a text go from left to right and do not overlap. -/
theorem all_pairwise (p : Pattern) (t : Text) :
    (p.all t).Pairwise fun m n => m.stop ≤ n.start :=
  allFrom_pairwise p 0 none 0 t

end MarkupAudit.Pattern
