import MarkupAudit.Proofs.Pattern.Equations

/-! # Matches lie in the text

Whatever a pattern matches from a place of a text on, it reaches a place of the same text that is
not before its start. -/

namespace MarkupAudit

namespace Pattern

open Cursor

theorem run_upTo_nil {t : Text} {q : ℕ} (h : t.drop q = []) (stop : Pattern) (held : Text)
    (next : Cursor → Option Cursor) :
    (upTo stop).run (place t q held) next = next (place t q held) := by
  simp [run_upTo, place, h, afterUpTo]

theorem run_upTo_cons {t : Text} {q : ℕ} {c : Char} {r : Text} (h : t.drop q = c :: r)
    (stop : Pattern) (held : Text) (next : Cursor → Option Cursor) :
    (upTo stop).run (place t q held) next =
      (if (stop.run (place t q held) some).isSome then none
        else (upTo stop).run (place t (q + 1) held) next).or (next (place t q held)) := by
  rw [← past_place h held]
  by_cases hstop : (stop.run (place t q held) some).isSome
  · rw [if_pos hstop]
    simp only [place, h] at hstop
    simp [run_upTo, place, h, afterUpTo, hstop]
  · rw [if_neg hstop]
    simp only [place, h] at hstop
    simp [run_upTo, place, past, h, afterUpTo, hstop]

/-- A run of characters that goes on here or one character later goes on at a place of the text. -/
theorem exists_place_of_steps {p : Pattern} {t held : Text} {next : Cursor → Option Cursor}
    {there : Cursor}
    (hend : ∀ q, t.drop q = [] → p.run (place t q held) next = next (place t q held))
    (hstep : ∀ q c r, t.drop q = c :: r → p.run (place t q held) next = some there →
      p.run (place t (q + 1) held) next = some there ∨ next (place t q held) = some there)
    {q : ℕ} (hq : q ≤ t.length) (h : p.run (place t q held) next = some there) :
    ∃ k, q ≤ k ∧ k ≤ t.length ∧ next (place t k held) = some there := by
  induction hrest : t.drop q generalizing q with
  | nil => exact ⟨q, le_rfl, hq, (hend q hrest).symm.trans h⟩
  | cons c r ih =>
      obtain ⟨hget, hdrop⟩ := Text.getElem?_of_drop hrest
      rcases hstep q c r hrest h with hmore | hhere
      · obtain ⟨k, hle, hk, hnext⟩ := ih (List.getElem?_eq_some_iff.mp hget).1 hmore hdrop
        exact ⟨k, by omega, hk, hnext⟩
      · exact ⟨q, le_rfl, hq, hhere⟩

theorem exists_place_of_afterSame {t held part : Text} {next : Cursor → Option Cursor}
    {there : Cursor} {q : ℕ} (hq : q ≤ t.length)
    (h : afterSame next part (place t q held) = some there) :
    ∃ k, q ≤ k ∧ k ≤ t.length ∧ next (place t k held) = some there := by
  induction part generalizing q with
  | nil => exact ⟨q, le_rfl, hq, h⟩
  | cons c part ih =>
      cases hrest : t.drop q with
      | nil => simp [afterSame, place, hrest] at h
      | cons x r =>
          obtain ⟨hget, -⟩ := Text.getElem?_of_drop hrest
          have hstep : afterSame next (c :: part) (place t q held) =
              if Text.lowerChar x == Text.lowerChar c then
                afterSame next part (place t (q + 1) held) else none := by
            rw [← past_place hrest held]
            simp [afterSame, place, hrest]
          rw [hstep] at h
          obtain ⟨k, hle, hk, hnext⟩ := ih (List.getElem?_eq_some_iff.mp hget).1
            (Option.ite_none_right_eq_some.mp h).2
          exact ⟨k, by omega, hk, hnext⟩

/-- What follows a match is asked at a place of the text, at the start of the match or behind it. -/
theorem exists_place {p : Pattern} {t held : Text} {q : ℕ} {next : Cursor → Option Cursor}
    {there : Cursor} (hq : q ≤ t.length) (h : p.run (place t q held) next = some there) :
    ∃ k held', q ≤ k ∧ k ≤ t.length ∧ next (place t k held') = some there := by
  induction p generalizing q held next with
  | nothing => exact ⟨q, held, le_rfl, hq, h⟩
  | one accepts =>
      rw [run_one_place] at h
      obtain ⟨haccepts, hnext⟩ := Option.ite_none_right_eq_some.mp h
      obtain ⟨c, hc, -⟩ := (Option.any_eq_true _ _).mp haccepts
      exact ⟨q + 1, held, by omega, (List.getElem?_eq_some_iff.mp hc).1, hnext⟩
  | seq p p' ihp ihp' =>
      obtain ⟨k, held', hqk, hk, hnext⟩ := ihp hq h
      obtain ⟨j, held'', hkj, hj, hnext⟩ := ihp' hk hnext
      exact ⟨j, held'', hqk.trans hkj, hj, hnext⟩
  | either p p' ihp ihp' =>
      have hor : (p.run (place t q held) next).or (p'.run (place t q held) next) = some there :=
        (run_orElse p p' (place t q held) next).symm.trans h
      rcases Option.or_eq_some_iff.mp hor with hfirst | ⟨-, hsecond⟩
      · exact ihp hq hfirst
      · exact ihp' hq hsecond
  | longest accepts =>
      obtain ⟨k, hk⟩ := exists_place_of_steps
        (fun q hrest => run_longest_nil hrest _ held next)
        (fun q c r hrest h => by
          rw [run_longest_cons hrest] at h
          exact (Option.or_eq_some_iff.mp h).imp (fun h => (Option.ite_none_right_eq_some.mp h).2)
            And.right) hq h
      exact ⟨k, held, hk⟩
  | shortest accepts =>
      obtain ⟨k, hk⟩ := exists_place_of_steps
        (fun q hrest => run_shortest_nil hrest _ held next)
        (fun q c r hrest h => by
          rw [run_shortest_cons hrest] at h
          exact ((Option.or_eq_some_iff.mp h).imp id
            fun h => (Option.ite_none_right_eq_some.mp h.2).2).symm) hq h
      exact ⟨k, held, hk⟩
  | upTo stop =>
      obtain ⟨k, hk⟩ := exists_place_of_steps
        (fun q hrest => run_upTo_nil hrest _ held next)
        (fun q c r hrest h => by
          rw [run_upTo_cons hrest] at h
          exact (Option.or_eq_some_iff.mp h).imp (fun h => (Option.ite_none_left_eq_some.mp h).2)
            And.right) hq h
      exact ⟨k, held, hk⟩
  | wordEdge | textEnd | lastLineEnd | ahead =>
      exact ⟨q, held, le_rfl, hq, (Option.ite_none_right_eq_some.mp h).2⟩
  | hold p ih =>
      obtain ⟨k, held', hqk, hk, hnext⟩ := ih hq h
      exact ⟨k, _, hqk, hk, hnext⟩
  | sameAgain =>
      obtain ⟨k, hk⟩ := exists_place_of_afterSame hq h
      exact ⟨k, held, hk⟩

end Pattern

/-! ## Parts of a text -/

theorem Text.mem_slice_iff {t : Text} {start stop : ℕ} {c : Char} :
    c ∈ slice t start stop ↔ ∃ i, start ≤ i ∧ i < stop ∧ t[i]? = some c := by
  simp only [List.mem_iff_getElem?, slice_natCast, List.getElem?_drop, List.getElem?_take,
    Option.ite_none_right_eq_some]
  constructor
  · rintro ⟨k, hlt, hget⟩
    exact ⟨start + k, Nat.le_add_right start k, hlt, hget⟩
  · rintro ⟨i, hle, hlt, hget⟩
    exact ⟨i - start, by omega, by rwa [Nat.add_sub_cancel' hle]⟩

/-- The match is a part of the text and shows what stands there. -/
structure Match.InText (m : Match) (t : Text) : Prop where
  start_le : m.start ≤ m.stop
  stop_le : m.stop ≤ t.length
  text_eq : m.text = Text.slice t m.start m.stop

namespace Pattern

open Cursor

/-- The matches at a place are what the pattern reaches from there, perhaps only places that are
further on. -/
theorem exists_run_of_mem_allAt {p : Pattern} {here : Cursor} {m : Match} (h : m ∈ p.allAt here) :
    ∃ next there, (∀ x y : Cursor, next x = some y → x = y) ∧ p.run here next = some there ∧
      m = Match.between here there := by
  unfold allAt at h
  cases hfirst : p.matchAt? here with
  | none => simp [hfirst] at h
  | some first =>
      obtain ⟨there, hrun, rfl⟩ := Option.map_eq_some_iff.mp hfirst
      have hmatch : ∃ next there', (∀ x y : Cursor, next x = some y → x = y) ∧
          p.run here next = some there' ∧ Match.between here there = Match.between here there' :=
        ⟨some, there, fun _ _ => Option.some.inj, hrun, rfl⟩
      simp only [hfirst] at h
      split at h
      · rwa [List.mem_singleton.mp h]
      · rcases List.mem_cons.mp h with rfl | hmem
        · exact hmatch
        · obtain ⟨there', hrun', rfl⟩ := Option.map_eq_some_iff.mp (Option.mem_toList.mp hmem)
          refine ⟨_, there', fun x y hxy => ?_, hrun', rfl⟩
          exact Option.some.inj (Option.ite_none_right_eq_some.mp hxy).2

theorem exists_mem_allAt_of_allFrom {p : Pattern} {t : Text} {skip q : ℕ} (hq : q ≤ t.length)
    {m : Match} (h : m ∈ p.allFrom skip (t.take q).getLast? q (t.drop q)) :
    ∃ k ≤ t.length, m ∈ p.allAt (place t k []) := by
  induction hrest : t.drop q generalizing skip q with
  | nil =>
      have hplace : (⟨(t.take q).getLast?, q, [], []⟩ : Cursor) = place t q [] := by
        rw [place, hrest]
      rw [hrest] at h
      cases skip with
      | zero =>
          rw [allFrom, hplace] at h
          exact ⟨q, hq, h⟩
      | succ skip => simp [allFrom] at h
  | cons c r ih =>
      obtain ⟨hget, hdrop⟩ := Text.getElem?_of_drop hrest
      have hplace : (⟨(t.take q).getLast?, q, c :: r, []⟩ : Cursor) = place t q [] := by
        rw [place, hrest]
      have hlt : q + 1 ≤ t.length := (List.getElem?_eq_some_iff.mp hget).1
      rw [hrest] at h
      cases skip with
      | zero =>
          rw [allFrom, hplace] at h
          rcases List.mem_append.mp h with hhere | hafter
          · exact ⟨q, hq, hhere⟩
          · exact ih hlt (by rwa [Text.getLast?_take_succ hget, hdrop]) hdrop
      | succ skip => exact ih hlt (by rwa [Text.getLast?_take_succ hget, hdrop]) hdrop

/-- Every match is reached from a place of the text. -/
theorem exists_run_of_mem_all {p : Pattern} {t : Text} {m : Match} (h : m ∈ p.all t) :
    ∃ q ≤ t.length, ∃ next there, (∀ x y : Cursor, next x = some y → x = y) ∧
      p.run (place t q []) next = some there ∧ m = Match.between (place t q []) there := by
  obtain ⟨q, hq, hmem⟩ := exists_mem_allAt_of_allFrom (Nat.zero_le _) h
  exact ⟨q, hq, exists_run_of_mem_allAt hmem⟩

/-- Every match is a part of the text. -/
theorem inText_all {p : Pattern} {t : Text} {m : Match} (h : m ∈ p.all t) : m.InText t := by
  obtain ⟨q, hq, next, there, hnext, hrun, rfl⟩ := exists_run_of_mem_all h
  obtain ⟨k, held, hqk, hk, hthere⟩ := exists_place hq hrun
  obtain rfl := hnext _ _ hthere
  refine ⟨hqk, hk, ?_⟩
  rw [Text.slice_natCast, List.drop_take]
  rfl

end Pattern

end MarkupAudit
