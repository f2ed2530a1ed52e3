import MarkupAudit.Proofs.Pattern.Equations

/-! # Scanning a text from left to right

A scanner takes the first thing of some kind, goes on behind it and takes the next one. All matches
of a pattern, none of them empty, are what a scanner for its matches finds. -/

namespace MarkupAudit

/-- Where the things of some kind in a text stop, by the offsets at which they start. None of them
is empty. -/
structure Occurrences (t : Text) where
  stop? : ℕ → Option ℕ
  lt_stop : ∀ {q e : ℕ}, stop? q = some e → q < e
  stop_le : ∀ {q e : ℕ}, stop? q = some e → e ≤ t.length

namespace Occurrences

variable {t : Text} (o : Occurrences t)

/-- The first thing that starts at an offset or behind it: where it starts and where it stops. -/
def next? (p : ℕ) : Option (ℕ × ℕ) :=
  (t.least? p fun q => (o.stop? q).isSome).bind fun q => (o.stop? q).map fun e => (q, e)

theorem next?_eq_some_iff {p q e : ℕ} :
    o.next? p = some (q, e) ↔
      p ≤ q ∧ o.stop? q = some e ∧ ∀ r, p ≤ r → r < q → o.stop? r = none := by
  simp only [next?, Option.bind_eq_some_iff, Option.map_eq_some_iff, Prod.mk.injEq,
    Text.least?_eq_some_iff, Option.isSome_eq_false_iff, Option.isNone_iff_eq_none]
  constructor
  · rintro ⟨_, ⟨-, hle, -, hbefore⟩, _, hstop, rfl, rfl⟩
    exact ⟨hle, hstop, hbefore⟩
  · rintro ⟨hle, hstop, hbefore⟩
    have hq : q ≤ t.length := (o.lt_stop hstop).le.trans (o.stop_le hstop)
    exact ⟨q, ⟨by simp [hstop], hle, hq, hbefore⟩, e, hstop, rfl, rfl⟩

theorem next?_eq_none_iff {p : ℕ} :
    o.next? p = none ↔ ∀ q, p ≤ q → q ≤ t.length → o.stop? q = none := by
  cases hleast : t.least? p fun q => (o.stop? q).isSome with
  | none =>
      have hnone := Text.least?_eq_none_iff.mp hleast
      simp only [Option.isSome_eq_false_iff, Option.isNone_iff_eq_none] at hnone
      simpa [next?, hleast] using hnone
  | some q =>
      obtain ⟨hsome, hle, hq, -⟩ := Text.least?_eq_some_iff.mp hleast
      obtain ⟨e, hstop⟩ := Option.isSome_iff_exists.mp hsome
      have hnext : o.next? p = some (q, e) := by simp [next?, hleast, hstop]
      rw [hnext]
      constructor
      · exact nofun
      · intro hnone
        rw [hnone q hle hq] at hstop
        cases hstop

/-- The things from an offset on, from left to right. What starts inside one of them is passed
over. -/
def scan (p : ℕ) : List (ℕ × ℕ) :=
  match _h : o.next? p with
  | none => []
  | some (q, e) => (q, e) :: scan e
termination_by t.length - p
decreasing_by
  obtain ⟨hle, hstop, -⟩ := o.next?_eq_some_iff.mp _h
  have hlt := o.lt_stop hstop
  have hlen := o.stop_le hstop
  omega

theorem scan_eq (p : ℕ) :
    o.scan p = match o.next? p with
      | none => []
      | some (q, e) => (q, e) :: o.scan e := by
  rw [scan]
  split <;> simp_all

theorem head?_scan (p : ℕ) : (o.scan p).head? = o.next? p := by
  rw [scan_eq]
  cases o.next? p <;> rfl

theorem scan_of_some {p e : ℕ} (h : o.stop? p = some e) : o.scan p = (p, e) :: o.scan e := by
  have hnext : o.next? p = some (p, e) :=
    o.next?_eq_some_iff.mpr ⟨le_rfl, h, fun r h1 h2 => absurd h1 (Nat.not_le.mpr h2)⟩
  rw [scan_eq, hnext]

theorem scan_of_none {p : ℕ} (h : o.stop? p = none) : o.scan p = o.scan (p + 1) := by
  have hnext : o.next? p = o.next? (p + 1) := by
    apply Option.ext
    rintro ⟨q, e⟩
    simp only [o.next?_eq_some_iff]
    constructor
    · rintro ⟨hle, hstop, hbefore⟩
      have hne : p ≠ q := by
        rintro rfl
        rw [h] at hstop
        cases hstop
      exact ⟨by omega, hstop, fun r h1 h2 => hbefore r (by omega) h2⟩
    · rintro ⟨hle, hstop, hbefore⟩
      refine ⟨by omega, hstop, fun r h1 h2 => ?_⟩
      by_cases hr : r = p
      · rw [hr, h]
      · exact hbefore r (by omega) h2
  rw [scan_eq, hnext, ← scan_eq]

theorem scan_of_length_le {p : ℕ} (h : t.length ≤ p) : o.scan p = [] := by
  have hnext : o.next? p = none := by
    by_contra hsome
    obtain ⟨⟨q, e⟩, hqe⟩ := Option.ne_none_iff_exists'.mp hsome
    obtain ⟨hle, hstop, -⟩ := o.next?_eq_some_iff.mp hqe
    have hlt := o.lt_stop hstop
    have hlen := o.stop_le hstop
    omega
  rw [scan_eq, hnext]

/-- What a scanner finds is found behind its start and starts and stops as said. -/
theorem mem_scan {p : ℕ} {r : ℕ × ℕ} (h : r ∈ o.scan p) :
    p ≤ r.1 ∧ o.stop? r.1 = some r.2 := by
  fun_induction o.scan p with
  | case1 => simp at h
  | case2 p q e hnext ih =>
      obtain ⟨hle, hstop, -⟩ := o.next?_eq_some_iff.mp hnext
      rcases List.mem_cons.mp h with rfl | hmem
      · exact ⟨hle, hstop⟩
      · obtain ⟨hle', hstop'⟩ := ih hmem
        have hlt := o.lt_stop hstop
        exact ⟨by omega, hstop'⟩

/-- Whatever could be taken is taken, or starts inside something that is. -/
theorem exists_mem_scan {p q e : ℕ} (hle : p ≤ q) (h : o.stop? q = some e) :
    ∃ r ∈ o.scan p, r.1 ≤ q ∧ q < r.2 := by
  fun_induction o.scan p with
  | case1 p hnext =>
      have hq : q ≤ t.length := (o.lt_stop h).le.trans (o.stop_le h)
      rw [o.next?_eq_none_iff.mp hnext q hle hq] at h
      cases h
  | case2 p first stop hnext ih =>
      obtain ⟨-, -, hbefore⟩ := o.next?_eq_some_iff.mp hnext
      have hfirst : first ≤ q := by
        by_contra hlt
        rw [hbefore q hle (Nat.lt_of_not_le hlt)] at h
        cases h
      by_cases hstop : q < stop
      · exact ⟨(first, stop), by simp, hfirst, hstop⟩
      · obtain ⟨r, hr, hcovers⟩ := ih (Nat.le_of_not_lt hstop)
        exact ⟨r, List.mem_cons_of_mem _ hr, hcovers⟩

/-- A scanner goes on behind what it has found, so its findings do not overlap. -/
theorem scan_pairwise (p : ℕ) : (o.scan p).Pairwise fun r s => r.2 ≤ s.1 := by
  fun_induction o.scan p with
  | case1 => exact .nil
  | case2 p q e hnext ih => exact .cons (fun r hr => (o.mem_scan hr).1) ih

/-- Where the first thing from an offset on stops, or the end of the text if there is none. -/
def stopFrom (q : ℕ) : ℕ :=
  ((o.next? q).map Prod.snd).getD t.length

theorem stopFrom_of_none {q : ℕ} (h : o.next? q = none) : o.stopFrom q = t.length := by
  simp [stopFrom, h]

theorem stopFrom_of_some {q k e : ℕ} (h : o.next? q = some (k, e)) : o.stopFrom q = e := by
  simp [stopFrom, h]

theorem stopFrom_bounds {q : ℕ} (hq : q ≤ t.length) :
    q ≤ o.stopFrom q ∧ o.stopFrom q ≤ t.length := by
  cases h : o.next? q with
  | none =>
      rw [o.stopFrom_of_none h]
      exact ⟨hq, le_rfl⟩
  | some found =>
      obtain ⟨hle, hstop, -⟩ := o.next?_eq_some_iff.mp h
      rw [o.stopFrom_of_some h]
      exact ⟨hle.trans (o.lt_stop hstop).le, o.stop_le hstop⟩

end Occurrences

namespace Pattern

open Cursor

/-- The shortest run of any characters up to one of the things, or up to the end of the text, stops
where the first of them does. -/
theorem run_shortest_orElse_textEnd {t : Text} (o : Occurrences t) {p : Pattern} {held : Text}
    (hp : ∀ k, p.run (place t k held) some = (o.stop? k).map (place t · held))
    {q : ℕ} (hq : q ≤ t.length) :
    (shortest fun _ => true).run (place t q held) (fun there => (p <|> textEnd).run there some) =
      some (place t (o.stopFrom q) held) := by
  have hrun : ∀ k, (p <|> textEnd).run (place t k held) some =
      ((o.stop? k).map (place t · held)).or
        (if t.length ≤ k then some (place t k held) else none) := by
    intro k
    rw [run_orElse, hp, run_textEnd_place]
  rw [run_shortest_any t hq]
  cases h : o.next? q with
  | none =>
      have hstop : ∀ k, q ≤ k → k ≤ t.length → o.stop? k = none := o.next?_eq_none_iff.mp h
      rw [o.stopFrom_of_none h]
      refine Text.least?_bind_eq_some hq le_rfl ?_ ?_
      · rw [hrun, hstop t.length hq le_rfl]
        simp
      · intro r h1 h2
        rw [hrun, hstop r h1 h2.le, if_neg (Nat.not_le.mpr h2)]
        rfl
  | some found =>
      obtain ⟨hle, hstop, hbefore⟩ := o.next?_eq_some_iff.mp h
      have hlt : found.1 < t.length := (o.lt_stop hstop).trans_le (o.stop_le hstop)
      rw [o.stopFrom_of_some h]
      refine Text.least?_bind_eq_some hle hlt.le ?_ ?_
      · rw [hrun, hstop]
        rfl
      · intro r h1 h2
        rw [hrun, hbefore r h1 h2, if_neg (Nat.not_le.mpr (h2.trans hlt))]
        rfl

theorem matchAt?_place_start {p : Pattern} {t held : Text} {q : ℕ} {m : Match}
    (h : p.matchAt? (place t q held) = some m) : m.start = q := by
  obtain ⟨there, -, rfl⟩ := Option.map_eq_some_iff.mp h
  rfl

theorem allAt_of_none {p : Pattern} {here : Cursor} (h : p.matchAt? here = none) :
    p.allAt here = [] := by
  rw [allAt, h]

theorem allAt_of_some {p : Pattern} {here : Cursor} {m : Match} (h : p.matchAt? here = some m)
    (hlt : m.start < m.stop) : p.allAt here = [m] := by
  rw [allAt, h]
  exact if_pos hlt

/-- The matches from a place on, after `skip` characters, are those that the scanner finds there. -/
theorem allFrom_eq_scan {p : Pattern} {t : Text} (o : Occurrences t)
    (ho : ∀ q ≤ t.length, (p.matchAt? (place t q [])).map (·.stop) = o.stop? q)
    (skip : ℕ) {q : ℕ} (hq : q + skip ≤ t.length) :
    (p.allFrom skip (t.take q).getLast? q (t.drop q)).map (fun m => (m.start, m.stop)) =
      o.scan (q + skip) := by
  induction h : t.drop q generalizing q skip with
  | nil =>
      have hlen : t.length ≤ q := List.drop_eq_nil_iff.mp h
      obtain rfl : skip = 0 := by omega
      have hplace : (⟨(t.take q).getLast?, q, [], []⟩ : Cursor) = place t q [] := by
        rw [place, h]
      have hnone : p.matchAt? (place t q []) = none := by
        have hstop := ho q hq
        rw [← Option.map_eq_none_iff, hstop]
        by_contra hsome
        obtain ⟨e, he⟩ := Option.ne_none_iff_exists'.mp hsome
        have hlt := o.lt_stop he
        have hle := o.stop_le he
        omega
      rw [allFrom, hplace, allAt_of_none hnone, o.scan_of_length_le (by omega)]
      rfl
  | cons c r ih =>
      obtain ⟨hget, hrest⟩ := Text.getElem?_of_drop h
      have hlt : q < t.length := (List.getElem?_eq_some_iff.mp hget).1
      have hplace : (⟨(t.take q).getLast?, q, c :: r, []⟩ : Cursor) = place t q [] := by
        rw [place, h]
      have hafter : ∀ skip, q + 1 + skip ≤ t.length →
          (p.allFrom skip (some c) (q + 1) r).map (fun m => (m.start, m.stop)) =
            o.scan (q + 1 + skip) := by
        intro skip hskip
        rw [← Text.getLast?_take_succ hget]
        exact ih skip hskip hrest
      cases skip with
      | succ skip => rw [allFrom, hafter skip (by omega), Nat.add_right_comm, Nat.add_assoc]
      | zero =>
          have hstop := ho q hlt.le
          rw [allFrom, hplace]
          cases hm : p.matchAt? (place t q []) with
          | none =>
              rw [hm] at hstop
              rw [allAt_of_none hm]
              exact (hafter 0 hlt).trans (o.scan_of_none hstop.symm).symm
          | some m =>
              rw [hm] at hstop
              have hstart : m.start = q := matchAt?_place_start hm
              have hmlt : q < m.stop := o.lt_stop hstop.symm
              have hmle : m.stop ≤ t.length := o.stop_le hstop.symm
              have hcovered : covered [m] - 1 = m.stop - (q + 1) := by
                simp only [covered, List.foldr_cons, List.foldr_nil]
                omega
              rw [allAt_of_some hm (by omega), hcovered, List.map_append, hafter _ (by omega),
                Nat.add_sub_cancel' hmlt, Nat.add_zero, o.scan_of_some hstop.symm, ← hstart]
              rfl

theorem all_eq_scan {p : Pattern} {t : Text} (o : Occurrences t)
    (ho : ∀ q ≤ t.length, (p.matchAt? (place t q [])).map (·.stop) = o.stop? q) :
    (p.all t).map (fun m => (m.start, m.stop)) = o.scan 0 :=
  allFrom_eq_scan o ho 0 (Nat.zero_le _)

section Runs

variable {p : Pattern} {t : Text} (o : Occurrences t)
  (ho : ∀ q, p.run (place t q []) some = (o.stop? q).map (place t · []))

include ho

/-- A pattern that goes on where things of some kind stop finds these things. -/
theorem all_eq_scan_of_run : (p.all t).map (fun m => (m.start, m.stop)) = o.scan 0 := by
  apply all_eq_scan
  intro q _
  rw [matchAt?, ho, Option.map_map, Option.map_map]
  exact Option.map_id'

theorem stop?_of_mem_all {m : Match} (h : m ∈ p.all t) : o.stop? m.start = some m.stop := by
  have hmem := List.mem_map_of_mem (f := fun m : Match => (m.start, m.stop)) h
  rw [all_eq_scan_of_run o ho] at hmem
  exact (o.mem_scan hmem).2

end Runs

end Pattern

end MarkupAudit
