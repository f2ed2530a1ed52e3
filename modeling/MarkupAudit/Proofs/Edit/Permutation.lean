import MarkupAudit.Proofs.Edit.Substitution

/-! # Requests in any order

The test for overlap does not tell which of two parts was asked for first. So requests for distinct
parts are all accepted in every order or in none, and a batch does not remember the order. -/

namespace MarkupAudit

namespace EditRequest

/-- The part that the request is for. -/
def key (r : EditRequest) : ℤ × ℤ :=
  (r.start, r.stop)

/-- The parts of two requests overlap. Parts that only touch do not, and an empty part overlaps one
that it stands inside. -/
def Overlaps (q r : EditRequest) : Prop :=
  q.start < r.stop ∧ r.start < q.stop

theorem Overlaps.symm {q r : EditRequest} (h : q.Overlaps r) : r.Overlaps q :=
  ⟨h.2, h.1⟩

/-- The requests are for parts of the text, of which no two overlap. -/
structure Compatible (t : Text) (rs : List EditRequest) : Prop where
  inRange : ∀ r ∈ rs, 0 ≤ r.start ∧ r.start ≤ r.stop ∧ r.stop ≤ t.length
  apart : rs.Pairwise fun q r => ¬q.Overlaps r

theorem compatible_iff_of_perm {t : Text} {qs rs : List EditRequest} (h : qs.Perm rs) :
    Compatible t qs ↔ Compatible t rs := by
  have hapart : qs.Pairwise (fun q r => ¬q.Overlaps r) ↔ rs.Pairwise fun q r => ¬q.Overlaps r :=
    h.pairwise_iff fun hnot hover => hnot hover.symm
  constructor
  · rintro ⟨hrange, hpairs⟩
    exact ⟨fun r hr => hrange r (h.mem_iff.mpr hr), hapart.mp hpairs⟩
  · rintro ⟨hrange, hpairs⟩
    exact ⟨fun r hr => hrange r (h.mem_iff.mp hr), hapart.mpr hpairs⟩

/-- With one more request, it must fit all others. -/
theorem compatible_concat {t : Text} {rs : List EditRequest} {r : EditRequest} :
    Compatible t (rs ++ [r]) ↔
      Compatible t rs ∧ (0 ≤ r.start ∧ r.start ≤ r.stop ∧ r.stop ≤ t.length) ∧
        ∀ q ∈ rs, ¬q.Overlaps r := by
  constructor
  · rintro ⟨hrange, hpairs⟩
    obtain ⟨hbefore, -, hlast⟩ := List.pairwise_append.mp hpairs
    exact ⟨⟨fun q hq => hrange q (by simp [hq]), hbefore⟩, hrange r (by simp),
      fun q hq => hlast q hq r (by simp)⟩
  · rintro ⟨⟨hrange, hpairs⟩, hr, hlast⟩
    refine ⟨?_, List.pairwise_append.mpr ⟨hpairs, List.pairwise_singleton _ r, ?_⟩⟩
    · intro q hq
      rcases List.mem_append.mp hq with hq | hq
      · exact hrange q hq
      · rwa [List.mem_singleton.mp hq]
    · intro q hq q' hq'
      rw [List.mem_singleton.mp hq']
      exact hlast q hq

theorem Compatible.of_append {t : Text} {qs rs : List EditRequest} (h : Compatible t (qs ++ rs)) :
    Compatible t qs :=
  ⟨fun q hq => h.inRange q (by simp [hq]), (List.pairwise_append.mp h.apart).1⟩

end EditRequest

namespace EditBuilder

open EditRequest

/-- The errors of the requests that are refused, in order. -/
def refusals (b : EditBuilder) : List EditRequest → List EditError
  | [] => []
  | r :: rs => (b.respond r).2.toList ++ refusals (b.respond r).1 rs

/-! ## One request -/

/-- The builder has accepted just these requests, which are compatible. -/
structure Holds (b : EditBuilder) (held : List EditRequest) : Prop where
  edits_eq : b.edits = held.map Edit.ofRequest
  compatible : Compatible b.snapshot.text held

section Step

variable {b : EditBuilder} {held : List EditRequest} {r : EditRequest} (h : b.Holds held)
  (hkey : ∀ q ∈ held, q.key ≠ r.key)

include h hkey

/-- A request for a part that none of the others is for collides just if it overlaps one of them. -/
theorem Holds.collides_iff : b.Collides r ↔ ∃ q ∈ held, q.Overlaps r := by
  have hcast : ∀ q ∈ held, ((Edit.ofRequest q).start : ℤ) = q.start ∧
      ((Edit.ofRequest q).stop : ℤ) = q.stop := by
    intro q hq
    have hrange := h.compatible.inRange q hq
    simp only [Edit.ofRequest]
    omega
  have hnew : ∀ e ∈ b.edits, ¬(r.start = e.start ∧ r.stop = e.stop) := by
    rw [h.edits_eq, List.forall_mem_map]
    intro q hq hsame
    rw [(hcast q hq).1, (hcast q hq).2] at hsame
    exact hkey q hq (Prod.ext hsame.1.symm hsame.2.symm)
  have hover : ∀ q ∈ held, (r.start < (Edit.ofRequest q).stop ∧ (Edit.ofRequest q).start < r.stop ↔
      q.Overlaps r) := by
    intro q hq
    rw [(hcast q hq).1, (hcast q hq).2]
    exact and_comm
  rw [Collides, and_iff_right hnew, h.edits_eq]
  simp only [List.mem_map, exists_exists_and_eq_and]
  exact exists_congr fun q => and_congr_right (hover q)

/-- A request for a new part is accepted just if it fits those that were accepted. -/
theorem Holds.respond_eq_none_iff :
    (b.respond r).2 = none ↔ Compatible b.snapshot.text (held ++ [r]) := by
  rw [(respond_spec b r).accepted_iff, h.collides_iff hkey, compatible_concat,
    and_iff_right h.compatible]
  simp [InRange]

theorem Holds.respond (haccepted : (b.respond r).2 = none) :
    (b.respond r).1.Holds (held ++ [r]) := by
  have hcompatible := (h.respond_eq_none_iff hkey).mp haccepted
  rw [← respond_snapshot b r] at hcompatible
  refine ⟨?_, hcompatible⟩
  unfold EditBuilder.respond at haccepted ⊢
  split at haccepted
  · next next hnext =>
      obtain ⟨-, ⟨e, hpending, -⟩ | ⟨-, -, rfl⟩⟩ := replace_eq_ok hnext
      · obtain ⟨he, hstart, hstop⟩ := pending?_eq_some hpending
        obtain ⟨q, hq, rfl⟩ := List.mem_map.mp (h.edits_eq ▸ he)
        have hrange := h.compatible.inRange q hq
        refine absurd (Prod.ext ?_ ?_) (hkey q hq)
        · simp only [Edit.ofRequest, key] at hstart ⊢
          omega
        · simp only [Edit.ofRequest, key] at hstop ⊢
          omega
      · simp [h.edits_eq]
  · cases haccepted

end Step

/-! ## A run of requests -/

theorem refusals_cons_eq_nil_iff {b : EditBuilder} {r : EditRequest} {rs : List EditRequest} :
    b.refusals (r :: rs) = [] ↔ (b.respond r).2 = none ∧ (b.respond r).1.refusals rs = [] := by
  rw [refusals, List.append_eq_nil_iff, Option.toList_eq_nil_iff]

/-- No request is refused just if all are compatible with those that were accepted before, and then
the builder holds them all. -/
theorem Holds.respondAll {b : EditBuilder} {held rs : List EditRequest} (h : b.Holds held)
    (hkeys : ((held ++ rs).map key).Nodup) :
    (b.refusals rs = [] ↔ Compatible b.snapshot.text (held ++ rs)) ∧
      (b.refusals rs = [] → (b.respondAll rs).Holds (held ++ rs)) := by
  induction rs generalizing b held with
  | nil =>
      rw [List.append_nil]
      exact ⟨iff_of_true rfl h.compatible, fun _ => h⟩
  | cons r rs ih =>
      have hkey : ∀ q ∈ held, q.key ≠ r.key := by
        rw [List.map_append, List.nodup_append] at hkeys
        intro q hq
        exact hkeys.2.2 _ (List.mem_map_of_mem hq) _ (by simp)
      rw [List.append_cons] at hkeys ⊢
      rw [refusals_cons_eq_nil_iff]
      by_cases haccepted : (b.respond r).2 = none
      · obtain ⟨hiff, hholds⟩ := ih (h.respond hkey haccepted) hkeys
        rw [respond_snapshot] at hiff
        exact ⟨by rw [and_iff_right haccepted, hiff], fun hnone => hholds hnone.2⟩
      · have hrefused := (h.respond_eq_none_iff hkey).not.mp haccepted
        exact ⟨iff_of_false (fun hnone => haccepted hnone.1)
            (fun hcompatible => hrefused hcompatible.of_append),
          fun hnone => absurd hnone.1 haccepted⟩

end EditBuilder

/-! ## Batches -/

/-- Edits for distinct parts have one order. -/
theorem Edit.inOrder_eq_of_perm {es fs : List Edit} (h : es.Perm fs)
    (hkeys : (es.map fun e => (e.start, e.stop)).Nodup) : inOrder es = inOrder fs := by
  have hperm : (inOrder es).Perm (inOrder fs) :=
    ((inOrder_perm es).trans h).trans (inOrder_perm fs).symm
  refine List.Perm.eq_of_pairwise ?_ (inOrder_sorted es) (inOrder_sorted fs) hperm
  intro e f he hf hef hfe
  rw [before_iff] at hef hfe
  have hemem : e ∈ es := (inOrder_perm es).mem_iff.mp he
  have hfmem : f ∈ es := h.mem_iff.mpr ((inOrder_perm fs).mem_iff.mp hf)
  exact List.inj_on_of_nodup_map hkeys hemem hfmem (Prod.ext (by omega) (by omega))

namespace EditBuilder

open EditRequest

/-- A batch does not remember in which order its edits were asked for. -/
theorem Holds.build_eq {b c : EditBuilder} {qs rs : List EditRequest} (hb : b.Holds qs)
    (hc : c.Holds rs) (h : qs.Perm rs) (hdisjoint : b.Disjoint)
    (hsnapshot : b.snapshot = c.snapshot) :
    b.build = c.build := by
  have hspec := hdisjoint.build_spec
  have hkeys : (b.edits.map fun e => (e.start, e.stop)).Nodup :=
    (hspec.perm.map _).nodup_iff.mp hspec.keys_nodup
  have hperm : b.edits.Perm c.edits := by
    rw [hb.edits_eq, hc.edits_eq]
    exact h.map Edit.ofRequest
  rw [build, build, Edit.inOrder_eq_of_perm hperm hkeys, hsnapshot]

/-- Requests for distinct parts are compatible or not. If they are not, some request is refused in
every order. If they are, all are accepted in every order, and the batch is always the same: it has
the edit that each request asks for, and applying it substitutes them all at once. -/
theorem requests_in_any_order (s : Snapshot) (rs : List EditRequest)
    (hkeys : (rs.map key).Nodup) :
    (¬Compatible s.text rs ∧ ∀ qs, qs.Perm rs → refusals { snapshot := s } qs ≠ []) ∨
      (Compatible s.text rs ∧ ∃ batch : Batch,
        batch.edits.Perm (rs.map Edit.ofRequest) ∧
        batch.apply s.text = .ok (Edit.substitution s.text 0 batch.edits) ∧
        ∀ qs, qs.Perm rs →
          refusals { snapshot := s } qs = [] ∧
            (respondAll { snapshot := s } qs).build = batch) := by
  have hempty : Holds { snapshot := s } [] := ⟨rfl, ⟨by simp, .nil⟩⟩
  have hsnapshot : ∀ qs, (respondAll { snapshot := s } qs).snapshot = s := respondAll_snapshot _
  have hdisjoint : ∀ qs, (respondAll { snapshot := s } qs).Disjoint :=
    (disjoint_initial s).respondAll
  have hrun : ∀ qs, qs.Perm rs →
      (refusals { snapshot := s } qs = [] ↔ Compatible s.text rs) ∧
        (refusals { snapshot := s } qs = [] → (respondAll { snapshot := s } qs).Holds qs) := by
    intro qs hqs
    have hkeys' : (([] ++ qs).map key).Nodup := (hqs.map key).nodup_iff.mpr hkeys
    have hqs' := hempty.respondAll hkeys'
    rwa [List.nil_append, compatible_iff_of_perm hqs] at hqs'
  by_cases hcompatible : Compatible s.text rs
  · have haccepted : ∀ qs, qs.Perm rs → refusals { snapshot := s } qs = [] :=
      fun qs hqs => (hrun qs hqs).1.mpr hcompatible
    have hholds : ∀ qs, qs.Perm rs → (respondAll { snapshot := s } qs).Holds qs :=
      fun qs hqs => (hrun qs hqs).2 (haccepted qs hqs)
    have hspec := (hdisjoint rs).build_spec
    rw [hsnapshot, (hholds rs (.refl rs)).edits_eq] at hspec
    refine .inr ⟨hcompatible, _, hspec.perm, hspec.apply_eq, fun qs hqs => ⟨haccepted qs hqs, ?_⟩⟩
    exact (hholds qs hqs).build_eq (hholds rs (.refl rs)) hqs (hdisjoint qs)
      ((hsnapshot qs).trans (hsnapshot rs).symm)
  · exact .inl ⟨hcompatible, fun qs hqs => (hrun qs hqs).1.not.mpr hcompatible⟩

/-- Two empty parts at the ends of a part are compatible with it, and one inside it is not. -/
theorem requests_in_any_order_empty :
    let s : Snapshot := { text := "ab".toList }
    let whole : EditRequest := { start := 0, stop := 2, newText := "x".toList }
    let front : EditRequest := { start := 0, stop := 0, newText := "[".toList }
    let back : EditRequest := { start := 2, stop := 2, newText := "]".toList }
    let inner : EditRequest := { start := 1, stop := 1, newText := "-".toList }
    ([whole, back, front].map key).Nodup ∧ ([inner, whole].map key).Nodup ∧
      (∀ qs, qs.Perm [whole, back, front] → refusals { snapshot := s } qs = [] ∧
        (respondAll { snapshot := s } qs).build.apply s.text = .ok "[x]".toList) ∧
      ∀ qs, qs.Perm [inner, whole] → refusals { snapshot := s } qs ≠ [] := by
  intro s whole front back inner
  have htouch : ([whole, back, front].map key).Nodup := by decide
  have hinside : ([inner, whole].map key).Nodup := by decide
  refine ⟨htouch, hinside, ?_, ?_⟩
  · obtain ⟨-, hrefused⟩ | ⟨-, batch, -, happly, hall⟩ := requests_in_any_order s _ htouch
    · exact absurd rfl (hrefused _ (.refl _))
    · have hedits : batch.edits =
          [Edit.ofRequest front, Edit.ofRequest whole, Edit.ofRequest back] := by
        rw [← (hall _ (.refl _)).2]
        rfl
      rw [hedits] at happly
      intro qs hqs
      rw [(hall qs hqs).2]
      exact ⟨(hall qs hqs).1, happly⟩
  · obtain ⟨-, hrefused⟩ | ⟨-, batch, -, -, hall⟩ := requests_in_any_order s _ hinside
    · exact hrefused
    · exact absurd (hall _ (.refl _)).1 (by decide)

end EditBuilder

end MarkupAudit
