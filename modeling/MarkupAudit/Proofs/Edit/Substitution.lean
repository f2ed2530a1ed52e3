import MarkupAudit.Proofs.Edit.Requests

/-! # Batches as simultaneous substitutions

A batch holds the pending edits in order. Applying them from the last one to the first replaces
all parts at once. -/

namespace MarkupAudit

namespace Edit

/-- The text from `cursor` on with the parts of the edits replaced: what stands between two parts
is kept, and each part gives way to its new text. -/
def substitution (t : Text) (cursor : ℕ) : List Edit → Text
  | [] => t.drop cursor
  | e :: edits => Text.slice t cursor e.start ++ e.newText ++ substitution t e.stop edits

/-! ## Order -/

theorem before_iff (e f : Edit) :
    e.before f ↔ e.start < f.start ∨ e.start = f.start ∧ e.stop ≤ f.stop := by
  simp [before]

instance : Std.Total (fun e f : Edit => e.before f) where
  total e f := by
    simp only [before_iff]
    omega

instance : IsTrans Edit (fun e f => e.before f) where
  trans e f g := by
    simp only [before_iff]
    omega

theorem insertInOrder_eq_orderedInsert (e : Edit) (edits : List Edit) :
    insertInOrder e edits = edits.orderedInsert (fun e f => e.before f) e := by
  induction edits with
  | nil => rfl
  | cons f edits ih => rw [insertInOrder, List.orderedInsert_cons, ih]

theorem inOrder_eq_insertionSort (edits : List Edit) :
    inOrder edits = edits.insertionSort (fun e f => e.before f) := by
  induction edits with
  | nil => rfl
  | cons e edits ih =>
      rw [List.insertionSort_cons, ← ih, ← insertInOrder_eq_orderedInsert]
      rfl

theorem inOrder_perm (edits : List Edit) : (inOrder edits).Perm edits := by
  rw [inOrder_eq_insertionSort]
  exact List.perm_insertionSort _ edits

theorem inOrder_sorted (edits : List Edit) :
    (inOrder edits).Pairwise (fun e f => e.before f) := by
  rw [inOrder_eq_insertionSort]
  exact List.pairwise_insertionSort _ edits

/-- Of two edits apart, the one that comes first stops where the other starts or earlier. An empty
part comes before a longer one that starts at the same place. -/
theorem stop_le_start_of_before {t : Text} {e f : Edit} (hbefore : e.before f) (hapart : e.Apart f)
    (he : e.Within t) (hf : f.Within t) : e.stop ≤ f.start := by
  rw [before_iff] at hbefore
  simp only [Apart, ne_eq, Prod.mk.injEq] at hapart
  unfold Within at he hf
  omega

theorem inOrder_separated {t : Text} {edits : List Edit} (hapart : edits.Pairwise Apart)
    (hwithin : ∀ e ∈ edits, e.Within t) :
    (inOrder edits).Pairwise (fun e f => e.stop ≤ f.start) := by
  have hapart' : (inOrder edits).Pairwise Apart :=
    ((inOrder_perm edits).pairwise_iff Apart.symm).mpr hapart
  refine List.Pairwise.imp_of_mem ?_ ((inOrder_sorted edits).and hapart')
  intro e f he hf h
  have hmem : ∀ {g}, g ∈ inOrder edits → g.Within t :=
    fun hg => hwithin _ ((inOrder_perm edits).mem_iff.mp hg)
  exact stop_le_start_of_before h.1 h.2 (hmem he) (hmem hf)

end Edit

namespace Batch

/-! ## Substitution -/

/-- Replacing parts from the last one to the first leaves what precedes them alone, so the offsets
of the parts still to come stay right. The cursor stands before all parts. -/
theorem replaceAll_eq_substitution {t : Text} (cursor : ℕ) {edits : List Edit}
    (hcursor : ∀ e ∈ edits, cursor ≤ e.start) (hwithin : ∀ e ∈ edits, e.Within t)
    (hseparated : edits.Pairwise (fun e f => e.stop ≤ f.start)) :
    replaceAll edits t = t.take cursor ++ Edit.substitution t cursor edits := by
  induction edits generalizing cursor with
  | nil => exact (List.take_append_drop cursor t).symm
  | cons e edits ih =>
      obtain ⟨hhead, htail⟩ := List.pairwise_cons.mp hseparated
      obtain ⟨hle, hlen⟩ := hwithin e (by simp)
      have hc : cursor ≤ e.start := hcursor e (by simp)
      have hrest : replaceAll edits t = t.take e.stop ++ Edit.substitution t e.stop edits :=
        ih e.stop hhead (fun f hf => hwithin f (by simp [hf])) htail
      have hstop : (t.take e.stop).length = e.stop := List.length_take_of_le hlen
      have hfront : (replaceAll edits t).take e.start = t.take e.start := by
        rw [hrest, List.take_append_of_le_length (by omega), List.take_take, min_eq_left hle]
      have hback : (replaceAll edits t).drop e.stop = Edit.substitution t e.stop edits := by
        rw [hrest, List.drop_append_of_le_length (by omega), List.drop_take_self, List.nil_append]
      have hkept : t.take e.start = t.take cursor ++ Text.slice t cursor e.start := by
        rw [Text.slice_natCast]
        conv_lhs => rw [← List.take_append_drop cursor (t.take e.start)]
        rw [List.take_take, min_eq_left hc]
      calc replaceAll (e :: edits) t
          = (replaceAll edits t).take e.start ++ e.newText ++ (replaceAll edits t).drop e.stop := rfl
        _ = t.take cursor ++ Text.slice t cursor e.start ++ e.newText ++
              Edit.substitution t e.stop edits := by rw [hfront, hback, hkept]
        _ = t.take cursor ++ Edit.substitution t cursor (e :: edits) := by
              simp only [Edit.substitution, List.append_assoc]

/-- The batch holds exactly the pending edits, in order and separated, and applying it to the text
of the snapshot is the simultaneous substitution. -/
structure BuildSpec (s : Snapshot) (pending : List Edit) (batch : Batch) : Prop where
  perm : batch.edits.Perm pending
  sorted : batch.edits.Pairwise (fun e f => e.before f)
  keys_nodup : (batch.edits.map fun e => (e.start, e.stop)).Nodup
  within : ∀ e ∈ batch.edits, e.start ≤ e.stop ∧ e.stop ≤ s.text.length
  separated : ∀ (i : ℕ) (h : i + 1 < batch.edits.length),
    batch.edits[i].stop ≤ batch.edits[i + 1].start
  apply_eq : batch.apply s.text = .ok (Edit.substitution s.text 0 batch.edits)

end Batch

namespace EditBuilder

theorem Disjoint.build_spec {b : EditBuilder} (hb : b.Disjoint) :
    Batch.BuildSpec b.snapshot b.edits b.build := by
  have hperm : (Edit.inOrder b.edits).Perm b.edits := Edit.inOrder_perm b.edits
  have hwithin : ∀ e ∈ Edit.inOrder b.edits, e.Within b.snapshot.text :=
    fun e he => hb.within e (hperm.mem_iff.mp he)
  have hseparated := Edit.inOrder_separated hb.apart hb.within
  refine ⟨hperm, Edit.inOrder_sorted b.edits, ?_, hwithin, ?_, ?_⟩
  · have hnodup : (b.edits.map fun e => (e.start, e.stop)).Nodup := by
      rw [List.Nodup, List.pairwise_map]
      exact hb.apart.imp And.left
    exact (hperm.map _).nodup_iff.mpr hnodup
  · intro i h
    exact List.pairwise_iff_getElem.mp hseparated i (i + 1) (Nat.lt_of_succ_lt h) h
      (Nat.lt_succ_self i)
  · have hsubst : Batch.replaceAll (Edit.inOrder b.edits) b.snapshot.text =
        Edit.substitution b.snapshot.text 0 (Edit.inOrder b.edits) := by
      simpa using Batch.replaceAll_eq_substitution 0 (by simp) hwithin hseparated
    have hdigest : contentDigest b.snapshot.text = b.build.digest := rfl
    rw [Batch.apply, if_pos hdigest]
    exact congrArg Except.ok hsubst

/-- Whatever has been asked of a fresh builder, accepted or refused, it answers every further
request by the rule and builds a batch of separated edits that substitutes them all at once. -/
theorem respondAll_build_substitution (s : Snapshot) (rs : List EditRequest) :
    let b := respondAll { snapshot := s } rs
    b.snapshot = s ∧
      (∀ r : EditRequest, ResponseSpec b r (b.respond r).1 (b.respond r).2) ∧
      Batch.BuildSpec s b.edits b.build := by
  intro b
  have hs : b.snapshot = s := respondAll_snapshot { snapshot := s } rs
  have hb : b.Disjoint := (disjoint_initial s).respondAll rs
  refine ⟨hs, respond_spec b, ?_⟩
  rw [← hs]
  exact hb.build_spec

end EditBuilder

end MarkupAudit
