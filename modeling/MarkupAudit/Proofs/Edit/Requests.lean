import MarkupAudit.Edit.Basic
import Mathlib.Data.List.Pairwise
import Mathlib.Data.List.Sort

/-! # Requests to an edit builder

A builder refuses a request for a part outside the text and one for a new part that overlaps a
pending edit. Whatever is asked, the pending edits stay inside the text and apart from each other. -/

namespace MarkupAudit

/-- A request to replace the part between two offsets, which may be any integers. -/
structure EditRequest where
  start : ℤ
  stop : ℤ
  newText : Text
  ruleId : String := ""

namespace Edit

/-- Two edits replace different parts that have at most an end in common. -/
def Apart (e f : Edit) : Prop :=
  (e.start, e.stop) ≠ (f.start, f.stop) ∧ (e.stop ≤ f.start ∨ f.stop ≤ e.start)

/-- The edit replaces a part of the text. -/
def Within (t : Text) (e : Edit) : Prop :=
  e.start ≤ e.stop ∧ e.stop ≤ t.length

/-- What the request for exactly its part makes of an edit; other edits stay as they are. -/
def revise (r : EditRequest) (e : Edit) : Edit :=
  if e.isAt r.start r.stop then
    { e with newText := r.newText, ruleIds := EditBuilder.addId e.ruleIds r.ruleId }
  else e

/-- The edit that a request for a new part asks for. -/
def ofRequest (r : EditRequest) : Edit where
  start := r.start.toNat
  stop := r.stop.toNat
  newText := r.newText
  ruleIds := EditBuilder.addId [] r.ruleId

theorem Apart.symm {e f : Edit} (h : Apart e f) : Apart f e :=
  ⟨h.1.symm, h.2.symm⟩

instance : Std.Symm Apart := ⟨fun _ _ => Apart.symm⟩

@[simp] theorem isAt_iff (start stop : ℤ) (e : Edit) :
    e.isAt start stop ↔ start = e.start ∧ stop = e.stop := by
  simp [isAt]

@[simp] theorem overlaps_iff (start stop : ℤ) (e : Edit) :
    e.overlaps start stop ↔ start < e.stop ∧ e.start < stop := by
  simp [overlaps]

@[simp] theorem revise_start (r : EditRequest) (e : Edit) : (e.revise r).start = e.start := by
  unfold revise
  split <;> rfl

@[simp] theorem revise_stop (r : EditRequest) (e : Edit) : (e.revise r).stop = e.stop := by
  unfold revise
  split <;> rfl

theorem revise_of_isAt {r : EditRequest} {e : Edit} (h : e.isAt r.start r.stop) :
    e.revise r =
      { e with newText := r.newText, ruleIds := EditBuilder.addId e.ruleIds r.ruleId } :=
  if_pos h

theorem revise_of_not_isAt {r : EditRequest} {e : Edit} (h : ¬ e.isAt r.start r.stop) :
    e.revise r = e :=
  if_neg h

end Edit

namespace EditBuilder

/-- The request is for a part of the text. -/
def InRange (b : EditBuilder) (r : EditRequest) : Prop :=
  0 ≤ r.start ∧ r.start ≤ r.stop ∧ r.stop ≤ b.snapshot.text.length

/-- The request is for a part that has no pending edit and overlaps the part of one. -/
def Collides (b : EditBuilder) (r : EditRequest) : Prop :=
  (∀ e ∈ b.edits, ¬ (r.start = e.start ∧ r.stop = e.stop)) ∧
    ∃ e ∈ b.edits, r.start < e.stop ∧ e.start < r.stop

/-- What a builder holds after a request, and the error if it was refused. -/
def respond (b : EditBuilder) (r : EditRequest) : EditBuilder × Option EditError :=
  match b.replace r.start r.stop r.newText r.ruleId with
  | .ok next => (next, none)
  | .error e => (b, some e)

/-- What a builder holds after requests, of which some may have been refused. -/
def respondAll (b : EditBuilder) (rs : List EditRequest) : EditBuilder :=
  rs.foldl (fun b r => (b.respond r).1) b

/-! ## The four outcomes of a request -/

theorem replace_of_not_inRange {b : EditBuilder} {r : EditRequest} (h : ¬ b.InRange r) :
    b.replace r.start r.stop r.newText r.ruleId = .error (.outside r.start r.stop) := by
  unfold InRange at h
  unfold replace
  rw [if_pos]
  simp only [Bool.not_eq_true', Bool.and_eq_false_iff, decide_eq_false_iff_not]
  omega

theorem replace_of_inRange {b : EditBuilder} {r : EditRequest} (h : b.InRange r) :
    b.replace r.start r.stop r.newText r.ruleId =
      if (b.pending? r.start r.stop).isSome then
        .ok { b with edits := b.edits.map (Edit.revise r) }
      else match b.edits.find? (Edit.overlaps r.start r.stop) with
        | some e => .error (.overlap r.start r.stop e.start e.stop)
        | none => .ok { b with edits := b.edits ++ [Edit.ofRequest r] } := by
  obtain ⟨h0, h1, h2⟩ := h
  unfold replace
  simp only [h0, h1, h2, decide_true, Bool.and_self, Bool.not_true, Bool.false_eq_true, ite_false]
  rfl

theorem replace_of_pending {b : EditBuilder} {r : EditRequest} {e : Edit} (h : b.InRange r)
    (hp : b.pending? r.start r.stop = some e) :
    b.replace r.start r.stop r.newText r.ruleId =
      .ok { b with edits := b.edits.map (Edit.revise r) } := by
  simp [replace_of_inRange h, hp]

theorem replace_of_overlap {b : EditBuilder} {r : EditRequest} {e : Edit} (h : b.InRange r)
    (hp : b.pending? r.start r.stop = none)
    (ho : b.edits.find? (Edit.overlaps r.start r.stop) = some e) :
    b.replace r.start r.stop r.newText r.ruleId =
      .error (.overlap r.start r.stop e.start e.stop) := by
  simp [replace_of_inRange h, hp, ho]

theorem replace_of_free {b : EditBuilder} {r : EditRequest} (h : b.InRange r)
    (hp : b.pending? r.start r.stop = none)
    (ho : b.edits.find? (Edit.overlaps r.start r.stop) = none) :
    b.replace r.start r.stop r.newText r.ruleId =
      .ok { b with edits := b.edits ++ [Edit.ofRequest r] } := by
  simp [replace_of_inRange h, hp, ho]

/-- An accepted request is for a part of the text. It revises the pending edit of that part, or
adds an edit if there is none and no pending edit overlaps the part. -/
theorem replace_eq_ok {b next : EditBuilder} {r : EditRequest}
    (h : b.replace r.start r.stop r.newText r.ruleId = .ok next) :
    b.InRange r ∧
      ((∃ e, b.pending? r.start r.stop = some e ∧
          next = { b with edits := b.edits.map (Edit.revise r) }) ∨
        (b.pending? r.start r.stop = none ∧
          b.edits.find? (Edit.overlaps r.start r.stop) = none ∧
          next = { b with edits := b.edits ++ [Edit.ofRequest r] })) := by
  by_cases hr : b.InRange r
  swap
  · simp [replace_of_not_inRange hr] at h
  refine ⟨hr, ?_⟩
  cases hp : b.pending? r.start r.stop with
  | some e =>
      rw [replace_of_pending hr hp] at h
      exact .inl ⟨e, rfl, (Except.ok.inj h).symm⟩
  | none =>
      cases ho : b.edits.find? (Edit.overlaps r.start r.stop) with
      | some e => simp [replace_of_overlap hr hp ho] at h
      | none =>
          rw [replace_of_free hr hp ho] at h
          exact .inr ⟨rfl, rfl, (Except.ok.inj h).symm⟩

theorem replace_snapshot {b next : EditBuilder} {r : EditRequest}
    (h : b.replace r.start r.stop r.newText r.ruleId = .ok next) :
    next.snapshot = b.snapshot := by
  obtain ⟨-, ⟨e, -, rfl⟩ | ⟨-, -, rfl⟩⟩ := replace_eq_ok h <;> rfl

/-! ## Pending edits -/

theorem pending?_eq_some {b : EditBuilder} {start stop : ℤ} {e : Edit}
    (h : b.pending? start stop = some e) : e ∈ b.edits ∧ start = e.start ∧ stop = e.stop :=
  ⟨List.mem_of_find?_eq_some h, (Edit.isAt_iff _ _ _).mp (List.find?_some h)⟩

theorem pending?_eq_none_iff {b : EditBuilder} {start stop : ℤ} :
    b.pending? start stop = none ↔ ∀ e ∈ b.edits, ¬ (start = e.start ∧ stop = e.stop) := by
  simp [pending?]

theorem pending?_map_revise (b : EditBuilder) (r : EditRequest) (start stop : ℤ) :
    { b with edits := b.edits.map (Edit.revise r) }.pending? start stop =
      (b.pending? start stop).map (Edit.revise r) := by
  have hkey : Edit.isAt start stop ∘ Edit.revise r = Edit.isAt start stop := by
    funext e
    simp [Edit.isAt]
  simp only [pending?, List.find?_map, hkey]

theorem pending?_map_revise_of_ne (b : EditBuilder) (r : EditRequest) (start stop : ℤ)
    (hkey : ¬ (start = r.start ∧ stop = r.stop)) :
    (b.pending? start stop).map (Edit.revise r) = b.pending? start stop := by
  cases hp : b.pending? start stop with
  | none => rfl
  | some e =>
      obtain ⟨-, hstart, hstop⟩ := pending?_eq_some hp
      have he : ¬ e.isAt r.start r.stop := by
        rw [Edit.isAt_iff]
        omega
      simp [Edit.revise_of_not_isAt he]

theorem pending?_append_ofRequest (b : EditBuilder) (r : EditRequest) (hr : b.InRange r)
    (start stop : ℤ) :
    { b with edits := b.edits ++ [Edit.ofRequest r] }.pending? start stop =
      (b.pending? start stop).or
        (if start = r.start ∧ stop = r.stop then some (Edit.ofRequest r) else none) := by
  have hstart : (r.start.toNat : ℤ) = r.start := Int.toNat_of_nonneg hr.1
  have hstop : (r.stop.toNat : ℤ) = r.stop := Int.toNat_of_nonneg (hr.1.trans hr.2.1)
  simp [pending?, List.find?_append, List.find?_singleton, Edit.isAt, Edit.ofRequest, hstart, hstop]

theorem collides_iff {b : EditBuilder} {r : EditRequest} :
    b.Collides r ↔ b.pending? r.start r.stop = none ∧
      ∃ e, b.edits.find? (Edit.overlaps r.start r.stop) = some e := by
  unfold Collides
  rw [pending?_eq_none_iff, ← Option.isSome_iff_exists, List.find?_isSome]
  simp only [Edit.overlaps_iff]

/-- A request for a part of the text is accepted, or it names a pending edit that overlaps it. -/
theorem replace_ok_or_overlap {b : EditBuilder} {r : EditRequest} (hr : b.InRange r) :
    (¬ b.Collides r ∧ ∃ next, b.replace r.start r.stop r.newText r.ruleId = .ok next) ∨
      (b.Collides r ∧ ∃ e ∈ b.edits, (r.start < e.stop ∧ e.start < r.stop) ∧
        b.replace r.start r.stop r.newText r.ruleId =
          .error (.overlap r.start r.stop e.start e.stop)) := by
  cases hp : b.pending? r.start r.stop with
  | some e => exact .inl ⟨by simp [collides_iff, hp], _, replace_of_pending hr hp⟩
  | none =>
      cases ho : b.edits.find? (Edit.overlaps r.start r.stop) with
      | none => exact .inl ⟨by simp [collides_iff, ho], _, replace_of_free hr hp ho⟩
      | some e =>
          refine .inr ⟨collides_iff.mpr ⟨hp, e, ho⟩, e, List.mem_of_find?_eq_some ho, ?_,
            replace_of_overlap hr hp ho⟩
          exact (Edit.overlaps_iff _ _ _).mp (List.find?_some ho)

/-- A request that is not refused puts its text in place of its part and leaves all other parts
alone. The rule is added to those that asked for the part before. -/
theorem pending?_replace {b next : EditBuilder} {r : EditRequest}
    (h : b.replace r.start r.stop r.newText r.ruleId = .ok next) (start stop : ℤ) :
    next.pending? start stop =
      if start = r.start ∧ stop = r.stop then
        some { start := r.start.toNat
               stop := r.stop.toNat
               newText := r.newText
               ruleIds := addId (((b.pending? r.start r.stop).map (·.ruleIds)).getD []) r.ruleId }
      else b.pending? start stop := by
  obtain ⟨hr, ⟨e, hp, rfl⟩ | ⟨hp, -, rfl⟩⟩ := replace_eq_ok h
  · rw [pending?_map_revise]
    by_cases hkey : start = r.start ∧ stop = r.stop
    · obtain ⟨-, hstart, hstop⟩ := pending?_eq_some hp
      have he : e.isAt r.start r.stop := (Edit.isAt_iff _ _ _).mpr ⟨hstart, hstop⟩
      rw [if_pos hkey, hkey.1, hkey.2, hp]
      simp [Edit.revise_of_isAt he, hstart, hstop]
    · rw [if_neg hkey, pending?_map_revise_of_ne b r start stop hkey]
  · rw [pending?_append_ofRequest b r hr]
    by_cases hkey : start = r.start ∧ stop = r.stop
    · rw [if_pos hkey, if_pos hkey, hkey.1, hkey.2, hp]
      rfl
    · rw [if_neg hkey, if_neg hkey, Option.or_none]

/-! ## Disjointness -/

/-- All pending edits are inside the text and apart from each other. -/
structure Disjoint (b : EditBuilder) : Prop where
  within : ∀ e ∈ b.edits, e.Within b.snapshot.text
  apart : b.edits.Pairwise Edit.Apart

theorem disjoint_initial (s : Snapshot) : Disjoint { snapshot := s } :=
  ⟨by simp, by simp⟩

/-- The parts of pending edits are distinct, so an edit is pending just for its own part. -/
theorem Disjoint.pending?_eq_some_iff {b : EditBuilder} (h : b.Disjoint) {start stop : ℤ}
    {e : Edit} :
    b.pending? start stop = some e ↔ e ∈ b.edits ∧ start = e.start ∧ stop = e.stop := by
  refine ⟨pending?_eq_some, ?_⟩
  rintro ⟨he, rfl, rfl⟩
  cases hp : b.pending? e.start e.stop with
  | none => exact (pending?_eq_none_iff.mp hp e he ⟨rfl, rfl⟩).elim
  | some f =>
      obtain ⟨hf, hstart, hstop⟩ := pending?_eq_some hp
      by_contra hne
      have hef : e.Apart f :=
        h.apart.forall he hf (fun heq => hne (by rw [heq]))
      simp only [Edit.Apart, ne_eq, Prod.mk.injEq] at hef
      omega

theorem Disjoint.map_revise {b : EditBuilder} (h : b.Disjoint) (r : EditRequest) :
    Disjoint { b with edits := b.edits.map (Edit.revise r) } := by
  refine ⟨?_, ?_⟩
  · intro e he
    obtain ⟨f, hf, rfl⟩ := List.mem_map.mp he
    simpa [Edit.Within] using h.within f hf
  · rw [List.pairwise_map]
    apply h.apart.imp
    intro e f hef
    simpa [Edit.Apart] using hef

/-- The test for overlap is strict on both sides, so an empty part may touch another part but not
lie inside it. -/
theorem apart_ofRequest {b : EditBuilder} {r : EditRequest} (hr : b.InRange r)
    (hp : b.pending? r.start r.stop = none)
    (ho : b.edits.find? (Edit.overlaps r.start r.stop) = none) :
    ∀ e ∈ b.edits, e.Apart (Edit.ofRequest r) := by
  intro e he
  obtain ⟨h0, h1, -⟩ := hr
  have hkey := pending?_eq_none_iff.mp hp e he
  have hover : ¬ e.overlaps r.start r.stop := List.find?_eq_none.mp ho e he
  rw [Edit.overlaps_iff] at hover
  simp only [Edit.Apart, Edit.ofRequest, ne_eq, Prod.mk.injEq]
  omega

theorem Disjoint.append_ofRequest {b : EditBuilder} (h : b.Disjoint) {r : EditRequest}
    (hr : b.InRange r) (hp : b.pending? r.start r.stop = none)
    (ho : b.edits.find? (Edit.overlaps r.start r.stop) = none) :
    Disjoint { b with edits := b.edits ++ [Edit.ofRequest r] } := by
  refine ⟨?_, ?_⟩
  · intro e he
    rcases List.mem_append.mp he with he | he
    · exact h.within e he
    · obtain rfl := List.mem_singleton.mp he
      obtain ⟨h0, h1, h2⟩ := hr
      simp only [Edit.Within, Edit.ofRequest]
      omega
  · refine List.pairwise_append.mpr ⟨h.apart, List.pairwise_singleton _ _, ?_⟩
    intro e he f hf
    obtain rfl := List.mem_singleton.mp hf
    exact apart_ofRequest hr hp ho e he

theorem Disjoint.replace {b next : EditBuilder} {r : EditRequest} (hb : b.Disjoint)
    (h : b.replace r.start r.stop r.newText r.ruleId = .ok next) : next.Disjoint := by
  obtain ⟨hr, ⟨e, -, rfl⟩ | ⟨hp, ho, rfl⟩⟩ := replace_eq_ok h
  · exact hb.map_revise r
  · exact hb.append_ofRequest hr hp ho

/-! ## Runs of requests -/

/-- A request is refused for one of two reasons, of which the range is looked at first, and then
leaves the builder as it was. Otherwise its part, and no other, has the requested text. -/
structure ResponseSpec (b : EditBuilder) (r : EditRequest) (next : EditBuilder)
    (error : Option EditError) : Prop where
  outside_iff : error = some (.outside r.start r.stop) ↔ ¬ b.InRange r
  overlap_iff : (∃ e ∈ b.edits, error = some (.overlap r.start r.stop e.start e.stop)) ↔
    b.InRange r ∧ b.Collides r
  accepted_iff : error = none ↔ b.InRange r ∧ ¬ b.Collides r
  refused : error ≠ none → next.edits = b.edits
  accepted : error = none → ∀ start stop : ℤ, next.pending? start stop =
    if start = r.start ∧ stop = r.stop then
      some { start := r.start.toNat
             stop := r.stop.toNat
             newText := r.newText
             ruleIds := addId (((b.pending? r.start r.stop).map (·.ruleIds)).getD []) r.ruleId }
    else b.pending? start stop

theorem respond_spec (b : EditBuilder) (r : EditRequest) :
    ResponseSpec b r (b.respond r).1 (b.respond r).2 := by
  by_cases hr : b.InRange r
  swap
  · have h : b.respond r = (b, some (.outside r.start r.stop)) := by
      simp only [respond, replace_of_not_inRange hr]
    rw [h]
    exact ⟨by simp [hr], by simp [hr], by simp [hr], by simp, by simp⟩
  obtain ⟨hc, next, hnext⟩ | ⟨hc, e, he, -, herror⟩ := replace_ok_or_overlap hr
  · have h : b.respond r = (next, none) := by simp only [respond, hnext]
    rw [h]
    exact ⟨by simp [hr], by simp [hc], by simp [hr, hc], by simp,
      fun _ => pending?_replace hnext⟩
  · have h : b.respond r = (b, some (.overlap r.start r.stop e.start e.stop)) := by
      simp only [respond, herror]
    rw [h]
    exact ⟨by simp [hr], by simpa [hr, hc] using ⟨e, he, rfl, rfl⟩, by simp [hr, hc], by simp,
      by simp⟩

theorem respond_snapshot (b : EditBuilder) (r : EditRequest) :
    (b.respond r).1.snapshot = b.snapshot := by
  unfold respond
  split
  · rename_i next h
    exact replace_snapshot h
  · rfl

theorem Disjoint.respond {b : EditBuilder} (hb : b.Disjoint) (r : EditRequest) :
    (b.respond r).1.Disjoint := by
  unfold EditBuilder.respond
  split
  · rename_i next h
    exact hb.replace h
  · exact hb

theorem respondAll_snapshot (b : EditBuilder) (rs : List EditRequest) :
    (b.respondAll rs).snapshot = b.snapshot := by
  induction rs generalizing b with
  | nil => rfl
  | cons r rs ih => exact (ih (b.respond r).1).trans (respond_snapshot b r)

/-- Disjointness survives every sequence of requests, refused ones included. -/
theorem Disjoint.respondAll {b : EditBuilder} (hb : b.Disjoint) (rs : List EditRequest) :
    (b.respondAll rs).Disjoint := by
  induction rs generalizing b with
  | nil => exact hb
  | cons r rs ih => exact ih (hb.respond r)

end EditBuilder

end MarkupAudit
