import MarkupAudit.Edit.Mending
import MarkupAudit.Proofs.Edit.Substitution

/-! # Mending as composition per part

The findings are mended in one pass, in which those of different parts may alternate. Its result is
the same as if each part were mended by itself: the repairs of its findings are composed, starting
from what stands there in the document. -/

namespace MarkupAudit

/-- The offsets of the part that a finding is about. -/
def Finding.part (f : Finding) : ℕ × ℕ :=
  (f.span.start, f.span.stop)

/-- One mending of a part: what it makes of a text, and the rule that does it. -/
structure MendStep where
  ruleId : String
  mend : Text → Text

namespace MendStep

/-- The request for what the step makes of a text at the part of a finding. -/
def request (step : MendStep) (f : Finding) (t : Text) : EditRequest where
  start := f.span.start
  stop := f.span.stop
  newText := step.mend t
  ruleId := step.ruleId

/-- The text that a repair gives, or the text it was given if it gives none. -/
def textOf (repair : Repair) (t : Text) : Text :=
  match repair.mend t with
  | .ok (.text u) => u
  | _ => t

/-- The step for a finding whose rule exists and has a repair. -/
def ofFinding? (rules : List Rule) (f : Finding) : Option MendStep :=
  (rules.find? fun r => r.id == f.ruleId).bind fun r =>
    r.repair.map fun repair => { ruleId := r.id, mend := textOf repair }

/-- The steps for the findings of exactly the part `p`, in order. -/
def stepsAt (rules : List Rule) (findings : List Finding) (p : ℕ × ℕ) : List MendStep :=
  (findings.filter fun f => f.part = p).filterMap (ofFinding? rules)

/-- What the steps make of a text, one after the other. -/
def compose (t : Text) (steps : List MendStep) : Text :=
  steps.foldl (fun t step => step.mend t) t

/-- The rules of the steps that change the text they are given. -/
def changing (t : Text) : List MendStep → List String
  | [] => []
  | step :: steps =>
    if step.mend t = t then changing t steps else step.ruleId :: changing (step.mend t) steps

theorem compose_append (t : Text) (xs ys : List MendStep) :
    compose t (xs ++ ys) = compose (compose t xs) ys :=
  List.foldl_append

@[simp] theorem compose_singleton (t : Text) (step : MendStep) : compose t [step] = step.mend t :=
  rfl

@[simp] theorem changing_singleton (t : Text) (step : MendStep) :
    changing t [step] = if step.mend t = t then [] else [step.ruleId] := rfl

theorem changing_append (t : Text) (xs ys : List MendStep) :
    changing t (xs ++ ys) = changing t xs ++ changing (compose t xs) ys := by
  induction xs generalizing t with
  | nil => rfl
  | cons x xs ih =>
      by_cases h : x.mend t = t
      · simp [changing, compose, h, ih]
      · simp [changing, compose, h, ih]

theorem compose_of_changing_eq_nil {t : Text} {steps : List MendStep} (h : changing t steps = []) :
    compose t steps = t := by
  induction steps with
  | nil => rfl
  | cons x xs ih =>
      by_cases hx : x.mend t = t
      · have hxs : changing t xs = [] := by simpa [changing, hx] using h
        simpa [compose, hx] using ih hxs
      · simp [changing, hx] at h

theorem stepsAt_append (rules : List Rule) (xs ys : List Finding) (p : ℕ × ℕ) :
    stepsAt rules (xs ++ ys) p = stepsAt rules xs p ++ stepsAt rules ys p := by
  simp [stepsAt]

theorem stepsAt_singleton (rules : List Rule) (f : Finding) (p : ℕ × ℕ) :
    stepsAt rules [f] p =
      if f.part = p then (ofFinding? rules f).toList else [] := by
  by_cases h : f.part = p
  · cases hf : ofFinding? rules f <;> simp [stepsAt, h, hf]
  · simp [stepsAt, h]

end MendStep

namespace Edit

/-- Some finding of the part changes what the findings before it left there. -/
def Changes (s : Snapshot) (rules : List Rule) (findings : List Finding) (p : ℕ × ℕ) : Prop :=
  MendStep.changing (Text.slice s.text p.1 p.2) (MendStep.stepsAt rules findings p) ≠ []

instance (s : Snapshot) (rules : List Rule) (findings : List Finding) (p : ℕ × ℕ) :
    Decidable (Changes s rules findings p) :=
  inferInstanceAs (Decidable (_ ≠ []))

/-- The edit that mends a part by itself. It is credited to the rules that changed something, each
once; a rule without a name gets no credit. -/
def composed (s : Snapshot) (rules : List Rule) (findings : List Finding) (p : ℕ × ℕ) : Edit :=
  let original := Text.slice s.text p.1 p.2
  let steps := MendStep.stepsAt rules findings p
  { start := p.1
    stop := p.2
    newText := MendStep.compose original steps
    ruleIds := Text.distinct ((MendStep.changing original steps).filter (· ≠ "")) }

/-- Two different parts overlap and both are changed. -/
def Clash (s : Snapshot) (rules : List Rule) (findings : List Finding) (p q : ℕ × ℕ) : Prop :=
  p ≠ q ∧ Changes s rules findings p ∧ Changes s rules findings q ∧ p.1 < q.2 ∧ q.1 < p.2

/-! ## One more finding -/

theorem distinct_filter_append (ids : List String) (id : String) :
    Text.distinct ((ids ++ [id]).filter (· ≠ "")) =
      EditBuilder.addId (Text.distinct (ids.filter (· ≠ ""))) id := by
  by_cases h : id = ""
  · simp [h, EditBuilder.addId]
  · simp [h, EditBuilder.addId, Text.distinct, List.foldl_append]

/-- Later findings do not take a change back: a part that returns to its first text still has an
edit. -/
theorem Changes.append {s : Snapshot} {rules : List Rule} {done : List Finding} {p : ℕ × ℕ}
    (h : Changes s rules done p) (fs : List Finding) : Changes s rules (done ++ fs) p := by
  unfold Changes at h ⊢
  rw [MendStep.stepsAt_append, MendStep.changing_append]
  simp [h]

theorem Changes.exists_finding {s : Snapshot} {rules : List Rule} {findings : List Finding}
    {p : ℕ × ℕ} (h : Changes s rules findings p) : ∃ f ∈ findings, f.part = p := by
  by_contra hnone
  have hempty : findings.filter (fun f => f.part = p) = [] := by
    simpa [List.filter_eq_nil_iff] using hnone
  simp [Changes, MendStep.stepsAt, hempty, MendStep.changing] at h

theorem Clash.append {s : Snapshot} {rules : List Rule} {done : List Finding} {p q : ℕ × ℕ}
    (h : Clash s rules done p q) (fs : List Finding) : Clash s rules (done ++ fs) p q :=
  ⟨h.1, h.2.1.append fs, h.2.2.1.append fs, h.2.2.2⟩

section OneMore

variable {s : Snapshot} {rules : List Rule} {done : List Finding} {f : Finding} {p : ℕ × ℕ}

theorem stepsAt_append_of_ne (h : f.part ≠ p) :
    MendStep.stepsAt rules (done ++ [f]) p = MendStep.stepsAt rules done p := by
  rw [MendStep.stepsAt_append, MendStep.stepsAt_singleton, if_neg h, List.append_nil]

theorem stepsAt_append_of_none (h : MendStep.ofFinding? rules f = none) :
    MendStep.stepsAt rules (done ++ [f]) p = MendStep.stepsAt rules done p := by
  rw [MendStep.stepsAt_append, MendStep.stepsAt_singleton, h]
  simp

theorem stepsAt_append_of_some {step : MendStep} (h : MendStep.ofFinding? rules f = some step)
    (hp : f.part = p) :
    MendStep.stepsAt rules (done ++ [f]) p = MendStep.stepsAt rules done p ++ [step] := by
  rw [MendStep.stepsAt_append, MendStep.stepsAt_singleton, if_pos hp, h]
  rfl

/-- What a part is changed to depends on its own steps only. -/
theorem composed_congr (s : Snapshot) {findings : List Finding}
    (h : MendStep.stepsAt rules findings p = MendStep.stepsAt rules done p) :
    (Changes s rules findings p ↔ Changes s rules done p) ∧
      composed s rules findings p = composed s rules done p := by
  simp only [Changes, composed, h, and_self]

theorem composed_append_other (s : Snapshot) (rules : List Rule) (done : List Finding)
    (h : f.part ≠ p) :
    (Changes s rules (done ++ [f]) p ↔ Changes s rules done p) ∧
      composed s rules (done ++ [f]) p = composed s rules done p :=
  composed_congr s (stepsAt_append_of_ne h)

/-- A step that changes nothing adds nothing. -/
theorem composed_append_of_eq {step : MendStep} (h : MendStep.ofFinding? rules f = some step)
    (hp : f.part = p)
    (hsame : step.mend (composed s rules done p).newText = (composed s rules done p).newText) :
    (Changes s rules (done ++ [f]) p ↔ Changes s rules done p) ∧
      composed s rules (done ++ [f]) p = composed s rules done p := by
  simp only [composed] at hsame
  simp [Changes, composed, stepsAt_append_of_some h hp, MendStep.changing_append,
    MendStep.compose_append, hsame]

/-- A step that changes the part is applied last and credited last. -/
theorem composed_append_of_ne {step : MendStep} (h : MendStep.ofFinding? rules f = some step)
    (hp : f.part = p)
    (hdiff : step.mend (composed s rules done p).newText ≠ (composed s rules done p).newText) :
    Changes s rules (done ++ [f]) p ∧
      composed s rules (done ++ [f]) p =
        { start := p.1
          stop := p.2
          newText := step.mend (composed s rules done p).newText
          ruleIds := EditBuilder.addId (composed s rules done p).ruleIds step.ruleId } := by
  simp only [composed] at hdiff
  simp only [Changes, composed, stepsAt_append_of_some h hp, MendStep.changing_append,
    MendStep.compose_append, MendStep.changing_singleton, MendStep.compose_singleton,
    if_neg hdiff, distinct_filter_append]
  simp

end OneMore

theorem composed_ruleIds_of_not_changes {s : Snapshot} {rules : List Rule} {done : List Finding}
    {p : ℕ × ℕ} (h : ¬ Changes s rules done p) : (composed s rules done p).ruleIds = [] := by
  have hnil := not_not.mp h
  simp only [composed, hnil]
  rfl

theorem composed_newText_of_not_changes {s : Snapshot} {rules : List Rule} {done : List Finding}
    {p : ℕ × ℕ} (h : ¬ Changes s rules done p) :
    (composed s rules done p).newText = Text.slice s.text p.1 p.2 :=
  MendStep.compose_of_changing_eq_nil (not_not.mp h)

end Edit

namespace EditBuilder

/-! ## The pass over the findings -/

/-- The builder holds what mending each part by itself gives for the findings so far. -/
structure Reflects (s : Snapshot) (rules : List Rule) (done : List Finding) (b : EditBuilder) :
    Prop where
  snapshot_eq : b.snapshot = s
  disjoint : b.Disjoint
  pending_eq : ∀ p : ℕ × ℕ, b.pending? p.1 p.2 =
    if Edit.Changes s rules done p then some (Edit.composed s rules done p) else none

theorem reflects_initial (s : Snapshot) (rules : List Rule) :
    Reflects s rules [] { snapshot := s } := by
  refine ⟨rfl, disjoint_initial s, ?_⟩
  intro p
  simp [pending?, Edit.Changes, MendStep.stepsAt, MendStep.changing]

theorem Reflects.currentText {s : Snapshot} {rules : List Rule} {done : List Finding}
    {b : EditBuilder} (h : Reflects s rules done b) (p : ℕ × ℕ) :
    b.currentText p.1 p.2 = (Edit.composed s rules done p).newText := by
  unfold EditBuilder.currentText
  rw [h.pending_eq, h.snapshot_eq]
  by_cases hp : Edit.Changes s rules done p
  · simp [hp]
  · simp [hp, Edit.composed_newText_of_not_changes hp]

theorem Reflects.pending_ruleIds {s : Snapshot} {rules : List Rule} {done : List Finding}
    {b : EditBuilder} (h : Reflects s rules done b) (p : ℕ × ℕ) :
    ((b.pending? p.1 p.2).map (·.ruleIds)).getD [] = (Edit.composed s rules done p).ruleIds := by
  rw [h.pending_eq]
  by_cases hp : Edit.Changes s rules done p
  · simp [hp]
  · simp [hp, Edit.composed_ruleIds_of_not_changes hp]

/-- With distinct ids, the last rule that has an id is also the first. -/
theorem ruleFor?_eq_find? {rules : List Rule} (hids : (rules.map (·.id)).Nodup) (id : String) :
    ruleFor? rules id = rules.find? fun r => r.id == id := by
  unfold ruleFor?
  cases hfirst : rules.find? fun r => r.id == id with
  | none => simpa [List.find?_eq_none] using hfirst
  | some r =>
      have hmem : r ∈ rules := List.mem_of_find?_eq_some hfirst
      have hr : r.id = id := by simpa using List.find?_some hfirst
      cases hlast : rules.reverse.find? fun r => r.id == id with
      | none =>
          have hne := List.find?_eq_none.mp hlast r (List.mem_reverse.mpr hmem)
          simp [hr] at hne
      | some r' =>
          have hmem' : r' ∈ rules := List.mem_reverse.mp (List.mem_of_find?_eq_some hlast)
          have hr' : r'.id = id := by simpa using List.find?_some hlast
          exact congrArg some (List.inj_on_of_nodup_map hids hmem' hmem (hr'.trans hr.symm))

/-- Every repair gives a text for every text. -/
def GivesText (rules : List Rule) : Prop :=
  ∀ r ∈ rules, ∀ repair, r.repair = some repair → ∀ t, ∃ u, repair.mend t = .ok (.text u)

theorem mendFinding_of_none {rules : List Rule} (hids : (rules.map (·.id)).Nodup)
    (b : EditBuilder) {f : Finding} (hstep : MendStep.ofFinding? rules f = none) :
    mendFinding rules b f = .ok b := by
  unfold mendFinding
  rw [ruleFor?_eq_find? hids]
  unfold MendStep.ofFinding? at hstep
  cases hrule : rules.find? fun r => r.id == f.ruleId with
  | none => rfl
  | some r =>
      have hrepair : r.repair = none := by simpa [hrule] using hstep
      simp [hrepair]

/-- The step of a finding is applied to what stands at its part now, and the result is requested if
it differs. -/
theorem mendFinding_of_some {rules : List Rule} (hids : (rules.map (·.id)).Nodup)
    (htexts : GivesText rules) (b : EditBuilder) {f : Finding} {step : MendStep}
    (hstep : MendStep.ofFinding? rules f = some step) {current : Text}
    (hcurrent : b.currentText f.span.start f.span.stop = current) :
    mendFinding rules b f =
      if step.mend current = current then .ok b
      else (b.replace f.span.start f.span.stop (step.mend current) step.ruleId).mapError .edit := by
  unfold mendFinding
  rw [ruleFor?_eq_find? hids]
  unfold MendStep.ofFinding? at hstep
  obtain ⟨r, hrule, hmap⟩ := Option.bind_eq_some_iff.mp hstep
  obtain ⟨repair, hrepair, rfl⟩ := Option.map_eq_some_iff.mp hmap
  obtain ⟨u, hu⟩ := htexts r (List.mem_of_find?_eq_some hrule) repair hrepair current
  have htext : MendStep.textOf repair current = u := by simp [MendStep.textOf, hu]
  simp only [hrule, Option.bind_some, hrepair, Option.map_some, hcurrent, hu, htext]
  split
  · rfl
  · split <;> rename_i heq <;> simp [heq, Except.mapError]

section Pass

variable {s : Snapshot} {rules : List Rule} {done : List Finding} {b : EditBuilder}

theorem Reflects.of_same {findings : List Finding} (h : Reflects s rules done b)
    (hsame : ∀ p, (Edit.Changes s rules findings p ↔ Edit.Changes s rules done p) ∧
      Edit.composed s rules findings p = Edit.composed s rules done p) :
    Reflects s rules findings b := by
  refine ⟨h.snapshot_eq, h.disjoint, ?_⟩
  intro p
  rw [h.pending_eq, (hsame p).2]
  simp only [(hsame p).1]

theorem Reflects.changes_of_mem (h : Reflects s rules done b) {e : Edit} (he : e ∈ b.edits) :
    Edit.Changes s rules done (e.start, e.stop) := by
  have hp : b.pending? e.start e.stop = some e :=
    h.disjoint.pending?_eq_some_iff.mpr ⟨he, rfl, rfl⟩
  rw [h.pending_eq (e.start, e.stop)] at hp
  by_contra hc
  simp [hc] at hp

variable {f : Finding} {step : MendStep}

/-- An accepted request of a changing step makes the builder reflect one more finding. -/
theorem Reflects.replace {next : EditBuilder} (h : Reflects s rules done b)
    (hstep : MendStep.ofFinding? rules f = some step)
    (hdiff : step.mend (Edit.composed s rules done f.part).newText ≠
      (Edit.composed s rules done f.part).newText)
    (hnext : b.replace f.span.start f.span.stop
      (step.mend (Edit.composed s rules done f.part).newText) step.ruleId = .ok next) :
    Reflects s rules (done ++ [f]) next := by
  let r := step.request f (Edit.composed s rules done f.part).newText
  have hr : b.replace r.start r.stop r.newText r.ruleId = .ok next := hnext
  refine ⟨(replace_snapshot hr).trans h.snapshot_eq, h.disjoint.replace hr, ?_⟩
  intro q
  rw [pending?_replace hr]
  by_cases hq : f.part = q
  · subst hq
    obtain ⟨hchanges, hcomposed⟩ := Edit.composed_append_of_ne hstep rfl hdiff
    have hids : ((b.pending? r.start r.stop).map (·.ruleIds)).getD [] =
        (Edit.composed s rules done f.part).ruleIds := h.pending_ruleIds f.part
    rw [if_pos ⟨rfl, rfl⟩, if_pos hchanges, hcomposed, hids]
    rfl
  · have hne : ¬ ((q.1 : ℤ) = r.start ∧ (q.2 : ℤ) = r.stop) := by
      intro hkey
      apply hq
      apply Prod.ext
      · exact Int.ofNat.inj hkey.1.symm
      · exact Int.ofNat.inj hkey.2.symm
    obtain ⟨hchanges, hcomposed⟩ := Edit.composed_append_other s rules done hq
    rw [if_neg hne, h.pending_eq, hcomposed]
    simp only [hchanges]

/-- A refused request of a changing step shows two changed parts that overlap. -/
theorem Reflects.clash (h : Reflects s rules done b)
    (hstep : MendStep.ofFinding? rules f = some step)
    (hdiff : step.mend (Edit.composed s rules done f.part).newText ≠
      (Edit.composed s rules done f.part).newText)
    (hc : b.Collides (step.request f (Edit.composed s rules done f.part).newText)) {e : Edit}
    (he : e ∈ b.edits) (hover : (f.span.start : ℤ) < e.stop ∧ (e.start : ℤ) < f.span.stop) :
    Edit.Clash s rules (done ++ [f]) f.part (e.start, e.stop) := by
  refine ⟨?_, (Edit.composed_append_of_ne hstep rfl hdiff).1, (h.changes_of_mem he).append [f], ?_⟩
  · intro heq
    obtain ⟨hstart, hstop⟩ := Prod.mk.inj heq
    exact hc.1 e he ⟨congrArg Int.ofNat hstart, congrArg Int.ofNat hstop⟩
  · exact ⟨Int.ofNat_lt.mp hover.1, Int.ofNat_lt.mp hover.2⟩

/-- A finding is mended as its part by itself would be, or it meets another changed part. -/
theorem Reflects.mendFinding (h : Reflects s rules done b) (hids : (rules.map (·.id)).Nodup)
    (htexts : GivesText rules)
    (hspan : f.span.start ≤ f.span.stop ∧ f.span.stop ≤ s.text.length) :
    (∃ next, EditBuilder.mendFinding rules b f = .ok next ∧
        Reflects s rules (done ++ [f]) next) ∨
      ∃ p q, Edit.Clash s rules (done ++ [f]) p q ∧
        EditBuilder.mendFinding rules b f = .error (.edit (.overlap p.1 p.2 q.1 q.2)) := by
  cases hstep : MendStep.ofFinding? rules f with
  | none =>
      exact .inl ⟨b, mendFinding_of_none hids b hstep,
        h.of_same fun p => Edit.composed_congr s (Edit.stepsAt_append_of_none hstep)⟩
  | some step =>
      rw [mendFinding_of_some hids htexts b hstep (h.currentText f.part)]
      by_cases hsame : step.mend (Edit.composed s rules done f.part).newText =
          (Edit.composed s rules done f.part).newText
      · rw [if_pos hsame]
        refine .inl ⟨b, rfl, h.of_same fun q => ?_⟩
        by_cases hq : f.part = q
        · exact Edit.composed_append_of_eq hstep hq (by rwa [← hq])
        · exact Edit.composed_append_other s rules done hq
      · rw [if_neg hsame]
        let r := step.request f (Edit.composed s rules done f.part).newText
        have hr : b.InRange r := by
          simp only [InRange, r, MendStep.request, h.snapshot_eq]
          omega
        obtain ⟨-, next, hnext⟩ | ⟨hc, e, he, hover, herror⟩ := replace_ok_or_overlap hr
        · exact .inl ⟨next, congrArg (Except.mapError MendError.edit) hnext, h.replace hstep hsame hnext⟩
        · exact .inr ⟨f.part, (e.start, e.stop), h.clash hstep hsame hc he hover,
            congrArg (Except.mapError MendError.edit) herror⟩

/-- The pass keeps reflecting the findings it has seen. A clash found midway is one of all the
findings, since later findings take no change back. -/
theorem Reflects.mendAll (h : Reflects s rules done b) (hids : (rules.map (·.id)).Nodup)
    (htexts : GivesText rules) (fs : List Finding)
    (hspans : ∀ f ∈ fs, f.span.start ≤ f.span.stop ∧ f.span.stop ≤ s.text.length) :
    (∃ last, EditBuilder.mendAll rules b fs = .ok last ∧ Reflects s rules (done ++ fs) last) ∨
      ∃ p q, Edit.Clash s rules (done ++ fs) p q ∧
        EditBuilder.mendAll rules b fs = .error (.edit (.overlap p.1 p.2 q.1 q.2)) := by
  induction fs generalizing done b with
  | nil => exact .inl ⟨b, rfl, by simpa using h⟩
  | cons f fs ih =>
      rw [← List.singleton_append, ← List.append_assoc]
      simp only [List.singleton_append, EditBuilder.mendAll]
      obtain ⟨next, hnext, hreflects⟩ | ⟨p, q, hclash, herror⟩ :=
        h.mendFinding hids htexts (hspans f (by simp))
      · rw [hnext]
        exact ih hreflects (fun g hg => hspans g (by simp [hg]))
      · rw [herror]
        exact .inr ⟨p, q, hclash.append fs, rfl⟩

theorem Reflects.composed_mem (h : Reflects s rules done b) {p : ℕ × ℕ}
    (hp : Edit.Changes s rules done p) : Edit.composed s rules done p ∈ b.edits := by
  have hpending := h.pending_eq p
  rw [if_pos hp] at hpending
  exact (pending?_eq_some hpending).1

theorem Reflects.not_clash (h : Reflects s rules done b) (p q : ℕ × ℕ) :
    ¬ Edit.Clash s rules done p q := by
  rintro ⟨hne, hp, hq, hover⟩
  have hapart := h.disjoint.apart.forall (h.composed_mem hp) (h.composed_mem hq) (fun heq => hne
    (Prod.ext (congrArg Edit.start heq) (congrArg Edit.stop heq)))
  obtain ⟨-, hle | hle⟩ := hapart
  · exact absurd hle (Nat.not_le.mpr hover.2)
  · exact absurd hle (Nat.not_le.mpr hover.1)

theorem Reflects.mem_edits_iff (h : Reflects s rules done b) (e : Edit) :
    e ∈ b.edits ↔ ∃ p, Edit.Changes s rules done p ∧ e = Edit.composed s rules done p := by
  constructor
  · intro he
    have hp := h.disjoint.pending?_eq_some_iff.mpr ⟨he, rfl, rfl⟩
    have hchanges := h.changes_of_mem he
    rw [h.pending_eq (e.start, e.stop), if_pos hchanges] at hp
    exact ⟨_, hchanges, (Option.some.inj hp).symm⟩
  · rintro ⟨p, hp, rfl⟩
    exact h.composed_mem hp

end Pass

end EditBuilder

/-- A rule that looks for nothing and mends a text by appending to it. -/
def Rule.appending (id : String) (suffix : Text) : Rule where
  id := id
  tag := ""
  level := "A"
  criterion := ""
  pattern := none
  applies := none
  message := ""
  recommendation := ""
  repair := some (.ofFunction (· ++ suffix))

theorem Rule.givesText_appending (args : List (String × Text)) :
    EditBuilder.GivesText (args.map fun a => Rule.appending a.1 a.2) := by
  intro r hr repair hrepair t
  obtain ⟨a, -, rfl⟩ := List.mem_map.mp hr
  obtain rfl := Option.some.inj hrepair
  exact ⟨t ++ a.2, rfl⟩

namespace Batch

theorem mending_of_mendAll_ok {s : Snapshot} {findings : List Finding} {rules : List Rule}
    {last : EditBuilder} (h : EditBuilder.mendAll rules { snapshot := s } findings = .ok last) :
    mending s findings rules = .ok last.build := by
  rw [mending, h]
  rfl

theorem mending_of_mendAll_error {s : Snapshot} {findings : List Finding} {rules : List Rule}
    {e : MendError} (h : EditBuilder.mendAll rules { snapshot := s } findings = .error e) :
    mending s findings rules = .error e := by
  rw [mending, h]
  rfl

/-- For findings inside the text, distinct ids and repairs that give texts, mending fails just if
two different parts that are both changed overlap, and the error names two such parts. Otherwise
the batch has one edit for each changed part: the composition of that part's repairs, credited to
the named rules that changed something. -/
theorem mending_eq_composition (s : Snapshot) (findings : List Finding) (rules : List Rule)
    (hspans : ∀ f ∈ findings, f.span.start ≤ f.span.stop ∧ f.span.stop ≤ s.text.length)
    (hids : (rules.map (·.id)).Nodup) (htexts : EditBuilder.GivesText rules) :
    ((∃ a b c d, mending s findings rules = .error (.edit (.overlap a b c d))) ↔
        ∃ p q, Edit.Clash s rules findings p q) ∧
      (∀ e, mending s findings rules = .error e → ∃ p q, Edit.Clash s rules findings p q ∧
        e = .edit (.overlap p.1 p.2 q.1 q.2)) ∧
      ((¬ ∃ p q, Edit.Clash s rules findings p q) →
        ∃ batch, mending s findings rules = .ok batch ∧ batch.digest = s.digest ∧
          (batch.edits.map fun e => (e.start, e.stop)).Nodup ∧
          ∀ e, e ∈ batch.edits ↔
            ∃ p, Edit.Changes s rules findings p ∧ e = Edit.composed s rules findings p) := by
  obtain ⟨last, hlast, hreflects⟩ | ⟨p, q, hclash, herror⟩ :=
    (EditBuilder.reflects_initial s rules).mendAll hids htexts findings hspans
  · rw [List.nil_append] at hreflects
    have hnone : ¬ ∃ p q, Edit.Clash s rules findings p q := by
      rintro ⟨p, q, hclash⟩
      exact hreflects.not_clash p q hclash
    have hbuild := hreflects.disjoint.build_spec
    rw [mending_of_mendAll_ok hlast]
    refine ⟨⟨?_, fun h => (hnone h).elim⟩, by simp, fun _ => ⟨last.build, rfl, ?_,
      hbuild.keys_nodup, ?_⟩⟩
    · rintro ⟨_, _, _, _, h⟩
      cases h
    · exact congrArg Snapshot.digest hreflects.snapshot_eq
    · intro e
      rw [hbuild.perm.mem_iff]
      exact hreflects.mem_edits_iff e
  · have hsome : ∃ p q, Edit.Clash s rules findings p q := ⟨p, q, hclash⟩
    rw [mending_of_mendAll_error herror]
    refine ⟨⟨fun _ => hsome, fun _ => ⟨_, _, _, _, rfl⟩⟩, ?_, fun hnone => (hnone hsome).elim⟩
    intro e he
    exact ⟨p, q, hclash, (Except.error.inj he).symm⟩

/-- Two rules mend the first character one after the other. -/
theorem mending_two_rules :
    let s : Snapshot := { text := "ab".toList }
    let first := Rule.appending "R1" "!".toList
    let second := Rule.appending "R2" "?".toList
    let m : Match := { start := 0, stop := 1, text := "a".toList, held := [] }
    ∃ batch, mending s [first.finding s m, second.finding s m] [first, second] = .ok batch ∧
      ⟨0, 1, "a!?".toList, ["R1", "R2"]⟩ ∈ batch.edits := by
  intro s first second m
  have hnone : ¬ ∃ p q, Edit.Clash s [first, second]
      [first.finding s m, second.finding s m] p q := by
    have hpart : ∀ f ∈ [first.finding s m, second.finding s m], f.part = (0, 1) := by
      simp [Finding.part, Rule.finding, Snapshot.span, m]
    rintro ⟨p, q, hne, hp, hq, -⟩
    obtain ⟨f, hf, rfl⟩ := hp.exists_finding
    obtain ⟨g, hg, rfl⟩ := hq.exists_finding
    exact hne ((hpart f hf).trans (hpart g hg).symm)
  obtain ⟨batch, hbatch, -, -, hedits⟩ :=
    (mending_eq_composition s [first.finding s m, second.finding s m] [first, second]
      (by decide) (by decide) (Rule.givesText_appending [("R1", _), ("R2", _)])).2.2 hnone
  exact ⟨batch, hbatch, (hedits _).mpr ⟨(0, 1), by decide, by decide⟩⟩

/-- A rule without a name that changes a part gets no credit for it. -/
theorem mending_nameless_rule :
    let s : Snapshot := { text := "<b>".toList }
    let r := Rule.appending "" "!".toList
    let f := r.finding s { start := 0, stop := 3, text := s.text, held := [] }
    (∀ g ∈ [f], g.span.start ≤ g.span.stop ∧ g.span.stop ≤ s.text.length) ∧
      ([r].map (·.id)).Nodup ∧ EditBuilder.GivesText [r] ∧
      MendStep.changing (Text.slice s.text 0 3) (MendStep.stepsAt [r] [f] (0, 3)) = [""] ∧
      mending s [f] [r] = .ok { digest := s.digest, edits := [⟨0, 3, "<b>!".toList, []⟩] } := by
  intro s r f
  exact ⟨by decide, by decide, Rule.givesText_appending [("", _)], by decide, rfl⟩

end Batch

end MarkupAudit
