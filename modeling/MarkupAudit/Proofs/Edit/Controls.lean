import MarkupAudit.Proofs.Edit.Insertions
import MarkupAudit.Proofs.Text.Spelling

/-! # Controls for sound that starts by itself

Two rules report a tag with sound that starts by itself, and both repairs put controls behind its
name. The second repair sees what the first one put there, unless what follows the name of the tag
does not end the name of an attribute. Then it puts the controls there again, and these are seen. -/

namespace MarkupAudit

open Markup

namespace Markup

/-! ## Attributes without a value behind a name -/

theorem endsName_openingTag (t : Text) : endsName (openingTag t) = endsName t := by
  cases t with
  | nil => rfl
  | cons c r =>
      rw [openingTag]
      split
      · next h => simp [h, endsName_cons]
      · rw [endsName_cons, endsName_cons, head?_openingTag]

theorem endsName_maskQuoted (t : Text) : endsName (maskQuoted t) = endsName t := by
  cases t with
  | nil => rfl
  | cons c r =>
      by_cases hc : c = '/'
      · have hmask : maskQuoted (c :: r) = c :: maskQuoted r := by
          rw [hc]
          rfl
        rw [hmask, endsName_cons, endsName_cons, head?_maskQuoted]
      · have hslash : (c == '/') = false := beq_eq_false_iff_ne.mpr hc
        change endsName (c :: maskFrom _ r) = _
        rw [endsName_cons, endsName_cons, hslash, Bool.false_and, Bool.false_and]

/-- A name behind a space is read as an attribute if it ends there; if not, only what follows it is
read. -/
theorem readsAttribute_bare (n : AttributeName) (rest : Text) :
    readsAttribute n (' ' :: (n.text ++ rest)) = (endsName rest || readsAttribute n rest) := by
  have hletters : ∀ c ∈ n.text, endsAttribute c = false :=
    fun c hc => (isNameLetter_ne (n.text_isNameLetter c hc)).1
  have hmask : maskQuoted (' ' :: n.text ++ rest) = ' ' :: n.text ++ maskQuoted rest := by
    rw [List.cons_append, List.cons_append, ← maskQuoted_append_of_forall hletters]
    rfl
  have hread : attributeRead? n.text (' ' :: (n.text ++ maskQuoted rest)) =
      if endsName rest then some (n.text.length + 1) else none := by
    rw [attributeRead?, Text.startsLike_self, List.drop_left, endsName_maskQuoted]
    simp [show endsAttribute ' ' = true by decide]
  cases hends : endsName rest with
  | true =>
      rw [hends, if_pos rfl] at hread
      rw [readsAttribute, ← List.cons_append, hmask, List.cons_append,
        Text.firstStop_cons_of_some hread]
      rfl
  | false =>
      rw [hends, if_neg (by decide)] at hread
      have hpass : Text.firstStop (attributeRead? n.text) 0 (' ' :: n.text ++ maskQuoted rest) =
          Text.firstStop (attributeRead? n.text) (0 + (' ' :: n.text).length) (maskQuoted rest) := by
        rw [List.cons_append, Text.firstStop_cons_of_none hread,
          (readsName_attributeRead? n).firstStop_letters hletters, List.length_cons]
        congr 1
        omega
      rw [Bool.false_or, ← List.cons_append]
      exact readsAttribute_append hmask hpass

/-- A tag with an attribute without a value right behind its name. -/
def withBare (n name rest : Text) : Text :=
  '<' :: (name ++ (' ' :: n ++ rest))

section Named

variable {u name rest : Text} (h : NamedTag u name rest) (n : AttributeName)

include h

theorem NamedTag.withBare :
    NamedTag (Markup.withBare n.text name rest) name (' ' :: n.text ++ rest) :=
  h.insert rfl

/-- An attribute that is put behind the name of a tag is read if what follows ends its name. -/
theorem NamedTag.hasAttribute_bare :
    hasAttribute (Markup.withBare n.text name rest) n.text =
      (endsName rest || hasAttribute u n.text) := by
  have hbracket : '>' ∉ ' ' :: n.text := by
    simpa using fun hmem => (isNameLetter_ne (n.text_isNameLetter _ hmem)).2.2.2 (by decide)
  have hopening : openingTag (' ' :: n.text ++ rest) = ' ' :: (n.text ++ openingTag rest) :=
    openingTag_append_of_notMem hbracket rest
  rw [(h.withBare n).hasAttribute_eq, hopening, readsAttribute_bare, endsName_openingTag,
    h.hasAttribute_eq]

/-- An attribute that a tag lacks is put behind its name. A second time it is put there only if it
is not read the first time, and then it is read. -/
theorem NamedTag.insertAttribute_twice (hlacks : hasAttribute u n.text = false) :
    let once := Markup.withBare n.text name rest
    let twice := Markup.withBare n.text name (' ' :: n.text ++ rest)
    Markup.insertAttribute n.text none u = once ∧
      Markup.insertAttribute n.text none once = (if endsName rest then once else twice) ∧
      hasAttribute (if endsName rest then once else twice) n.text := by
  intro once twice
  have honce : hasAttribute once n.text = endsName rest := by
    rw [h.hasAttribute_bare, hlacks, Bool.or_false]
  refine ⟨h.insertAttribute_eq hlacks none, ?_⟩
  cases hends : endsName rest with
  | true =>
      rw [hends] at honce
      exact ⟨insertAttribute_of_hasAttribute honce, honce⟩
  | false =>
      rw [hends] at honce
      have hnamed : NamedTag once name (' ' :: n.text ++ rest) := h.withBare n
      refine ⟨hnamed.insertAttribute_eq honce none, ?_⟩
      have htwice : hasAttribute twice n.text = _ := hnamed.hasAttribute_bare n
      rw [if_neg (by decide), htwice, List.cons_append, endsName_cons]
      simp [show Text.isBlank ' ' = true by decide]

end Named

end Markup

namespace Guideline

/-! ## The two rules -/

theorem isMarquee_eq_false {u letters rest : Text} {c : Char} (h : NamedTag u (c :: letters) rest)
    (hc : c.toNat < 128) (hm : c.toLower ≠ 'm') : Keyboard.isMarquee u = false := by
  have hname : tagName u = c.toLower :: Text.lowerFrom [c] letters := by
    rw [tagName, h.tagHead?_eq]
    exact Text.lowerFrom_cons_of_plain hc [] letters
  rw [Keyboard.isMarquee, hname]
  simp [isOneOf, hm]

/-- What the rule on sound finds has a name that starts with an a. -/
theorem exists_namedTag_of_startsIn {t : Text}
    (h : Distinguishable.autoplay.pattern.any (·.startsIn t)) :
    ∃ c letters rest, NamedTag t (c :: letters) rest ∧ c.toNat < 128 ∧ c.toLower = 'a' := by
  obtain ⟨m, hm⟩ := Option.isSome_iff_exists.mp h
  obtain ⟨there, hrun, -⟩ := Option.map_eq_some_iff.mp hm
  obtain ⟨hstands, name, hname, hspelled, -⟩ := (Pattern.startsWithName_tag ["audio"]).exists_name
    (by simp) (by decide) (t := t) (q := 0) hrun
  obtain ⟨r, rfl⟩ := List.isPrefixOf_iff_prefix.mp hstands
  obtain rfl := List.mem_singleton.mp hname
  cases r with
  | nil => cases hspelled
  | cons c r =>
      have hfold : Text.sameFold 'a' c := (Bool.and_eq_true_iff.mp hspelled).1
      obtain ⟨hc, hlower⟩ := Text.toLower_eq_of_sameFold (by decide) hfold (d := c)
        (by simp [Text.sameFold])
      have halpha : c.isAlpha := Text.forall_plain (P := fun c => c.toLower = 'a' → c.isAlpha)
        (by decide) c hc hlower
      have hnamed := namedTag_of_isAlpha halpha r
      rw [List.takeWhile_cons_of_pos (isNameChar_of_isAlpha halpha)] at hnamed
      exact ⟨c, _, _, hnamed, hc, hlower⟩

/-- Neither rule reports a tag with controls, unless it is a moving text. -/
theorem condition_of_hasAttribute {u : Text} (hmarquee : Keyboard.isMarquee u = false)
    (hcontrols : hasAttribute u "controls".toList) (document : Text) :
    Distinguishable.autoplay.condition u document = .ok false ∧
      Keyboard.movingContent.condition u document = .ok false := by
  have hplays : playsUnasked u = false := by
    rw [playsUnasked, hcontrols, Bool.not_true, Bool.and_false]
  have hmoves : Keyboard.movesUnasked u = false := by
    rw [Keyboard.movesUnasked, hmarquee, hplays, Bool.false_or]
  exact ⟨congrArg Except.ok hplays, congrArg Except.ok hmoves⟩

end Guideline

/-! ## Findings of one part -/

namespace Batch

/-- Findings of one part that change it are mended by one edit. -/
theorem mending_of_part {s : Snapshot} {findings : List Finding} {rules : List Rule} {p : ℕ × ℕ}
    (hids : (rules.map (·.id)).Nodup) (htexts : EditBuilder.GivesText rules) (hlt : p.1 < p.2)
    (hle : p.2 ≤ s.text.length) (hpart : ∀ f ∈ findings, f.part = p)
    (hchanges : Edit.Changes s rules findings p) :
    ∃ batch, mending s findings rules = .ok batch ∧
      batch.edits = [Edit.composed s rules findings p] := by
  have hspans : ∀ f ∈ findings, f.span.start ≤ f.span.stop ∧ f.span.stop ≤ s.text.length := by
    intro f hf
    have := hpart f hf
    rw [← this] at hlt hle
    exact ⟨hlt.le, hle⟩
  have honly : ∀ q, Edit.Changes s rules findings q → q = p := by
    intro q hq
    obtain ⟨f, hf, rfl⟩ := hq.exists_finding
    exact hpart f hf
  obtain ⟨last, hlast, -⟩ | ⟨q, q', ⟨hne, hq, hq', -⟩, -⟩ :=
    (EditBuilder.reflects_initial s rules).mendAll hids htexts findings hspans
  · have hok := mending_of_mendAll_ok hlast
    obtain ⟨hedits, hseparated, -⟩ := edits_of_mending hspans hids htexts hok
    have hsame : ∀ e ∈ last.build.edits, e = Edit.composed s rules findings p := by
      intro e he
      obtain ⟨q, hq, rfl⟩ := (hedits e).mp he
      rw [honly q hq]
    refine ⟨last.build, hok, ?_⟩
    have hmem := (hedits _).mpr ⟨p, hchanges, rfl⟩
    cases hlist : last.build.edits with
    | nil =>
        rw [hlist] at hmem
        cases hmem
    | cons e edits =>
        rw [hlist] at hsame hseparated
        obtain ⟨rfl, hothers⟩ := List.forall_mem_cons.mp hsame
        -- A second edit would be the same one and start before its own end.
        have hnone : edits = [] := by
          rw [List.eq_nil_iff_forall_not_mem]
          intro e he
          have hstart := (List.pairwise_cons.mp hseparated).1 e he
          rw [hothers e he] at hstart
          exact absurd hstart (Nat.not_le.mpr hlt)
        rw [hnone]
  · exact absurd ((honly q hq).trans (honly q' hq').symm) hne

end Batch

/-! ## Two findings for controls -/

def controlsName : AttributeName := ⟨'c', "ontrols".toList, by decide, by decide⟩

namespace Guideline

/-- The repair puts controls behind the name of a tag, unless it is a moving text. -/
def GivesControls (mend : Text → Text) : Prop :=
  ∀ u, Keyboard.isMarquee u = false → mend u = insertAttribute controlsName.text none u

/-- The step for a finding of either rule gives controls. -/
theorem exists_controls_step {f : Finding} (hid : f.ruleId ∈ ["R42", "R56"]) :
    ∃ mend, MendStep.ofFinding? rules f = some ⟨f.ruleId, mend⟩ ∧ GivesControls mend := by
  rw [List.mem_pair] at hid
  rcases hid with hid | hid
  · refine ⟨Remedy.autoplay.mend, ?_, fun _ _ => rfl⟩
    rw [ofFinding?_eq (m := .autoplay) (by simp [remedies]) hid, hid]
    rfl
  · refine ⟨Keyboard.addControls, ?_, fun u hu => ?_⟩
    · rw [ofFinding?_eq (m := .movingContent) (by simp [remedies]) hid, hid]
      rfl
    · rw [Keyboard.addControls, hu]
      rfl

section Steps

variable {u letters rest : Text} {c : Char} (h : NamedTag u (c :: letters) rest)
  (hc : c.toNat < 128) (hm : c.toLower ≠ 'm') (hlacks : hasAttribute u controlsName.text = false)

include h hc hm hlacks

/-- Two repairs that give controls give them once, if they are read behind the name, or else twice,
and then both repairs change something. -/
theorem steps_giveControls {mend mend' : Text → Text} (hmend : GivesControls mend)
    (hmend' : GivesControls mend') (id id' : String) :
    let once := withBare controlsName.text (c :: letters) rest
    let twice := withBare controlsName.text (c :: letters) (' ' :: controlsName.text ++ rest)
    MendStep.compose u [⟨id, mend⟩, ⟨id', mend'⟩] = (if endsName rest then once else twice) ∧
      MendStep.changing u [⟨id, mend⟩, ⟨id', mend'⟩] = if endsName rest then [id] else [id, id'] := by
  intro once twice
  obtain ⟨hfirst, hsecond, -⟩ := h.insertAttribute_twice controlsName hlacks
  have honce : mend u = once := (hmend u (isMarquee_eq_false h hc hm)).trans hfirst
  have htwice : mend' once = if endsName rest then once else twice :=
    (hmend' once (isMarquee_eq_false (h.withBare _) hc hm)).trans hsecond
  have hne : once ≠ u := by
    intro heq
    have hlength := congrArg List.length (heq.trans h.eq_append)
    simp [once, withBare] at hlength
    omega
  have hne' : twice ≠ once := by
    intro heq
    have hlength := congrArg List.length heq
    simp [once, twice, withBare] at hlength
    omega
  constructor
  · rw [← htwice, ← honce]
    rfl
  · cases hends : endsName rest <;> simp_all [MendStep.changing]

/-- Neither rule reports what the repairs give. -/
theorem condition_of_steps (document : Text) :
    let once := withBare controlsName.text (c :: letters) rest
    let twice := withBare controlsName.text (c :: letters) (' ' :: controlsName.text ++ rest)
    let amended := if endsName rest then once else twice
    Distinguishable.autoplay.condition amended document = .ok false ∧
      Keyboard.movingContent.condition amended document = .ok false := by
  intro once twice amended
  obtain ⟨-, -, hread⟩ := h.insertAttribute_twice controlsName hlacks
  have honce : NamedTag once (c :: letters) (' ' :: controlsName.text ++ rest) := h.withBare _
  have hmarquee : Keyboard.isMarquee amended = false := by
    change Keyboard.isMarquee (if endsName rest then once else twice) = false
    split
    · exact isMarquee_eq_false honce hc hm
    · exact isMarquee_eq_false (honce.withBare _) hc hm
  exact condition_of_hasAttribute hmarquee hread document

end Steps

/-- The edit for two findings of one part, one of each rule. -/
theorem composed_controls {s : Snapshot} {f g : Finding} {letters rest : Text} {c : Char}
    (hids : f.ruleId = "R42" ∧ g.ruleId = "R56" ∨ f.ruleId = "R56" ∧ g.ruleId = "R42")
    (hpart : g.part = f.part)
    (h : NamedTag (Text.slice s.text f.part.1 f.part.2) (c :: letters) rest) (hc : c.toNat < 128)
    (hm : c.toLower ≠ 'm')
    (hlacks : hasAttribute (Text.slice s.text f.part.1 f.part.2) controlsName.text = false) :
    let once := withBare controlsName.text (c :: letters) rest
    let twice := withBare controlsName.text (c :: letters) (' ' :: controlsName.text ++ rest)
    let edit := Edit.composed s rules [f, g] f.part
    Edit.Changes s rules [f, g] f.part ∧ edit.newText = (if endsName rest then once else twice) ∧
      edit.ruleIds = if endsName rest then [f.ruleId] else [f.ruleId, g.ruleId] := by
  intro once twice edit
  obtain ⟨mend, hf, hmend⟩ := exists_controls_step (f := f)
    (by rcases hids with ⟨hid, -⟩ | ⟨hid, -⟩ <;> simp [hid])
  obtain ⟨mend', hg, hmend'⟩ := exists_controls_step (f := g)
    (by rcases hids with ⟨-, hid⟩ | ⟨-, hid⟩ <;> simp [hid])
  obtain ⟨hcompose, hchanging⟩ := steps_giveControls h hc hm hlacks hmend hmend' f.ruleId g.ruleId
  have hsteps : MendStep.stepsAt rules [f, g] f.part = [⟨f.ruleId, mend⟩, ⟨g.ruleId, mend'⟩] := by
    simp [MendStep.stepsAt, hpart, hf, hg]
  rw [← hsteps] at hcompose hchanging
  refine ⟨?_, hcompose, ?_⟩
  · rw [Edit.Changes, hchanging]
    split <;> simp
  · change Text.distinct ((MendStep.changing _ _).filter (· ≠ "")) = _
    rw [hchanging]
    rcases hids with ⟨hid, hid'⟩ | ⟨hid, hid'⟩ <;> rw [hid, hid'] <;> cases endsName rest <;> decide

end Guideline

namespace Batch

/-- Two rules that report a tag with sound that starts by itself are mended by one edit, and neither
reports what the edit puts there. It puts the controls behind the name of the tag once, if what
follows the name ends an attribute, and otherwise twice. -/
theorem mending_gives_controls (s : Snapshot) {f g : Finding} {document : Text}
    (hids : f.ruleId = "R42" ∧ g.ruleId = "R56" ∨ f.ruleId = "R56" ∧ g.ruleId = "R42")
    (hpart : g.part = f.part) (hle : f.part.2 ≤ s.text.length)
    (hstarts : Guideline.Distinguishable.autoplay.pattern.any
      (·.startsIn (Text.slice s.text f.part.1 f.part.2)))
    (happlies : Guideline.Distinguishable.autoplay.condition
      (Text.slice s.text f.part.1 f.part.2) document = .ok true) :
    ∃ name rest batch e, NamedTag (Text.slice s.text f.part.1 f.part.2) name rest ∧
      mending s [f, g] Guideline.rules = .ok batch ∧ batch.edits = [e] ∧
      (e.start, e.stop) = f.part ∧
      (endsName rest → e.newText = '<' :: (name ++ (" controls".toList ++ rest)) ∧
        e.ruleIds = [f.ruleId]) ∧
      (¬endsName rest → e.newText = '<' :: (name ++ (" controls controls".toList ++ rest)) ∧
        e.ruleIds = [f.ruleId, g.ruleId]) ∧
      ∀ document, Guideline.Distinguishable.autoplay.condition e.newText document = .ok false ∧
        Guideline.Keyboard.movingContent.condition e.newText document = .ok false := by
  obtain ⟨c, letters, rest, hnamed, hc, hlower⟩ := Guideline.exists_namedTag_of_startsIn hstarts
  have hm : c.toLower ≠ 'm' := by
    rw [hlower]
    decide
  have hlacks : hasAttribute (Text.slice s.text f.part.1 f.part.2) controlsName.text = false := by
    have hplays : playsUnasked (Text.slice s.text f.part.1 f.part.2) = true :=
      Except.ok.inj happlies
    rw [playsUnasked, Bool.and_eq_true, Bool.not_eq_true'] at hplays
    exact hplays.2
  have hlt : f.part.1 < f.part.2 := by
    have hpos : 0 < (Text.slice s.text f.part.1 f.part.2).length := by
      rw [hnamed.eq_append, List.length_cons]
      omega
    rw [Text.slice_natCast, List.length_drop, List.length_take] at hpos
    omega
  obtain ⟨hchanges, hnew, hcredit⟩ := Guideline.composed_controls hids hpart hnamed hc hm hlacks
  obtain ⟨batch, hbatch, hedits⟩ := mending_of_part Guideline.nodup_ids Guideline.givesText_rules hlt
    hle (by simp [hpart]) hchanges
  refine ⟨c :: letters, rest, batch, _, hnamed, hbatch, hedits, rfl, fun hends => ?_,
    fun hends => ?_, fun document => ?_⟩
  · rw [if_pos hends] at hnew hcredit
    exact ⟨hnew, hcredit⟩
  · rw [if_neg hends] at hnew hcredit
    exact ⟨hnew, hcredit⟩
  · rw [hnew]
    exact Guideline.condition_of_steps hnamed hc hm hlacks document

/-- The controls in the address of the sound do not count, and those that the first repair gives are
enough. -/
theorem mending_gives_controls_once :
    let s : Snapshot := { text := "<p><audio\nsrc='a/controls' autoplay>".toList }
    let m : Match :=
      { start := 3, stop := 36, text := "<audio\nsrc='a/controls' autoplay>".toList, held := [] }
    let f := Guideline.Distinguishable.autoplay.finding s m
    let g := Guideline.Keyboard.movingContent.finding s m
    Guideline.Distinguishable.autoplay.pattern.any (·.startsIn m.text) ∧
      Guideline.Distinguishable.autoplay.condition m.text s.text = .ok true ∧
      ∃ batch e, mending s [f, g] Guideline.rules = .ok batch ∧ batch.edits = [e] ∧
        e.newText = "<audio controls\nsrc='a/controls' autoplay>".toList ∧ e.ruleIds = ["R42"] ∧
        Guideline.Keyboard.movingContent.condition e.newText s.text = .ok false := by
  intro s m f g
  have hslice : Text.slice s.text f.part.1 f.part.2 = m.text := by decide
  have hstarts : Guideline.Distinguishable.autoplay.pattern.any (·.startsIn m.text) := by
    decide +kernel
  have happlies : Guideline.Distinguishable.autoplay.condition m.text s.text = .ok true :=
    congrArg Except.ok (by decide +kernel)
  have hhead : (tagHead? m.text).map (fun head => (head.name, head.rest)) =
      some ("audio".toList, "\nsrc='a/controls' autoplay>".toList) := by
    decide +kernel
  obtain ⟨name, rest, batch, e, hnamed, hbatch, hedits, -, honce, -, hresolved⟩ :=
    mending_gives_controls s (f := f) (g := g) (.inl ⟨rfl, rfl⟩) rfl (by decide)
      (hslice ▸ hstarts) (hslice ▸ happlies)
  rw [hslice] at hnamed
  rw [hnamed.tagHead?_eq] at hhead
  obtain ⟨rfl, rfl⟩ := Prod.mk.inj (Option.some.inj hhead)
  obtain ⟨hnew, hids⟩ := honce (by decide)
  exact ⟨hstarts, happlies, batch, e, hbatch, hedits, hnew, hids, (hresolved s.text).2⟩

/-- Where a slash follows the name, the controls of the first repair do not count, and the tag gets
them twice. -/
theorem mending_gives_controls_twice :
    let s : Snapshot := { text := "<audio/autoplay>".toList }
    let m : Match := { start := 0, stop := 16, text := s.text, held := [] }
    let f := Guideline.Distinguishable.autoplay.finding s m
    let g := Guideline.Keyboard.movingContent.finding s m
    (Guideline.Distinguishable.autoplay.pattern.bind (·.matchAt? (Cursor.start s.text))) =
        some m ∧
      Guideline.Distinguishable.autoplay.condition m.text s.text = .ok true ∧
      Guideline.Keyboard.movingContent.condition m.text s.text = .ok true ∧
      (mending s [f, g] Guideline.rules).toOption.map (·.edits) =
        some [⟨0, 16, "<audio controls controls/autoplay>".toList, ["R42", "R56"]⟩] := by
  intro s m f g
  rw [Guideline.rules_eq_insertionSort]
  exact ⟨by decide +kernel, congrArg Except.ok (by decide +kernel),
    congrArg Except.ok (by decide +kernel), by decide +kernel⟩

end Batch

end MarkupAudit
