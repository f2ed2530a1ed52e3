import MarkupAudit.Contrast
import MarkupAudit.Proofs.Catalog.Merging
import MarkupAudit.Proofs.Evaluation.Reports
import MarkupAudit.Proofs.Json.Writer
import MarkupAudit.Proofs.Text.Idempotence
import MarkupAudit.Proofs.Text.Plain
import Mathlib.Data.List.Nodup

/-! # Colours that can be judged

A colour is written with six hexadecimal digits, and its components are written with these digits
again. The rules about contrast compare two colours, and report a tag only if both are written so: a
colour that cannot be judged is never reported. -/

namespace MarkupAudit

namespace Text

/-! ## Hexadecimal digits -/

/-- The hexadecimal digits. -/
def hexDigits : List Char :=
  "0123456789abcdefABCDEF".toList

theorem plain_of_mem_hexDigits {c : Char} (hc : c ∈ hexDigits) : c.toNat < 128 := by
  have hall : hexDigits.all (·.toNat < 128) := by decide
  simpa using List.all_eq_true.mp hall c hc

/-- A digit has a value, and the digit of this value is the same one in lower case. -/
theorem exists_hexValue? {c : Char} (hc : c ∈ hexDigits) :
    ∃ n < 16, hexValue? c = some n ∧ n.digitChar = c.toLower :=
  forall_plain (P := fun c => c ∈ hexDigits → ∃ n < 16, hexValue? c = some n ∧
    n.digitChar = c.toLower) (by decide +kernel) c (plain_of_mem_hexDigits hc) hc

theorem plain_of_hexValue? {c : Char} {n : ℕ} (h : hexValue? c = some n) : c.toNat < 128 := by
  have hle : c ≤ 'f' := by
    unfold hexValue? at h
    split at h
    · next hdigit => exact Char.le_trans hdigit.2 (by decide)
    · split at h
      · next hlower => exact hlower.2
      · split at h
        · next hupper => exact Char.le_trans hupper.2 (by decide)
        · cases h
  exact Nat.lt_of_le_of_lt (UInt32.le_iff_toNat_le.mp hle) (by decide)

theorem mem_hexDigits_of_hexValue? {c : Char} {n : ℕ} (h : hexValue? c = some n) :
    c ∈ hexDigits := by
  have hsome : (hexValue? c).isSome := by simp [h]
  exact forall_plain (P := fun c => (hexValue? c).isSome → c ∈ hexDigits) (by decide) c
    (plain_of_hexValue? h) hsome

theorem toList_hexadecimal_two {m n : ℕ} (hm : m < 16) (hn : n < 16) :
    (hexadecimal 2 (16 * m + n)).toList = [m.digitChar, n.digitChar] := by
  have hdiv : (16 * m + n) / 16 = m := by omega
  have hmod : (16 * m + n) % 16 = n := by omega
  rw [hexadecimal, String.toList_ofList, padZeros_toDigits, hdiv, hmod, padZeros_one_toDigits hm]
  rfl

/-- The number that two hexadecimal digits write. -/
def hexPair? (x y : Char) : Option ℕ := do
  return 16 * (← hexValue? x) + (← hexValue? y)

theorem exists_hexPair? {x y : Char} (hx : x ∈ hexDigits) (hy : y ∈ hexDigits) :
    ∃ n ≤ 255, hexPair? x y = some n ∧ (hexadecimal 2 n).toList = [x.toLower, y.toLower] := by
  obtain ⟨m, hm, hxm, hmx⟩ := exists_hexValue? hx
  obtain ⟨n, hn, hyn, hny⟩ := exists_hexValue? hy
  refine ⟨16 * m + n, by omega, ?_, ?_⟩
  · rw [hexPair?, hxm, hyn]
    rfl
  · rw [toList_hexadecimal_two hm hn, hmx, hny]

theorem mem_hexDigits_of_hexPair? {x y : Char} {n : ℕ} (h : hexPair? x y = some n) :
    x ∈ hexDigits ∧ y ∈ hexDigits := by
  obtain ⟨k, hk, hrest⟩ := Option.bind_eq_some_iff.mp h
  obtain ⟨l, hl, -⟩ := Option.bind_eq_some_iff.mp hrest
  exact ⟨mem_hexDigits_of_hexValue? hk, mem_hexDigits_of_hexValue? hl⟩

end Text

open Text

/-! ## Written colours -/

/-- Six hexadecimal digits. -/
structure ColourDigits where
  text : Text
  length_eq : text.length = 6
  isHex : ∀ c ∈ text, c ∈ hexDigits

/-- The digits of a text. -/
def ColourDigits.of (text : Text) (h : text.length == 6 && text.all (hexDigits.contains ·)) :
    ColourDigits where
  text := text
  length_eq := beq_iff_eq.mp (Bool.and_eq_true_iff.mp h).1
  isHex c hc := by simpa using List.all_eq_true.mp (Bool.and_eq_true_iff.mp h).2 c hc

/-- The text shows the digits, with or without a number sign before them and with white space
around. -/
def ColourDigits.ShownIn (digits : ColourDigits) (t : Text) : Prop :=
  trim t = digits.text ∨ trim t = '#' :: digits.text

namespace Rgb

/-- The components are bytes. -/
structure IsByte (c : Rgb) : Prop where
  red_le : c.red ≤ 255
  green_le : c.green ≤ 255
  blue_le : c.blue ≤ 255

/-- The components in two lower case hexadecimal digits each. -/
def written (c : Rgb) : Text :=
  [c.red, c.green, c.blue].flatMap fun n => (hexadecimal 2 n).toList

theorem ofDigits?_eq (r₁ r₀ g₁ g₀ b₁ b₀ : Char) :
    ofDigits? [r₁, r₀, g₁, g₀, b₁, b₀] = (do
      let red ← hexPair? r₁ r₀
      let green ← hexPair? g₁ g₀
      let blue ← hexPair? b₁ b₀
      return { red, green, blue }) := by
  simp [ofDigits?, hexPair?, Option.bind_assoc]

/-- Digits write a colour, which is written with the same digits in lower case. -/
theorem exists_ofDigits? (digits : ColourDigits) :
    ∃ c, ofDigits? digits.text = some c ∧ c.IsByte ∧ c.written = lower digits.text := by
  obtain ⟨t, hlength, hhex⟩ := digits
  match t with
  | [r₁, r₀, g₁, g₀, b₁, b₀] =>
      obtain ⟨red, hred, hr, hwr⟩ :=
        exists_hexPair? (hhex r₁ (by simp)) (hhex r₀ (by simp))
      obtain ⟨green, hgreen, hg, hwg⟩ :=
        exists_hexPair? (hhex g₁ (by simp)) (hhex g₀ (by simp))
      obtain ⟨blue, hblue, hb, hwb⟩ :=
        exists_hexPair? (hhex b₁ (by simp)) (hhex b₀ (by simp))
      refine ⟨⟨red, green, blue⟩, ?_, ⟨hred, hgreen, hblue⟩, ?_⟩
      · rw [ofDigits?_eq, hr, hg, hb]
        rfl
      · rw [lower_of_plain fun c hc => plain_of_mem_hexDigits (hhex c hc)]
        simp [written, hwr, hwg, hwb]

/-- Only digits write a colour. -/
theorem exists_digits_of_ofDigits? {t : Text} {c : Rgb} (h : ofDigits? t = some c) :
    ∃ digits : ColourDigits, digits.text = t := by
  match t with
  | [r₁, r₀, g₁, g₀, b₁, b₀] =>
      rw [ofDigits?_eq] at h
      obtain ⟨red, hr, h⟩ := Option.bind_eq_some_iff.mp h
      obtain ⟨green, hg, h⟩ := Option.bind_eq_some_iff.mp h
      obtain ⟨blue, hb, -⟩ := Option.bind_eq_some_iff.mp h
      refine ⟨⟨_, rfl, ?_⟩, rfl⟩
      simp [mem_hexDigits_of_hexPair? hr, mem_hexDigits_of_hexPair? hg,
        mem_hexDigits_of_hexPair? hb]

theorem ofText?_of_shownIn {digits : ColourDigits} {t : Text} (h : digits.ShownIn t) :
    ofText? t = ofDigits? digits.text := by
  unfold ofText?
  rcases h with hbare | hsigned
  · split
    · next others hsign =>
        have hmem : '#' ∈ digits.text := by simp [← hbare, hsign]
        exact absurd (digits.isHex '#' hmem) (by decide)
    · rw [hbare]
  · rw [hsigned]
    rfl

theorem isSome_ofText?_iff {t : Text} :
    (ofText? t).isSome ↔ ∃ digits : ColourDigits, digits.ShownIn t := by
  constructor
  · intro h
    obtain ⟨c, hc⟩ := Option.isSome_iff_exists.mp h
    unfold ofText? at hc
    split at hc
    · next others hsign =>
        obtain ⟨digits, rfl⟩ := exists_digits_of_ofDigits? hc
        exact ⟨digits, .inr hsign⟩
    · obtain ⟨digits, hdigits⟩ := exists_digits_of_ofDigits? hc
      exact ⟨digits, .inl hdigits.symm⟩
  · rintro ⟨digits, hshown⟩
    obtain ⟨c, hc, -⟩ := exists_ofDigits? digits
    rw [ofText?_of_shownIn hshown, hc]
    rfl

end Rgb

/-! ## Tags that are too faint -/

theorem Contrast.exists_of_not_meets {foreground background : Text} {minimum : Float}
    (h : meets foreground background minimum = false) :
    ∃ a b, Rgb.ofText? foreground = some a ∧ Rgb.ofText? background = some b ∧
      ¬ratio a b ≥ minimum := by
  unfold meets ratio? at h
  cases ha : Rgb.ofText? foreground with
  | none => simp [ha] at h
  | some a =>
      cases hb : Rgb.ofText? background with
      | none => simp [ha, hb] at h
      | some b => exact ⟨a, b, rfl, rfl, by simpa [ha, hb] using h⟩

theorem Markup.Style.get?_of_isWritten {style : Markup.Style} {property : String}
    (h : Rgb.isWritten (style.get property)) : style.get? property = some (style.get property) := by
  unfold Markup.Style.get at h ⊢
  cases hget : style.get? property with
  | none => simp [hget, Rgb.isWritten] at h
  | some value => rfl

theorem Rule.AsksOf.holds_of_mem {r : Rule} {p : Pattern} {holds : Text → Bool}
    (h : r.AsksOf p holds) {t : Text} {s : Snapshot} {f : Finding}
    (hf : f ∈ (Evaluation.ofRule t s r).findings) :
    holds (Text.slice t f.span.start f.span.stop) := by
  rw [h.findings_eq] at hf
  obtain ⟨m, hm, rfl⟩ := List.mem_map.mp hf
  obtain ⟨hall, hholds⟩ := List.mem_filter.mp hm
  have htext : m.text = Text.slice t m.start m.stop := (Pattern.inText_all hall).text_eq
  rw [htext, Bool.and_eq_true] at hholds
  exact hholds.2

namespace Guideline

open Markup

/-- What may be too faint: text, or a control. -/
inductive Faintness where
  | text
  | control

namespace Faintness

/-- The id of the rule. -/
def ruleId : Faintness → String
  | text => "R43"
  | control => "R49"

/-- The background where none is declared. -/
def fallback : Faintness → Option Text
  | text => some "#ffffff".toList
  | control => none

/-- The least contrast. -/
def minimum : Faintness → Float
  | text => Contrast.textMinimum
  | control => Contrast.controlMinimum

/-- The rule by its id. -/
def rule : Faintness → Rule
  | text => Distinguishable.textContrast
  | control => Distinguishable.controlContrast

theorem rule_id (a : Faintness) : a.rule.id = a.ruleId := by
  cases a <;> rfl

theorem rule_mem (a : Faintness) : a.rule ∈ rules := by
  cases a <;> simp [rule, mem_rules, perceivable]

theorem eq_rule (a : Faintness) {r : Rule} (hr : r ∈ rules) (hid : r.id = a.ruleId) :
    r = a.rule :=
  List.inj_on_of_nodup_map nodup_ids hr a.rule_mem (hid.trans a.rule_id.symm)

/-- Whether the tag is too faint, as the rule asks. -/
def holds : Faintness → Text → Bool
  | text => Distinguishable.hasFaintText
  | control => Distinguishable.hasFaintControl

theorem exists_asksOf (a : Faintness) : ∃ p, a.rule.AsksOf p a.holds := by
  cases a with
  | text => exact ⟨_, rfl, rfl⟩
  | control => exact ⟨_, rfl, rfl⟩

/-- The colour and the background of a tag are two colours that are too close. The background is
the declared one, or else the fallback. -/
def IsJudged (a : Faintness) (tag : Text) : Prop :=
  ∃ foreground background c d, (styleOf tag).get? "color" = some foreground ∧
    ((styleOf tag).get? "background-color").or a.fallback = some background ∧
    Rgb.ofText? foreground = some c ∧ Rgb.ofText? background = some d ∧
    ¬Contrast.ratio c d ≥ a.minimum

theorem isJudged_of_holds (a : Faintness) {tag : Text} (h : a.holds tag) : a.IsJudged tag := by
  cases a with
  | text =>
      obtain ⟨hwritten, hmeets⟩ := Bool.and_eq_true_iff.mp h
      obtain ⟨c, d, hc, hd, hratio⟩ := Contrast.exists_of_not_meets (by simpa using hmeets)
      refine ⟨_, _, c, d, Style.get?_of_isWritten hwritten, ?_, hc, hd, hratio⟩
      cases (styleOf tag).get? "background-color" <;> rfl
  | control =>
      obtain ⟨hboth, hmeets⟩ := Bool.and_eq_true_iff.mp h
      obtain ⟨hforeground, hbackground⟩ := Bool.and_eq_true_iff.mp hboth
      obtain ⟨c, d, hc, hd, hratio⟩ := Contrast.exists_of_not_meets (by simpa using hmeets)
      refine ⟨_, _, c, d, Style.get?_of_isWritten hforeground, ?_, hc, hd, hratio⟩
      rw [Style.get?_of_isWritten hbackground]
      rfl

theorem isJudged_of_condition (a : Faintness) {tag document : Text}
    (h : a.rule.condition tag document = .ok true) : a.IsJudged tag := by
  obtain ⟨p, hasks⟩ := a.exists_asksOf
  rw [Rule.condition, hasks.applies_eq] at h
  exact a.isJudged_of_holds (Except.ok.inj h)

theorem isJudged_of_mem_findings (a : Faintness) {t : Text} {s : Snapshot} {f : Finding}
    (hf : f ∈ (Evaluation.ofPrepared t s rules).findings) (hid : f.ruleId = a.ruleId) :
    a.IsJudged (Text.slice t f.span.start f.span.stop) := by
  obtain ⟨p, hasks⟩ := a.exists_asksOf
  have hown : f ∈ (Evaluation.ofRule t s a.rule).findings := by
    rw [← Evaluation.findings_filter nodup_ids a.rule_mem, List.mem_filter, a.rule_id]
    exact ⟨hf, beq_iff_eq.mpr hid⟩
  exact a.isJudged_of_holds (hasks.holds_of_mem hown)

end Faintness

/-- A text writes a colour just if it shows six hexadecimal digits, and the components of the colour
are bytes that are written with these digits again. Where a rule about contrast applies, and in what
it reports of a document, both colours that it compares are written so. -/
theorem judged_colours_are_written (t tag document : Text) (s : Snapshot) :
    ((Rgb.ofText? t).isSome ↔ ∃ digits : ColourDigits, digits.ShownIn t) ∧
      (∀ digits : ColourDigits, digits.ShownIn t →
        ∃ c, Rgb.ofText? t = some c ∧ c.IsByte ∧ c.written = Text.lower digits.text) ∧
      ∀ a : Faintness,
        (∀ r ∈ rules, r.id = a.ruleId → r.condition tag document = .ok true → a.IsJudged tag) ∧
        ∀ f ∈ (Evaluation.ofSnapshot s rules).findings, f.ruleId = a.ruleId →
          a.IsJudged (Text.slice (Region.blank s.text) f.span.start f.span.stop) := by
  refine ⟨Rgb.isSome_ofText?_iff, ?_, ?_⟩
  · intro digits hshown
    rw [Rgb.ofText?_of_shownIn hshown]
    exact Rgb.exists_ofDigits? digits
  · intro a
    constructor
    · intro r hr hid happlies
      rw [a.eq_rule hr hid] at happlies
      exact a.isJudged_of_condition happlies
    · intro f hf hid
      exact a.isJudged_of_mem_findings hf hid

/-- A paragraph of two dark colours, one of them without a number sign, in a document that has
nothing else. -/
theorem judged_colours_are_written_dark :
    let tag := "<p style=\"color:#0A0a0A;background-color:000000\">".toList
    let s : Snapshot := { text := tag, language := "html", path := none }
    let digits : ColourDigits := .of "0A0a0A".toList (by decide)
    let f := Distinguishable.textContrast.finding s ⟨0, tag.length, tag, []⟩
    digits.ShownIn "\u00A0#0A0a0A\n".toList ∧
      (∃ c, Rgb.ofText? "\u00A0#0A0a0A\n".toList = some c ∧ c.IsByte ∧
        c.written = "0a0a0a".toList) ∧
      Distinguishable.textContrast.condition tag tag = .ok true ∧ Faintness.text.IsJudged tag ∧
      f ∈ (Evaluation.ofSnapshot s rules).findings ∧
      Faintness.text.IsJudged
        (Text.slice (Region.blank s.text) f.span.start f.span.stop) := by
  intro tag s digits f
  have hshown : digits.ShownIn "\u00A0#0A0a0A\n".toList := .inr (by decide)
  have hcondition : Distinguishable.textContrast.condition tag tag = .ok true := by decide +kernel
  have hown : f ∈ (Evaluation.ofRule (Region.blank s.text) s
      Distinguishable.textContrast).findings := by decide +kernel
  have hf : f ∈ (Evaluation.ofSnapshot s rules).findings :=
    Evaluation.mem_findings_iff.mpr ⟨_, Faintness.text.rule_mem, hown⟩
  obtain ⟨-, hwritten, hjudged⟩ :=
    judged_colours_are_written "\u00A0#0A0a0A\n".toList tag tag s
  exact ⟨hshown, hwritten digits hshown, hcondition,
    (hjudged .text).1 _ Faintness.text.rule_mem rfl hcondition, hf, (hjudged .text).2 f hf rfl⟩

end Guideline

end MarkupAudit
