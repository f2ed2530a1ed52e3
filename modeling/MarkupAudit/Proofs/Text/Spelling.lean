import MarkupAudit.Proofs.Markup.Opening
import MarkupAudit.Proofs.Text.Plain
import Mathlib.Data.List.Forall2

/-! # Spelling a name

White space and marks stand only for themselves when case is ignored, so that a name is not spelled
with any of them, and where a name ends is the same for every way to spell it. -/

namespace MarkupAudit.Text

/-! ## Characters without case -/

theorem exists_entry_of_mem_twinsOf {d : Char} {n : ℕ} (h : n ∈ twinsOf d) :
    ∃ entry ∈ caseTwins, n ∈ entry.2 := by
  unfold twinsOf at h
  split at h
  · exact ⟨(0x69, [0x131]), by decide, h⟩
  split at h
  · exact ⟨(0x73, [0x17F]), by decide, h⟩
  split at h
  · cases h
  split at h
  · next entry hfind => exact ⟨entry, List.mem_of_find?_eq_some hfind, h⟩
  · cases h

/-- A character is the lower case of itself only and has no twin. -/
structure Caseless (x : Char) : Prop where
  lower_eq : lowerChar x = x
  eq_of_lower : ∀ c, lowerChar c = x → c = x
  not_twin : ∀ entry ∈ caseTwins, x.toNat ∉ entry.2

theorem Caseless.eq_of_sameFold {x : Char} (hx : Caseless x) {c : Char} (h : sameFold c x) :
    c = x := by
  rw [sameFold, hx.lower_eq, Bool.or_eq_true, beq_iff_eq, List.contains_iff_mem] at h
  rcases h with hlower | htwin
  · exact hx.eq_of_lower c hlower.symm
  · obtain ⟨entry, hentry, hmem⟩ := exists_entry_of_mem_twinsOf htwin
    exact absurd hmem (hx.not_twin entry hentry)

theorem caseless_of_not_letter {x : Char} (hx : x.toNat < 128) (h0 : x.toNat ≠ 0)
    (hletter : x.isAlpha = false) : Caseless x where
  lower_eq := by
    rw [lowerChar_of_plain hx]
    exact forall_plain (P := fun x => x.isAlpha = false → x.toLower = x) (by decide) x hx hletter
  eq_of_lower c h := by
    rw [← beq_iff_eq, ← sameFold_of_not_letter hx h0 hletter, sameFold, h, lowerChar_of_plain hx,
      forall_plain (P := fun x => x.isAlpha = false → x.toLower = x) (by decide) x hx hletter]
    simp
  not_twin entry hentry hmem := by
    have hplain : ∀ entry ∈ caseTwins, ∀ n ∈ entry.2, n < 128 → (Char.ofNat n).isAlpha := by
      decide +kernel
    have := hplain entry hentry _ hmem hx
    rw [Char.ofNat_toNat, hletter] at this
    cases this

/-- No run takes anything to white space. -/
theorem lowerRuns_not_blank : ∀ r ∈ lowerRuns, ∀ b ∈ blankRanges,
    (r.last : ℤ) + r.shift < b.1 ∨ (b.2 : ℤ) < r.first + r.shift := by
  decide +kernel

theorem blankRanges_caseless : ∀ b ∈ blankRanges, ∀ n ∈ List.range' b.1 (b.2 + 1 - b.1),
    lowerChar (Char.ofNat n) = Char.ofNat n ∧ (∀ entry ∈ caseTwins, n ∉ entry.2) ∧
      (n < 128 → n ≠ 0 ∧ (Char.ofNat n).isAlpha = false) := by
  decide +kernel

theorem caseless_of_isBlank {x : Char} (h : isBlank x) : Caseless x := by
  rw [isBlank, CodeRanges.covers, List.any_eq_true] at h
  obtain ⟨b, hb, hwithin⟩ := h
  rw [Bool.and_eq_true, decide_eq_true_iff, decide_eq_true_iff] at hwithin
  obtain ⟨hlower, htwin, hplain⟩ :=
    blankRanges_caseless b hb x.toNat (List.mem_range'_1.mpr (by omega))
  rw [Char.ofNat_toNat] at hlower hplain
  by_cases hx : x.toNat < 128
  · exact caseless_of_not_letter hx (hplain hx).1 (hplain hx).2
  · refine ⟨hlower, fun c hc => eq_of_lowerChar_eq (by omega) (fun r hr => ?_) hc, htwin⟩
    have := lowerRuns_not_blank r hr b hb
    omega

/-! ## Spelled names -/

/-- Whether a text is the name, ignoring case. -/
def isSpelled (name t : Text) : Bool :=
  startsLike name t && t.length == name.length

@[simp] theorem isSpelled_nil (t : Text) : isSpelled [] t = t.isEmpty := by
  cases t <;> rfl

@[simp] theorem isSpelled_cons_nil (c : Char) (name : Text) : isSpelled (c :: name) [] = false :=
  rfl

@[simp] theorem isSpelled_cons_cons (c x : Char) (name t : Text) :
    isSpelled (c :: name) (x :: t) = (sameFold c x && isSpelled name t) := by
  simp [isSpelled, startsLike, Bool.and_assoc]

theorem isSpelled_iff {name t : Text} :
    isSpelled name t ↔ List.Forall₂ (fun c x => sameFold c x) name t := by
  induction name generalizing t with
  | nil => cases t <;> simp
  | cons c name ih => cases t <;> simp [ih]

theorem startsLike_append_of_isSpelled {name t : Text} (h : isSpelled name t) (r : Text) :
    startsLike name (t ++ r) := by
  induction isSpelled_iff.mp h with
  | nil => rfl
  | cons hfold _ ih =>
      rw [isSpelled_cons_cons, hfold, Bool.true_and] at h
      rw [List.cons_append, startsLike, hfold, Bool.true_and]
      exact ih h

theorem length_eq_of_isSpelled {name t : Text} (h : isSpelled name t) : t.length = name.length :=
  (isSpelled_iff.mp h).length_eq.symm

theorem isSpelled_self (t : Text) : isSpelled t t := by
  rw [isSpelled_iff, List.forall₂_same]
  intro c _
  simp [sameFold]

theorem isSpelled_take {name t : Text} (h : startsLike name t) :
    isSpelled name (t.take name.length) := by
  induction name generalizing t with
  | nil => simp
  | cons c name ih =>
      cases t with
      | nil => cases h
      | cons x t =>
          rw [startsLike, Bool.and_eq_true] at h
          rw [List.length_cons, List.take_succ_cons, isSpelled_cons_cons, h.1, ih h.2]
          rfl

/-- A name of letters and digits is spelled with word characters. -/
theorem isWord_of_isSpelled {name w : Text} (hname : name.all Char.isAlphanum)
    (h : isSpelled name w) : ∀ x ∈ w, isWord x := by
  induction isSpelled_iff.mp h with
  | nil => simp
  | @cons c x name w hfold _ ih =>
      rw [List.all_cons, Bool.and_eq_true] at hname
      rw [isSpelled_cons_cons, Bool.and_eq_true] at h
      exact List.forall_mem_cons.mpr ⟨isWord_of_sameFold hname.1 hfold, ih hname.2 h.2⟩

/-- A text of plain characters. -/
def isPlain (t : Text) : Bool :=
  t.all fun c => c.toNat < 128

theorem toNat_lt_of_isPlain {t : Text} (ht : isPlain t) : ∀ c ∈ t, c.toNat < 128 := by
  simpa [isPlain] using ht

/-- A plain name is spelled by the plain texts with its lower case. -/
theorem isSpelled_of_plain {name t : Text} (hname : isPlain name) (ht : isPlain t) :
    isSpelled name t = decide (lower t = lower name) := by
  have hname := toNat_lt_of_isPlain hname
  have ht := toNat_lt_of_isPlain ht
  rw [isSpelled, startsLike_length_eq fun c hc x hx => sameFold_of_plain (hname c hc) (ht x hx),
    lower_of_plain hname, lower_of_plain ht]

/-- A letter that only itself and its other case stand for when case is ignored. -/
def isUntwinned (c : Char) : Bool :=
  c.isAlpha && !(['i', 'k', 's'].contains c.toLower)

/-- Two characters that one character stands for both have the same lower case, if one of them is a
letter without twins. -/
theorem toLower_eq_of_sameFold {c d x : Char} (hc : isUntwinned c) (hx : sameFold c x)
    (hd : sameFold d x) : d.toNat < 128 ∧ d.toLower = c.toLower := by
  rw [isUntwinned, Bool.and_eq_true] at hc
  have hplain : c.toNat < 128 := plain_of_isAlphanum (by simp [Char.isAlphanum, hc.1])
  obtain ⟨hlower, hzero, htwins⟩ : c.toLower.toNat < 128 ∧ c.toLower.toNat ≠ 0 ∧
      twinsOf c.toLower = [] ∧ ∀ entry ∈ caseTwins, c.toLower.toNat ∈ entry.2 → False :=
    forall_plain (P := fun c => c.isAlpha ∧ (!(['i', 'k', 's'].contains c.toLower)) = true →
      c.toLower.toNat < 128 ∧ c.toLower.toNat ≠ 0 ∧ twinsOf c.toLower = [] ∧
        ∀ entry ∈ caseTwins, c.toLower.toNat ∈ entry.2 → False) (by decide +kernel) c hplain hc
  have hletter : c.toLower ∉ ['i', 'k', 's'] := by
    simpa using hc.2
  rw [sameFold, lowerChar_of_plain hplain, htwins.1, List.contains_nil, Bool.or_false,
    beq_iff_eq] at hx
  rw [sameFold, hx, Bool.or_eq_true, beq_iff_eq, List.contains_iff_mem] at hd
  rcases hd with hd | htwin
  · rcases lowerChar_eq_plain hlower hzero hd.symm with h | rfl | rfl
    · exact h
    · rw [← lowerChar_dotted, hd] at hletter
      simp at hletter
    · rw [← lowerChar_kelvin, hd] at hletter
      simp at hletter
  · obtain ⟨entry, hentry, hmem⟩ := exists_entry_of_mem_twinsOf htwin
    exact (htwins.2 entry hentry hmem).elim

/-- Two names with a common spelling have the same lower case, if one is of letters without
twins. -/
theorem lower_eq_of_isSpelled {name other t : Text} (hname : name.all isUntwinned)
    (h : isSpelled name t) (hother : isSpelled other t) : lower other = lower name := by
  have hplain : ∀ c ∈ name, c.toNat < 128 := by
    intro c hc
    have hletter := List.all_eq_true.mp hname c hc
    rw [isUntwinned, Bool.and_eq_true] at hletter
    exact plain_of_isAlphanum (by simp [Char.isAlphanum, hletter.1])
  have hlower : (∀ d ∈ other, d.toNat < 128) ∧ other.map Char.toLower = name.map Char.toLower := by
    clear hplain
    induction isSpelled_iff.mp h generalizing other with
    | nil =>
        rw [isSpelled_iff, List.forall₂_nil_right_iff] at hother
        simp [hother]
    | @cons c x name t hfold _ ih =>
        rw [isSpelled_iff, List.forall₂_cons_right_iff] at hother
        obtain ⟨d, other, hd, hrest, rfl⟩ := hother
        rw [List.all_cons, Bool.and_eq_true] at hname
        rw [isSpelled_cons_cons, Bool.and_eq_true] at h
        obtain ⟨hdplain, hdlower⟩ := toLower_eq_of_sameFold hname.1 hfold hd
        obtain ⟨hplain, hlower⟩ := ih hname.2 h.2 (isSpelled_iff.mpr hrest)
        rw [List.map_cons, List.map_cons, hdlower, hlower]
        exact ⟨List.forall_mem_cons.mpr ⟨hdplain, hplain⟩, rfl⟩
  rw [lower_of_plain hlower.1, lower_of_plain hplain, hlower.2]

/-- No text is the one name as well as the other, ignoring case. -/
def Apart (name other : Text) : Prop :=
  ∀ t, isSpelled name t → isSpelled other t = false

theorem apart_of_lower_ne {name other : Text} (hname : name.all isUntwinned)
    (h : lower other ≠ lower name) : Apart name other := by
  intro t ht
  rw [Bool.eq_false_iff]
  exact fun hother => h (lower_eq_of_isSpelled hname ht hother)

section Stops

variable {stops : Char → Bool} (hstops : ∀ x, stops x → Caseless x)

include hstops

theorem not_stops_of_sameFold {c x : Char} (hc : stops c = false) (h : sameFold c x) :
    stops x = false := by
  rw [Bool.eq_false_iff]
  intro hx
  rw [(hstops x hx).eq_of_sameFold h, hx] at hc
  cases hc

/-- A name does not start with a stop. -/
theorem startsLike_eq_false_of_stop {c : Char} (hc : stops c = false) (name : Text) {t : Text}
    (ht : t.head?.all stops) : startsLike (c :: name) t = false := by
  cases t with
  | nil => rfl
  | cons x t =>
      have hfold : sameFold c x = false := by
        rw [Bool.eq_false_iff]
        intro hfold
        have hx : stops x := by simpa using ht
        rw [not_stops_of_sameFold hstops hc hfold] at hx
        cases hx
      rw [startsLike, hfold, Bool.false_and]

variable {name : Text} (hname : ∀ c ∈ name, stops c = false)

include hname

/-- A name without stops is spelled without stops. -/
theorem not_stops_of_isSpelled {t : Text} (h : isSpelled name t) : ∀ x ∈ t, stops x = false := by
  induction isSpelled_iff.mp h with
  | nil => simp
  | @cons c x name t hfold _ ih =>
      obtain ⟨hc, hrest⟩ := List.forall_mem_cons.mp hname
      rw [isSpelled_cons_cons, Bool.and_eq_true] at h
      exact List.forall_mem_cons.mpr ⟨not_stops_of_sameFold hstops hc hfold, ih hrest h.2⟩

/-- Before a stop, a name is found together with its end only if it is what stands there. -/
theorem startsLike_append_of_stop {t tail : Text} (ht : ∀ c ∈ t, stops c = false)
    (htail : tail.head?.all stops) {ends : Text → Bool}
    (hends : ∀ c r, stops c = false → ends (c :: r) = false) :
    (startsLike name (t ++ tail) && ends ((t ++ tail).drop name.length)) =
      (isSpelled name t && ends tail) := by
  induction name generalizing t with
  | nil =>
      cases t with
      | nil => simp [startsLike]
      | cons x t => simp [startsLike, hends x _ (ht x (by simp))]
  | cons c name ih =>
      obtain ⟨hc, hrest⟩ := List.forall_mem_cons.mp hname
      cases t with
      | nil =>
          rw [List.nil_append, startsLike_eq_false_of_stop hstops hc name htail, Bool.false_and,
            isSpelled_cons_nil, Bool.false_and]
      | cons x t =>
          have ht' : ∀ c ∈ t, stops c = false := fun d hd => ht d (List.mem_cons_of_mem x hd)
          rw [List.cons_append, startsLike, Bool.and_assoc, List.length_cons, List.drop_succ_cons,
            ih hrest ht', isSpelled_cons_cons, Bool.and_assoc]

end Stops

end MarkupAudit.Text
