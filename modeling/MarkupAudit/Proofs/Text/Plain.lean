import MarkupAudit.Proofs.Text.Fold

/-! # Plain texts

Among plain characters, ignoring case is comparing lower cases, and the lower case of a text is that
of its characters. -/

namespace MarkupAudit.Text

theorem toLower_plain {c : Char} (hc : c.toNat < 128) : c.toLower.toNat < 128 :=
  forall_plain (P := fun c => c.toLower.toNat < 128) (by decide) c hc

theorem sameFold_of_plain {c x : Char} (hc : c.toNat < 128) (hx : x.toNat < 128) :
    sameFold c x = (x.toLower == c.toLower) := by
  have htwins : x.toLower.toNat ∉ twinsOf c.toLower := by
    intro hmem
    have htwin := twinsOf_plain (toLower_plain hc) hmem
    have hplain := toLower_plain hx
    simp only [List.mem_cons, List.not_mem_nil, or_false] at htwin
    omega
  have hcontains : (twinsOf c.toLower).contains x.toLower.toNat = false := by
    simpa using htwins
  rw [sameFold, lowerChar_of_plain hc, lowerChar_of_plain hx, hcontains, Bool.or_false]

/-- The characters beyond the plain ones that stand for a plain letter when case is ignored. -/
def plainTwins : List Char :=
  ['\u0130', '\u0131', '\u017F', '\u212A']

theorem toLower_of_not_plain {c : Char} (hc : ¬ c.toNat < 128) : c.toLower = c := by
  have hupper : ¬ (c.val ≥ 'A'.val ∧ c.val ≤ 'Z'.val) := by
    rintro ⟨-, hle⟩
    rw [UInt32.le_iff_toNat_le] at hle
    change c.toNat ≤ 90 at hle
    omega
  exact dif_neg hupper

/-- What does not depend on case is the same for two characters with the same lower case, if one of
them is plain. -/
theorem eq_of_toLower_eq (holds : Char → Bool)
    (hcase : ∀ n < 128, holds (Char.ofNat n).toLower = holds (Char.ofNat n)) {c x : Char}
    (hc : c.toNat < 128) (h : x.toLower = c.toLower) : holds x = holds c := by
  have hx : x.toNat < 128 := by
    refine Decidable.byContradiction fun hx => ?_
    have hlower := toLower_plain hc
    rw [← h, toLower_of_not_plain hx] at hlower
    exact hx hlower
  have hplain := forall_plain (P := fun c => holds c.toLower = holds c) hcase
  rw [← hplain x hx, h, hplain c hc]

/-- Other characters stand for a plain letter or digit only if their lower cases agree. -/
theorem sameFold_of_notMem {c x : Char} (hc : c.isAlphanum) (hx : x ∉ plainTwins) :
    sameFold c x = (x.toLower == c.toLower) := by
  have hplain : c.toNat < 128 := plain_of_isAlphanum hc
  by_cases hxplain : x.toNat < 128
  · exact sameFold_of_plain hplain hxplain
  · have hlower : c.toLower.toNat < 128 ∧ c.toLower.toNat ≠ 0 :=
      forall_plain (P := fun c => c.isAlphanum → c.toLower.toNat < 128 ∧ c.toLower.toNat ≠ 0)
        (by decide) c hplain hc
    have hne : (x.toLower == c.toLower) = false := by
      rw [beq_eq_false_iff_ne, toLower_of_not_plain hxplain]
      rintro rfl
      exact hxplain hlower.1
    rw [hne, sameFold, lowerChar_of_plain hplain, Bool.or_eq_false_iff]
    constructor
    · rw [beq_eq_false_iff_ne]
      intro heq
      obtain ⟨h, -⟩ | rfl | rfl := lowerChar_eq_plain hlower.1 hlower.2 heq
      · exact hxplain h
      · exact hx (by decide)
      · exact hx (by decide)
    · rw [Bool.eq_false_iff, ne_eq, List.contains_iff_mem]
      intro hmem
      have htwin := twinsOf_plain hlower.1 hmem
      have hself : x = lowerChar x := lowerChar_eq_twin htwin rfl
      rw [← hself] at htwin
      simp only [List.mem_cons, List.not_mem_nil, or_false] at htwin
      rcases htwin with hcode | hcode
      · exact hx (by rw [Char.toNat_inj.mp (show x.toNat = '\u0131'.toNat from hcode)]; decide)
      · exact hx (by rw [Char.toNat_inj.mp (show x.toNat = '\u017F'.toNat from hcode)]; decide)

theorem eq_of_sameFold_h {c : Char} (h : sameFold 'h' c) : c = 'h' ∨ c = 'H' := by
  have hlower : lowerChar 'h' = 'h' := lowerChar_of_plain (by decide)
  have htwins : twinsOf 'h' = [] := by decide
  rw [sameFold, hlower, htwins, List.contains_nil, Bool.or_false, beq_iff_eq] at h
  obtain ⟨hplain, hc⟩ | rfl | rfl := lowerChar_eq_plain (by decide) (by decide) h
  · exact forall_plain (P := fun c => c.toLower = 'h' → c = 'h' ∨ c = 'H') (by decide) c hplain hc
  · rw [lowerChar_dotted] at h
    exact absurd h (by decide)
  · rw [lowerChar_kelvin] at h
    exact absurd h (by decide)

theorem lowerFrom_cons_of_plain {c : Char} (hc : c.toNat < 128) (before t : Text) :
    lowerFrom before (c :: t) = c.toLower :: lowerFrom (c :: before) t := by
  have hsigma : c ≠ '\u03A3' := by rintro rfl; revert hc; decide
  have hdotted : c ≠ '\u0130' := by rintro rfl; revert hc; decide
  simp only [lowerFrom, if_neg hsigma, if_neg hdotted, lowerChar_of_plain hc,
    List.singleton_append]

theorem lowerFrom_of_plain {t : Text} (ht : ∀ c ∈ t, c.toNat < 128) (before : Text) :
    lowerFrom before t = t.map Char.toLower := by
  induction t generalizing before with
  | nil => rfl
  | cons c t ih =>
      obtain ⟨hc, hrest⟩ := List.forall_mem_cons.mp ht
      rw [lowerFrom_cons_of_plain hc, ih hrest, List.map_cons]

theorem lower_of_plain {t : Text} (ht : ∀ c ∈ t, c.toNat < 128) : lower t = t.map Char.toLower :=
  lowerFrom_of_plain ht []

end MarkupAudit.Text
