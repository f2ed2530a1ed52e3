import MarkupAudit.Text.Fold
import MarkupAudit.Text.Word
import Mathlib.Data.Int.Notation
import Mathlib.Data.Nat.Notation

/-! # Case folding of plain characters

A plain character other than a letter stands only for itself when case is ignored, and whatever
stands for a plain letter or digit is a word character. -/

namespace MarkupAudit.Text

/-- A property of plain characters can be checked on each of them. -/
theorem forall_plain {P : Char → Prop} (h : ∀ n < 128, P (Char.ofNat n)) (c : Char)
    (hc : c.toNat < 128) : P c := by
  simpa using h c.toNat hc

theorem toNat_ofNat_of_ne_zero {n : ℕ} (h : (Char.ofNat n).toNat ≠ 0) :
    (Char.ofNat n).toNat = n := by
  unfold Char.ofNat at h ⊢
  by_cases hn : n.isValidChar
  · rw [dif_pos hn]
    rfl
  · rw [dif_neg hn] at h
    exact absurd rfl h

/-! ## Lower case -/

theorem CaseRun.apply_eq (runs : List CaseRun) (n : ℕ) :
    CaseRun.apply runs n = n ∨
      ∃ r ∈ runs, (r.first ≤ n ∧ n ≤ r.last ∧ (n - r.first) % r.stride = 0) ∧
        CaseRun.apply runs n = (n + r.shift).toNat := by
  unfold CaseRun.apply
  split
  · rename_i r hr
    have hmem := List.mem_of_find?_eq_some hr
    have hcond := List.find?_some hr
    simp only [Bool.and_eq_true, decide_eq_true_eq, beq_iff_eq] at hcond
    exact .inr ⟨r, hmem, ⟨hcond.1.1, hcond.1.2, hcond.2⟩, rfl⟩
  · exact .inl rfl

theorem lowerChar_of_plain {x : Char} (hx : x.toNat < 128) : lowerChar x = x.toLower :=
  if_pos hx

theorem lowerChar_of_not_plain {x : Char} (hx : ¬ x.toNat < 128) :
    lowerChar x = Char.ofNat (CaseRun.apply lowerRuns x.toNat) :=
  if_neg hx

/-- Beyond the plain characters, lower case stays beyond them but for two capitals. -/
theorem lowerRuns_not_plain : ∀ r ∈ lowerRuns, 128 ≤ (r.first : ℤ) + r.shift ∨
    r.first = 0x130 ∧ r.last = 0x130 ∨ r.first = 0x212A ∧ r.last = 0x212A := by
  decide +kernel

theorem lowerChar_eq_plain {x c : Char} (hc : c.toNat < 128) (h0 : c.toNat ≠ 0)
    (h : lowerChar x = c) :
    x.toNat < 128 ∧ x.toLower = c ∨ x = '\u0130' ∨ x = '\u212A' := by
  by_cases hx : x.toNat < 128
  · exact .inl ⟨hx, (lowerChar_of_plain hx).symm.trans h⟩
  right
  rw [lowerChar_of_not_plain hx] at h
  have hcode : c.toNat = CaseRun.apply lowerRuns x.toNat := by
    rw [← h] at h0 ⊢
    exact toNat_ofNat_of_ne_zero h0
  obtain heq | ⟨r, hr, ⟨hfirst, hlast, -⟩, heq⟩ := CaseRun.apply_eq lowerRuns x.toNat
  · omega
  · rcases lowerRuns_not_plain r hr with hshift | ⟨h1, h2⟩ | ⟨h1, h2⟩
    · omega
    · exact .inl (Char.toNat_inj.mp (by change x.toNat = 0x130; omega))
    · exact .inr (Char.toNat_inj.mp (by change x.toNat = 0x212A; omega))

theorem lowerChar_dotted : lowerChar '\u0130' = 'i' := by decide +kernel

theorem lowerChar_kelvin : lowerChar '\u212A' = 'k' := by decide +kernel

/-- A character that no run reaches is the lower case of itself only. -/
theorem eq_of_lowerChar_eq {x c : Char} (hlarge : 128 ≤ c.toNat)
    (hruns : ∀ r ∈ lowerRuns, ¬ ((r.first : ℤ) ≤ c.toNat - r.shift ∧ c.toNat - r.shift ≤ r.last ∧
      (c.toNat - r.shift - r.first) % r.stride = 0)) (h : lowerChar x = c) : x = c := by
  have hplain : ∀ y : Char, y.toNat < 128 → y.toLower.toNat < 128 :=
    forall_plain (by decide)
  by_cases hx : x.toNat < 128
  · have := hplain x hx
    rw [← lowerChar_of_plain hx, h] at this
    omega
  rw [lowerChar_of_not_plain hx] at h
  have hcode : c.toNat = CaseRun.apply lowerRuns x.toNat := by
    rw [← h]
    exact toNat_ofNat_of_ne_zero (by rw [h]; omega)
  obtain heq | ⟨r, hr, ⟨hfirst, hlast, hstride⟩, heq⟩ := CaseRun.apply_eq lowerRuns x.toNat
  · exact Char.toNat_inj.mp (by omega)
  · exfalso
    refine hruns r hr ⟨by omega, by omega, ?_⟩
    have hsub : (c.toNat : ℤ) - r.shift - r.first = ((x.toNat - r.first : ℕ) : ℤ) := by omega
    rw [hsub]
    exact_mod_cast hstride

/-- The two lower case letters that share an upper case with a plain letter are the lower case of
themselves only. -/
theorem lowerRuns_not_twin : ∀ r ∈ lowerRuns, ∀ m ∈ ([0x131, 0x17F] : List ℕ),
    ¬ ((r.first : ℤ) ≤ m - r.shift ∧ m - r.shift ≤ r.last ∧
      (m - r.shift - r.first) % r.stride = 0) := by
  decide +kernel

theorem lowerChar_eq_twin {x c : Char} (hc : c.toNat ∈ [0x131, 0x17F]) (h : lowerChar x = c) :
    x = c := by
  have hlarge : 128 ≤ c.toNat := by
    simp only [List.mem_cons, List.not_mem_nil, or_false] at hc
    omega
  exact eq_of_lowerChar_eq hlarge (fun r hr => lowerRuns_not_twin r hr c.toNat hc) h

/-! ## Folding -/

theorem sameFold_of_not_letter {c : Char} (hc : c.toNat < 128) (h0 : c.toNat ≠ 0)
    (hletter : c.isAlpha = false) (x : Char) : sameFold c x = (x == c) := by
  have hlower : c.toLower = c :=
    forall_plain (P := fun c => c.isAlpha = false → c.toLower = c) (by decide) c hc hletter
  have htwins : twinsOf c = [] := by
    have hi : c ≠ 'i' := by rintro rfl; simp at hletter
    have hs : c ≠ 's' := by rintro rfl; simp at hletter
    simp [twinsOf, hi, hs, show c.val < 128 from hc]
  unfold sameFold
  rw [lowerChar_of_plain hc, hlower, htwins, List.contains_nil, Bool.or_false, Bool.eq_iff_iff,
    beq_iff_eq, beq_iff_eq]
  constructor
  · intro h
    obtain ⟨hx, hxc⟩ | rfl | rfl := lowerChar_eq_plain hc h0 h
    · have hkeep : x.toLower = x :=
        forall_plain (P := fun x => x.toLower.isAlpha = false → x.toLower = x) (by decide) x hx
          (by rw [hxc, hletter])
      exact hkeep.symm.trans hxc
    · obtain rfl : 'i' = c := lowerChar_dotted.symm.trans h
      simp at hletter
    · obtain rfl : 'k' = c := lowerChar_kelvin.symm.trans h
      simp at hletter
  · rintro rfl
    rw [lowerChar_of_plain hc, hlower]

theorem twinsOf_plain {d : Char} (hd : d.toNat < 128) {n : ℕ} (h : n ∈ twinsOf d) :
    n ∈ ([0x131, 0x17F] : List ℕ) := by
  unfold twinsOf at h
  rw [if_pos (show d.val < 128 from hd)] at h
  split at h
  · simp_all
  · split at h
    · simp_all
    · simp at h

theorem plain_of_isAlphanum {c : Char} (hc : c.isAlphanum) : c.toNat < 128 := by
  delta Char.isAlphanum Char.isAlpha Char.isUpper Char.isLower Char.isDigit at hc
  simp only [Bool.or_eq_true, Bool.and_eq_true, decide_eq_true_eq, UInt32.le_iff_toNat_le] at hc
  change ((65 ≤ c.toNat ∧ c.toNat ≤ 90) ∨ (97 ≤ c.toNat ∧ c.toNat ≤ 122)) ∨
    (48 ≤ c.toNat ∧ c.toNat ≤ 57) at hc
  omega

theorem isWord_of_sameFold {c x : Char} (hc : c.isAlphanum) (h : sameFold c x) : isWord x := by
  have hplain : c.toNat < 128 := plain_of_isAlphanum hc
  have hlower : c.toLower.toNat < 128 ∧ c.toLower.toNat ≠ 0 ∧ c.toLower.isAlphanum :=
    forall_plain (P := fun c => c.isAlphanum → c.toLower.toNat < 128 ∧ c.toLower.toNat ≠ 0 ∧
      c.toLower.isAlphanum) (by decide) c hplain hc
  unfold sameFold at h
  rw [lowerChar_of_plain hplain, Bool.or_eq_true, beq_iff_eq, List.contains_iff_mem] at h
  rcases h with h | h
  · obtain ⟨hx, hxc⟩ | rfl | rfl := lowerChar_eq_plain hlower.1 hlower.2.1 h
    · exact forall_plain (P := fun x => x.toLower.isAlphanum → isWord x) (by decide) x hx
        (by rw [hxc]; exact hlower.2.2)
    · decide +kernel
    · decide +kernel
  · have htwin := twinsOf_plain hlower.1 h
    have hx : x = lowerChar x := lowerChar_eq_twin htwin rfl
    rw [← hx] at htwin
    simp only [List.mem_cons, List.not_mem_nil, or_false] at htwin
    rcases htwin with hcode | hcode
    · obtain rfl : x = '\u0131' := Char.toNat_inj.mp hcode
      decide +kernel
    · obtain rfl : x = '\u017F' := Char.toNat_inj.mp hcode
      decide +kernel

end MarkupAudit.Text
