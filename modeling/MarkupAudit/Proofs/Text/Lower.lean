import MarkupAudit.Proofs.Text.Plain

/-! # The lower case of whole texts

But for a final sigma and a combining dot, the lower case of a text has the lower cases of its
characters. So a text has a plain lower case without `i` and `k` only if it is plain itself, and its
lower case keeps all plain characters that it has. -/

namespace MarkupAudit.Text

variable {before t : Text}

theorem lowerChar_sigma : lowerChar '\u03A3' = '\u03C3' := by decide +kernel

theorem mem_lowerFrom {x : Char} (h : x ∈ lowerFrom before t) :
    x ∈ ['\u03C2', '\u0307'] ∨ ∃ c ∈ t, lowerChar c = x := by
  induction t generalizing before with
  | nil => cases h
  | cons c t ih =>
      rw [lowerFrom] at h
      rcases List.mem_append.mp h with hfirst | hrest
      · -- Only a capital sigma and a dotted capital have lower cases of their own in a text.
        split at hfirst
        · next hsigma =>
            split at hfirst
            · exact .inl (by simp [List.mem_singleton.mp hfirst])
            · refine .inr ⟨c, by simp, ?_⟩
              rw [hsigma, lowerChar_sigma, List.mem_singleton.mp hfirst]
        · split at hfirst
          · next hdotted =>
              rcases List.mem_cons.mp hfirst with rfl | hdot
              · exact .inr ⟨c, by simp, by rw [hdotted, lowerChar_dotted]⟩
              · exact .inl (by simp [List.mem_singleton.mp hdot])
          · exact .inr ⟨c, by simp, (List.mem_singleton.mp hfirst).symm⟩
      · rcases ih hrest with hother | ⟨d, hd, hlower⟩
        · exact .inl hother
        · exact .inr ⟨d, List.mem_cons_of_mem c hd, hlower⟩

theorem lowerChar_mem_lowerFrom {c : Char} (h : c ∈ t) (before : Text) :
    lowerChar c ∈ lowerFrom before t ∨ '\u03C2' ∈ lowerFrom before t := by
  induction t generalizing before with
  | nil => cases h
  | cons d t ih =>
      rw [lowerFrom, List.mem_append, List.mem_append]
      rcases List.mem_cons.mp h with rfl | hrest
      · split
        · next hsigma =>
            split
            · exact .inr (.inl (by simp))
            · exact .inl (.inl (by simp [hsigma, lowerChar_sigma]))
        · split
          · next hdotted => exact .inl (.inl (by simp [hdotted, lowerChar_dotted]))
          · exact .inl (.inl (by simp))
      · exact (ih hrest (d :: before)).imp .inr .inr

/-! ## Plain characters of a lower case -/

/-- The plain characters of a lower case are in lower case. -/
theorem toLower_of_mem_lowerFrom {x : Char} (h : x ∈ lowerFrom before t) (hx : x.toNat < 128) :
    x.toLower = x := by
  rcases mem_lowerFrom h with hother | ⟨c, -, rfl⟩
  · simp only [List.mem_cons, List.not_mem_nil, or_false] at hother
    rcases hother with rfl | rfl <;> exact absurd hx (by decide)
  · by_cases h0 : (lowerChar c).toNat = 0
    · rw [Char.toNat_inj.mp (show (lowerChar c).toNat = '\x00'.toNat from h0)]
      decide
    · rcases lowerChar_eq_plain hx h0 rfl with ⟨hc, hlower⟩ | rfl | rfl
      · rw [← hlower]
        exact forall_plain (P := fun c => c.toLower.toLower = c.toLower) (by decide) c hc
      · rw [lowerChar_dotted]
        decide
      · rw [lowerChar_kelvin]
        decide

/-- A plain lower case that is not that of a dotted capital or of the kelvin sign is that of a plain
text. -/
theorem plain_of_lowerFrom
    (h : ∀ x ∈ lowerFrom before t, x.toNat < 128 ∧ x ∉ ['\x00', 'i', 'k']) :
    ∀ c ∈ t, c.toNat < 128 := by
  intro c hc
  rcases lowerChar_mem_lowerFrom hc before with hlower | hsigma
  · obtain ⟨hplain, hne⟩ := h _ hlower
    simp only [List.mem_cons, List.not_mem_nil, or_false, not_or] at hne
    have h0 : (lowerChar c).toNat ≠ 0 := fun hzero => hne.1 (Char.toNat_inj.mp hzero)
    rcases lowerChar_eq_plain hplain h0 rfl with ⟨hc, -⟩ | rfl | rfl
    · exact hc
    · exact absurd lowerChar_dotted hne.2.1
    · exact absurd lowerChar_kelvin hne.2.2
  · exact absurd (h _ hsigma).1 (by decide)

/-- What is in lower case already, as far as it is plain, is its own lower case. -/
theorem eq_of_lower_eq {u : Text} (ht : ∀ x ∈ t, x.toNat < 128 → x.toLower = x)
    (hu : ∀ x ∈ u, x.toNat < 128 ∧ x ∉ ['\x00', 'i', 'k']) (h : lower t = u) : t = u := by
  have hlower : ∀ x ∈ lowerFrom [] t, x.toNat < 128 ∧ x ∉ ['\x00', 'i', 'k'] := by rwa [← lower, h]
  have hplain := plain_of_lowerFrom hlower
  rw [lower_of_plain hplain] at h
  rw [← h, List.map_congr_left fun x hx => ht x hx (hplain x hx), List.map_id']

/-- A lower case has a dot only where the text has one. -/
theorem dot_mem_of_lowerFrom (h : '.' ∈ lowerFrom before t) : '.' ∈ t := by
  rcases mem_lowerFrom h with hother | ⟨c, hc, hlower⟩
  · simp at hother
  · rcases lowerChar_eq_plain (by decide) (by decide) hlower with ⟨hplain, hdot⟩ | rfl | rfl
    · have heq : c = '.' := forall_plain (P := fun c => c.toLower = '.' → c = '.') (by decide) c
        hplain hdot
      exact heq ▸ hc
    · exact absurd (lowerChar_dotted.symm.trans hlower) (by decide)
    · exact absurd (lowerChar_kelvin.symm.trans hlower) (by decide)

end MarkupAudit.Text
