import MarkupAudit.Proofs.Region.Blanking

/-! # A blanked text has no regions

Whatever opens a region in a blanked text stood there before and was not blanked. The scanner that
passed over it would have taken it, so there is nothing of the kind. -/

namespace MarkupAudit.Region

/-! ## Characters that blanking shows -/

theorem blanked_blanked (c : Char) : blanked (blanked c) = blanked c := by
  unfold blanked
  split <;> simp_all

/-- A word character is not one that blanking puts in. -/
theorem blanked_ne_of_isWord {c : Char} (h : Text.isWord c) : blanked c ≠ c := by
  intro hsame
  by_cases hbreak : c = '\n' ∨ c = '\r'
  · rcases hbreak with rfl | rfl <;> revert h <;> decide
  · have hspace : ' ' = c := by simpa [blanked, hbreak] using hsame
    subst hspace
    revert h
    decide

theorem getElem?_blank (t : Text) (i : ℕ) :
    (blank t)[i]? = t[i]?.map (shownAt (all t) i) := by
  rw [blank_eq_mapIdx, List.getElem?_mapIdx]

section Shown

variable {t : Text} {q : ℕ}

/-- A character of the blanked text that blanking does not put in comes from the text, from outside
the regions. -/
theorem shown_of_any {holds : Char → Bool} (hholds : ∀ c, holds c → blanked c ≠ c)
    (h : (blank t)[q]?.any holds) : t[q]?.any holds ∧ ¬Covers (all t) q := by
  obtain ⟨c, hc, hholdsc⟩ := (Option.any_eq_true _ _).mp h
  rw [getElem?_blank] at hc
  obtain ⟨x, hx, rfl⟩ := Option.map_eq_some_iff.mp hc
  have hcovers : ¬Covers (all t) q := by
    intro hcovers
    rw [shownAt_of_covers hcovers] at hholdsc
    exact hholds _ hholdsc (blanked_blanked x)
  rw [shownAt_of_not_covers hcovers] at hholdsc
  exact ⟨by simpa [hx] using hholdsc, hcovers⟩

theorem shown_of_standsAt {part : Text} (hpart : part.all fun c => blanked c != c)
    (h : (blank t).standsAt part q) :
    t.standsAt part q ∧ ∀ i < part.length, ¬Covers (all t) (q + i) := by
  induction part generalizing q with
  | nil => simp
  | cons c part ih =>
      rw [Text.standsAt_cons, Bool.and_eq_true] at h
      rw [List.all_cons, Bool.and_eq_true] at hpart
      obtain ⟨hc, hrest⟩ := h
      obtain ⟨hget, hcovers⟩ := shown_of_any (by simpa using hpart.1) hc
      obtain ⟨hstands, hafter⟩ := ih hpart.2 hrest
      refine ⟨by rw [Text.standsAt_cons, hget, hstands]; rfl, ?_⟩
      rintro (_ | i) hi
      · exact hcovers
      · rw [Nat.add_comm i 1, ← Nat.add_assoc]
        exact hafter i (by simpa using hi)

theorem shown_of_spelledAt {name : Text} (hname : name.all Char.isAlphanum)
    (h : (blank t).spelledAt name q) :
    t.spelledAt name q ∧ ∀ i < name.length, ¬Covers (all t) (q + i) := by
  induction name generalizing q with
  | nil => simp
  | cons c name ih =>
      rw [Text.spelledAt_cons, Bool.and_eq_true] at h
      rw [List.all_cons, Bool.and_eq_true] at hname
      obtain ⟨hc, hrest⟩ := h
      obtain ⟨hget, hcovers⟩ :=
        shown_of_any (fun x hx => blanked_ne_of_isWord (Text.isWord_of_sameFold hname.1 hx)) hc
      obtain ⟨hspelled, hafter⟩ := ih hname.2 hrest
      refine ⟨by rw [Text.spelledAt_cons, hget, hspelled]; rfl, ?_⟩
      rintro (_ | i) hi
      · exact hcovers
      · rw [Nat.add_comm i 1, ← Nat.add_assoc]
        exact hafter i (by simpa using hi)

end Shown

/-! ## Openers -/

theorem opens_of_stopAt? {t : Text} {q e : ℕ} (h : stopAt? t q = some e) : t[q]? = some '<' := by
  have hmark : ∀ {part : Text}, t.standsAt ('<' :: part) q → t[q]? = some '<' := by
    intro part hpart
    rw [Text.standsAt_cons, Bool.and_eq_true] at hpart
    obtain ⟨c, hc, hmark⟩ := (Option.any_eq_true _ _).mp hpart.1
    rw [hc, beq_iff_eq.mp hmark]
  have helement : ∀ {name : Text}, elementStop? t name q = some e → t[q]? = some '<' := by
    intro name hname
    simp only [elementStop?, Option.ite_none_right_eq_some, Bool.and_eq_true] at hname
    exact hmark hname.1.1.1
  unfold stopAt? at h
  split at h
  · next hopen => exact hmark hopen
  · rcases Option.or_eq_some_iff.mp h with hscript | ⟨-, hstyle⟩
    · exact helement hscript
    · exact helement hstyle

/-- What starts a region is covered by one. -/
theorem covers_of_stopAt? {t : Text} {q e : ℕ} (h : stopAt? t q = some e) : Covers (all t) q := by
  rw [all_eq_occurrences_scan]
  exact (occurrences t).exists_mem_scan (Nat.zero_le q) h

theorem opens_of_mem_all {t : Text} {r : ℕ × ℕ} (h : r ∈ all t) : t[r.1]? = some '<' := by
  rw [all_eq_occurrences_scan] at h
  exact opens_of_stopAt? ((occurrences t).mem_scan h).2

/-- The first covered offset behind an offset that is not covered starts a region. -/
theorem opens_of_covers_succ {t : Text} {i : ℕ} (hi : ¬Covers (all t) i)
    (hsucc : Covers (all t) (i + 1)) : t[i + 1]? = some '<' := by
  obtain ⟨r, hr, hle, hlt⟩ := hsucc
  have hstart : r.1 = i + 1 := by
    by_contra hne
    exact hi ⟨r, hr, by omega, by omega⟩
  rw [← hstart]
  exact opens_of_mem_all hr

/-- A name that ends in the blanked text ends in the text: what comes behind it there is shown, or
starts a region. -/
theorem nameEnd_of_blank {t : Text} {i : ℕ} (hi : ¬Covers (all t) i)
    (h : (blank t)[i + 1]?.any (!Text.isWord ·)) : t[i + 1]?.any (!Text.isWord ·) := by
  by_cases hcovers : Covers (all t) (i + 1)
  · rw [opens_of_covers_succ hi hcovers]
    decide
  · rwa [getElem?_blank, funext (shownAt_of_not_covers hcovers), Option.map_id'] at h

theorem bracket_of_blank {t : Text} {q g : ℕ}
    (h : (blank t).least? q ((blank t).standsAt ">".toList) = some g) :
    (t.least? q (t.standsAt ">".toList)).isSome := by
  obtain ⟨hstands, hle, hlen, -⟩ := Text.least?_eq_some_iff.mp h
  have hg : t.standsAt ">".toList g := (shown_of_standsAt (by decide) hstands).1
  rw [Option.isSome_iff_ne_none]
  intro hnone
  rw [length_blank] at hlen
  rw [Text.least?_eq_none_iff.mp hnone g hle hlen] at hg
  cases hg

/-- An element that starts in the blanked text starts in the text, outside the regions. -/
theorem elementStop?_of_blank {t name : Text} {q e : ℕ} (hne : name ≠ [])
    (hname : name.all Char.isAlphanum) (h : elementStop? (blank t) name q = some e) :
    (elementStop? t name q).isSome ∧ ¬Covers (all t) q := by
  simp only [elementStop?, Option.ite_none_right_eq_some, Option.map_eq_some_iff,
    Bool.and_eq_true] at h
  obtain ⟨⟨⟨hopen, hspelled⟩, hend⟩, g, hbracket, -⟩ := h
  obtain ⟨hopen', hcovers⟩ := shown_of_standsAt (by decide) hopen
  obtain ⟨hspelled', hafter⟩ := shown_of_spelledAt hname hspelled
  have hlength : 0 < name.length := List.length_pos_iff.mpr hne
  have hlast : ¬Covers (all t) (q + name.length) := by
    have := hafter (name.length - 1) (by omega)
    rwa [show q + 1 + (name.length - 1) = q + name.length by omega] at this
  rw [Nat.add_right_comm] at hend
  have hend' := nameEnd_of_blank hlast hend
  rw [Nat.add_right_comm] at hend'
  refine ⟨?_, hcovers 0 (by decide)⟩
  simp only [elementStop?, hopen', hspelled', hend', Bool.and_self, if_true, Option.isSome_map]
  exact bracket_of_blank hbracket

theorem isSome_stopAt? (t : Text) (q : ℕ) :
    (stopAt? t q).isSome = (t.standsAt "<!--".toList q ||
      ((elementStop? t "script".toList q).isSome || (elementStop? t "style".toList q).isSome)) := by
  unfold stopAt?
  by_cases hopen : t.standsAt "<!--".toList q
  · rw [if_pos hopen, hopen]
    rfl
  · rw [if_neg hopen, Option.isSome_or, Bool.eq_false_iff.mpr hopen, Bool.false_or]

/-- What starts a region in the blanked text starts one in the text as well, outside all of its
regions. -/
theorem stopAt?_of_blank {t : Text} {q : ℕ} (h : (stopAt? (blank t) q).isSome) :
    (stopAt? t q).isSome ∧ ¬Covers (all t) q := by
  rw [isSome_stopAt?, Bool.or_eq_true, Bool.or_eq_true] at h
  rw [isSome_stopAt?, Bool.or_eq_true, Bool.or_eq_true]
  rcases h with hcomment | hscript | hstyle
  · obtain ⟨hopen, hcovers⟩ := shown_of_standsAt (by decide) hcomment
    exact ⟨.inl hopen, hcovers 0 (by decide)⟩
  · obtain ⟨e, he⟩ := Option.isSome_iff_exists.mp hscript
    obtain ⟨hopen, hcovers⟩ := elementStop?_of_blank (by decide) (by decide) he
    exact ⟨.inr (.inl hopen), hcovers⟩
  · obtain ⟨e, he⟩ := Option.isSome_iff_exists.mp hstyle
    obtain ⟨hopen, hcovers⟩ := elementStop?_of_blank (by decide) (by decide) he
    exact ⟨.inr (.inr hopen), hcovers⟩

theorem stopAt?_blank (t : Text) (q : ℕ) : stopAt? (blank t) q = none := by
  by_contra hne
  obtain ⟨hopens, hcovers⟩ := stopAt?_of_blank (Option.isSome_iff_ne_none.mpr hne)
  obtain ⟨e, he⟩ := Option.isSome_iff_exists.mp hopens
  exact hcovers (covers_of_stopAt? he)

theorem all_eq_nil_iff (t : Text) : all t = [] ↔ ∀ q, stopAt? t q = none := by
  constructor
  · intro hnil q
    by_contra hne
    obtain ⟨e, he⟩ := Option.ne_none_iff_exists'.mp hne
    obtain ⟨r, hr, -⟩ := covers_of_stopAt? he
    rw [hnil] at hr
    cases hr
  · intro hnone
    have hnext : (occurrences t).next? 0 = none :=
      (occurrences t).next?_eq_none_iff.mpr fun q _ _ => hnone q
    rw [all_eq_occurrences_scan, Occurrences.scan_eq, hnext]

theorem blank_of_all_eq_nil {t : Text} (h : all t = []) : blank t = t := by
  rw [blank, h, blankFrom]

/-- Blanking leaves no region, so blanking once more changes nothing. -/
theorem blank_leaves_nothing (t : Text) :
    all (blank t) = [] ∧ blank (blank t) = blank t := by
  have hall : all (blank t) = [] := (all_eq_nil_iff _).mpr (stopAt?_blank t)
  exact ⟨hall, blank_of_all_eq_nil hall⟩

end MarkupAudit.Region
