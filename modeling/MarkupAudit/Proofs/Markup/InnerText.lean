import MarkupAudit.Markup.Tag
import Mathlib.Data.List.Basic

/-! # The text that a reader sees

A `<` that is kept when tags are left out has a `>` right behind it, or no `>` behind it at all. The
spaces that are put in for tags and the white space that shrinks to one space do not change this, so
that no new tag comes together. The texts that a reader sees are therefore those that have neither a
tag nor white space other than single spaces inside, and none of them changes when it is read
again. -/

namespace MarkupAudit

namespace Text

/-! ## Single spaces -/

/-- White space is only a space here and there, with other characters right before and right behind
it. -/
def IsSpaced (t : Text) : Prop :=
  ∀ before c behind, t = before ++ c :: behind → isBlank c →
    c = ' ' ∧ before.getLast?.any (!isBlank ·) ∧ behind.head?.any (!isBlank ·)

/-- Some characters, none of them white space. -/
structure IsSolid (w : Text) : Prop where
  ne_nil : w ≠ []
  visible : ∀ c ∈ w, isBlank c = false

section Spaced

variable {t w : Text} {c : Char}

theorem any_getLast?_cons {p : Char → Bool} (h : t.getLast?.any p) (c : Char) :
    (c :: t).getLast?.any p := by
  cases hlast : t.getLast? with
  | none => simp [hlast] at h
  | some x => simpa [List.getLast?_cons, hlast] using h

theorem isSpaced_nil : IsSpaced [] := by
  intro before c behind heq
  simp at heq

theorem isSpaced_cons (hc : isBlank c = false) (h : IsSpaced t) : IsSpaced (c :: t) := by
  intro before d behind heq hd
  cases before with
  | nil =>
      obtain ⟨rfl, -⟩ := List.cons.inj heq
      rw [hc] at hd
      cases hd
  | cons e before =>
      obtain ⟨hspace, hbefore, hbehind⟩ := h before d behind (List.cons.inj heq).2 hd
      exact ⟨hspace, any_getLast?_cons hbefore e, hbehind⟩

theorem isSpaced_cons_space (hc : isBlank c = false) (hhead : t.head?.any (!isBlank ·))
    (h : IsSpaced t) : IsSpaced (c :: ' ' :: t) := by
  intro before d behind heq hd
  match before with
  | [] =>
      obtain ⟨rfl, -⟩ := List.cons.inj heq
      rw [hc] at hd
      cases hd
  | [e] =>
      obtain ⟨rfl, hrest⟩ := List.cons.inj heq
      obtain ⟨rfl, rfl⟩ := List.cons.inj hrest
      exact ⟨rfl, by simp [hc], hhead⟩
  | e :: space :: before =>
      have hrest := (List.cons.inj (List.cons.inj heq).2).2
      obtain ⟨hspace, hbefore, hbehind⟩ := h before d behind hrest hd
      exact ⟨hspace, any_getLast?_cons (any_getLast?_cons hbefore space) e, hbehind⟩

theorem isSpaced_of_visible (h : ∀ c ∈ w, isBlank c = false) : IsSpaced w := by
  induction w with
  | nil => exact isSpaced_nil
  | cons c w ih =>
      obtain ⟨hc, hrest⟩ := List.forall_mem_cons.mp h
      exact isSpaced_cons hc (ih hrest)

theorem isSpaced_append_space (hw : IsSolid w) (hhead : t.head?.any (!isBlank ·))
    (h : IsSpaced t) : IsSpaced (w ++ ' ' :: t) := by
  obtain ⟨hne, hvisible⟩ := hw
  induction w with
  | nil => exact absurd rfl hne
  | cons c w ih =>
      obtain ⟨hc, hrest⟩ := List.forall_mem_cons.mp hvisible
      cases w with
      | nil => exact isSpaced_cons_space hc hhead h
      | cons d w => exact isSpaced_cons hc (ih (List.cons_ne_nil d w) hrest)

/-- What follows a part of a spaced text is spaced, unless it starts with the space. -/
theorem IsSpaced.of_append (part : Text) (h : IsSpaced (part ++ t))
    (hhead : t.head?.all (!isBlank ·)) : IsSpaced t := by
  intro before c behind heq hc
  obtain ⟨hspace, hbefore, hbehind⟩ := h (part ++ before) c behind (by simp [heq]) hc
  refine ⟨hspace, ?_, hbehind⟩
  cases before with
  | nil => simp [heq, hc] at hhead
  | cons d before =>
      rwa [List.getLast?_append_of_ne_nil _ (List.cons_ne_nil d before)] at hbefore

end Spaced

/-! ## Words -/

section Words

variable {t word : Text} {c : Char}

theorem wordsFrom_cons_of_visible (hc : isBlank c = false) (word r : Text) :
    wordsFrom word (c :: r) = wordsFrom (c :: word) r := by
  simp [wordsFrom, hc]

theorem wordsFrom_cons_of_isBlank (hc : isBlank c) (hword : word ≠ []) (r : Text) :
    wordsFrom word (c :: r) = word.reverse :: wordsFrom [] r := by
  simp [wordsFrom, hc, hword]

theorem wordsFrom_nil_cons_of_isBlank (hc : isBlank c) (r : Text) :
    wordsFrom [] (c :: r) = wordsFrom [] r := by
  simp [wordsFrom, hc]

theorem wordsFrom_ne_nil (hword : word ≠ []) (t : Text) : wordsFrom word t ≠ [] := by
  induction t generalizing word with
  | nil => simp [wordsFrom, hword]
  | cons c r ih =>
      by_cases hc : isBlank c
      · simp [wordsFrom_cons_of_isBlank hc hword]
      · rw [wordsFrom_cons_of_visible (by simpa using hc)]
        exact ih (List.cons_ne_nil c word)

theorem ne_nil_of_mem_wordsFrom {w : Text} (h : w ∈ wordsFrom word t) : w ≠ [] := by
  induction t generalizing word with
  | nil =>
      by_cases hne : word = []
      · simp [wordsFrom, hne] at h
      · obtain rfl : w = word.reverse := by simpa [wordsFrom, hne] using h
        simpa using hne
  | cons c r ih =>
      by_cases hc : isBlank c
      · by_cases hne : word = []
        · rw [hne, wordsFrom_nil_cons_of_isBlank hc] at h
          exact ih h
        · rw [wordsFrom_cons_of_isBlank hc hne] at h
          rcases List.mem_cons.mp h with rfl | hrest
          · simpa using hne
          · exact ih hrest
      · rw [wordsFrom_cons_of_visible (by simpa using hc)] at h
        exact ih h

/-- The words have all visible characters of the text, in order. -/
theorem flatten_wordsFrom (word t : Text) :
    (wordsFrom word t).flatten = word.reverse ++ t.filter (!isBlank ·) := by
  induction t generalizing word with
  | nil => by_cases hne : word = [] <;> simp [wordsFrom, hne]
  | cons c r ih =>
      by_cases hc : isBlank c
      · by_cases hne : word = []
        · rw [hne, wordsFrom_nil_cons_of_isBlank hc, ih]
          simp [hc]
        · rw [wordsFrom_cons_of_isBlank hc hne, List.flatten_cons, ih]
          simp [hc]
      · rw [wordsFrom_cons_of_visible (by simpa using hc), ih]
        simp [hc]

theorem isSolid_of_mem_words {w : Text} (h : w ∈ words t) : IsSolid w where
  ne_nil := ne_nil_of_mem_wordsFrom h
  visible c hc := by
    have hmem : c ∈ (words t).flatten := List.mem_flatten.mpr ⟨w, h, hc⟩
    rw [words, flatten_wordsFrom] at hmem
    simpa using (List.mem_filter.mp hmem).2

theorem join_cons_of_ne_nil (separator w : Text) {ws : List Text} (h : ws ≠ []) :
    join separator (w :: ws) = w ++ separator ++ join separator ws := by
  cases ws with
  | nil => exact absurd rfl h
  | cons v ws => rfl

theorem head?_join {ws : List Text} (hne : ws ≠ []) (h : ∀ w ∈ ws, IsSolid w) :
    (join [' '] ws).head?.any (!isBlank ·) := by
  obtain ⟨w, ws, rfl⟩ := List.exists_cons_of_ne_nil hne
  have hw : IsSolid w := h w (by simp)
  obtain ⟨c, r, rfl⟩ := List.exists_cons_of_ne_nil hw.ne_nil
  have hc : isBlank c = false := hw.visible c (by simp)
  cases ws with
  | nil => simp [join, hc]
  | cons v ws => simp [join, hc]

/-- Words with a space between neighbours make a spaced text. -/
theorem isSpaced_join {ws : List Text} (h : ∀ w ∈ ws, IsSolid w) : IsSpaced (join [' '] ws) := by
  induction ws with
  | nil => exact isSpaced_nil
  | cons w ws ih =>
      obtain ⟨hw, hrest⟩ := List.forall_mem_cons.mp h
      by_cases hne : ws = []
      · rw [hne]
        exact isSpaced_of_visible hw.visible
      · rw [join_cons_of_ne_nil _ _ hne, List.append_assoc]
        exact isSpaced_append_space hw (head?_join hne hrest) (ih hrest)

/-- A spaced text is its words with a space between neighbours. -/
theorem join_wordsFrom (hword : ∀ c ∈ word, isBlank c = false)
    (h : IsSpaced (word.reverse ++ t)) : join [' '] (wordsFrom word t) = word.reverse ++ t := by
  induction t generalizing word with
  | nil => by_cases hne : word = [] <;> simp [wordsFrom, hne, join]
  | cons c r ih =>
      by_cases hc : isBlank c
      · obtain ⟨rfl, hbefore, hbehind⟩ := h word.reverse c r rfl hc
        have hne : word ≠ [] := by
          intro hnil
          simp [hnil] at hbefore
        -- Another word follows, since a visible character does.
        have hwords : wordsFrom [] r ≠ [] := by
          cases r with
          | nil => simp at hbehind
          | cons d r =>
              rw [wordsFrom_cons_of_visible (by simpa using hbehind)]
              exact wordsFrom_ne_nil (List.cons_ne_nil d []) r
        have hrest : IsSpaced r := by
          refine IsSpaced.of_append (word.reverse ++ [' ']) (by simpa using h) ?_
          cases r <;> simp_all
        have hjoin : join [' '] (wordsFrom [] r) = r := ih (by simp) hrest
        rw [wordsFrom_cons_of_isBlank hc hne, join_cons_of_ne_nil _ _ hwords, hjoin]
        simp
      · rw [wordsFrom_cons_of_visible (by simpa using hc), ih]
        · simp
        · exact List.forall_mem_cons.mpr ⟨by simpa using hc, hword⟩
        · simpa using h

theorem eq_or_mem_of_mem_join {separator x : Char} {ws : List Text}
    (h : x ∈ join [separator] ws) : x = separator ∨ x ∈ ws.flatten := by
  induction ws with
  | nil => simp [join] at h
  | cons w ws ih =>
      rw [List.flatten_cons, List.mem_append]
      by_cases hne : ws = []
      · exact .inr (.inl (by simpa [hne, join] using h))
      · rw [join_cons_of_ne_nil _ _ hne, List.append_assoc, List.mem_append] at h
        rcases h with hfirst | hothers
        · exact .inr (.inl hfirst)
        · rcases List.mem_cons.mp hothers with heq | hrest
          · exact .inl heq
          · exact (ih hrest).imp_right .inr

end Words

end Text

namespace Markup

open Text

/-! ## Tags -/

/-- The text has a tag: `<`, one or more characters other than `>`, and `>`. -/
def HasTag (t : Text) : Prop :=
  ∃ before inside behind, t = before ++ '<' :: (inside ++ '>' :: behind) ∧ inside ≠ [] ∧
    '>' ∉ inside

/-- Every `<` of the text has a `>` right behind it, or none behind it at all. -/
def IsTagless : Text → Prop
  | [] => True
  | c :: r => (c = '<' → r.head? = some '>' ∨ '>' ∉ r) ∧ IsTagless r

section Tags

variable {t : Text}

theorem hasTag_cons (c : Char) (h : HasTag t) : HasTag (c :: t) := by
  obtain ⟨before, inside, behind, rfl, hne, hinside⟩ := h
  exact ⟨c :: before, inside, behind, rfl, hne, hinside⟩

/-- A `<` starts a tag unless the text is over before the next `>` or this stands right behind. -/
theorem hasTag_of_bracket (hhead : t.head? ≠ some '>') (hmem : '>' ∈ t) : HasTag ('<' :: t) := by
  obtain ⟨inside, behind, rfl, hinside⟩ := List.eq_append_cons_of_mem hmem
  refine ⟨[], inside, behind, rfl, ?_, hinside⟩
  intro hnil
  simp [hnil] at hhead

theorem IsTagless.of_append (part : Text) (h : IsTagless (part ++ t)) : IsTagless t := by
  induction part with
  | nil => exact h
  | cons c part ih => exact ih h.2

theorem IsTagless.not_hasTag (h : IsTagless t) : ¬HasTag t := by
  rintro ⟨before, inside, behind, rfl, hne, hinside⟩
  rcases (IsTagless.of_append _ h).1 rfl with hhead | hnone
  · obtain ⟨c, inside, rfl⟩ := List.exists_cons_of_ne_nil hne
    simp_all
  · simp at hnone

/-! ## Leaving out tags -/

theorem mem_of_mem_dropTags {inTag : Bool} (h : '>' ∈ dropTags inTag t) : '>' ∈ t := by
  induction t generalizing inTag with
  | nil => simp [dropTags] at h
  | cons c r ih =>
      cases inTag with
      | true => exact List.mem_cons_of_mem c (ih h)
      | false =>
          rw [dropTags] at h
          split at h
          · exact List.mem_cons_of_mem c (ih (by simpa using h))
          · rcases List.mem_cons.mp h with rfl | hrest
            · exact List.mem_cons_self
            · exact List.mem_cons_of_mem c (ih hrest)

/-- No tag is left. -/
theorem isTagless_dropTags (inTag : Bool) (t : Text) : IsTagless (dropTags inTag t) := by
  induction t generalizing inTag with
  | nil => simp [dropTags, IsTagless]
  | cons c r ih =>
      cases inTag with
      | true => exact ih _
      | false =>
          rw [dropTags]
          split
          · exact ⟨fun hspace => absurd hspace (by decide), ih true⟩
          · next hkept =>
              refine ⟨?_, ih false⟩
              rintro rfl
              by_cases hmem : '>' ∈ r
              · -- The bracket right behind is kept as well.
                have hhead : r.head? = some '>' := by simpa [hmem] using hkept
                obtain ⟨r, rfl⟩ := List.head?_eq_some_iff.mp hhead
                exact .inl rfl
              · exact .inr fun h => hmem (mem_of_mem_dropTags h)

/-- A text without tags is kept as it is. -/
theorem dropTags_of_not_hasTag (h : ¬HasTag t) : dropTags false t = t := by
  induction t with
  | nil => rfl
  | cons c r ih =>
      rw [dropTags, if_neg, ih fun hrest => h (hasTag_cons c hrest)]
      intro htag
      simp only [Bool.and_eq_true, decide_eq_true_eq, bne_iff_ne, List.contains_iff_mem] at htag
      obtain ⟨⟨rfl, hhead⟩, hmem⟩ := htag
      exact h (hasTag_of_bracket hhead hmem)

/-! ## Shrinking white space -/

/-- Before white space, a part stays without tags if what follows is replaced by something without
tags that has a `>` only if the other had. -/
theorem IsTagless.replace {part r s : Text} {c : Char} (hc : isBlank c)
    (h : IsTagless (part ++ c :: r)) (hs : IsTagless s) (hmem : '>' ∈ s → '>' ∈ r) :
    IsTagless (part ++ s) := by
  have hbracket : c ≠ '>' := by
    rintro rfl
    exact absurd hc (by decide)
  induction part with
  | nil => exact hs
  | cons d part ih =>
      refine ⟨?_, ih h.2⟩
      intro hd
      cases part with
      | nil =>
          rcases h.1 hd with hfirst | hnone
          · exact absurd (Option.some.inj hfirst) hbracket
          · exact .inr fun hin => hnone (List.mem_cons_of_mem c (hmem hin))
      | cons e part =>
          refine (h.1 hd).imp id fun hnone hin => hnone ?_
          rcases List.mem_append.mp hin with hbefore | hbehind
          · exact List.mem_append_left _ hbefore
          · exact List.mem_append_right _ (List.mem_cons_of_mem c (hmem hbehind))

theorem isTagless_join_wordsFrom (word : Text) (h : IsTagless (word.reverse ++ t)) :
    IsTagless (join [' '] (wordsFrom word t)) := by
  induction t generalizing word with
  | nil => by_cases hne : word = [] <;> simp_all [wordsFrom, join]
  | cons c r ih =>
      by_cases hc : isBlank c
      · have hrest : IsTagless (join [' '] (wordsFrom [] r)) :=
          ih [] (IsTagless.of_append (word.reverse ++ [c]) (by simpa using h))
        by_cases hne : word = []
        · rwa [hne, wordsFrom_nil_cons_of_isBlank hc]
        · rw [wordsFrom_cons_of_isBlank hc hne]
          by_cases hwords : wordsFrom [] r = []
          · rw [hwords, join, ← List.append_nil word.reverse]
            exact h.replace hc trivial (by simp)
          · rw [join_cons_of_ne_nil _ _ hwords, List.append_assoc]
            refine h.replace hc ⟨fun hspace => absurd hspace (by decide), hrest⟩ ?_
            intro hmem
            rcases eq_or_mem_of_mem_join (by simpa using hmem) with hspace | hin
            · cases hspace
            · rw [flatten_wordsFrom] at hin
              exact (List.mem_filter.mp hin).1
      · rw [wordsFrom_cons_of_visible (by simpa using hc)]
        exact ih (c :: word) (by simpa using h)

end Tags

/-! ## The text inside -/

theorem isSpaced_innerText (t : Text) : IsSpaced (innerText t) :=
  isSpaced_join fun _ => isSolid_of_mem_words

theorem not_hasTag_innerText (t : Text) : ¬HasTag (innerText t) :=
  (isTagless_join_wordsFrom [] (isTagless_dropTags false t)).not_hasTag

theorem innerText_of_isSpaced {t : Text} (htag : ¬HasTag t) (h : IsSpaced t) : innerText t = t := by
  have hjoin : join [' '] (wordsFrom [] t) = t := join_wordsFrom (by simp) h
  rw [innerText, dropTags_of_not_hasTag htag, words, hjoin]

/-- The text that a reader sees has no tag, and no white space but single spaces between other
characters, and it stays the same when it is read again. A text is what a reader sees of it just if
it is of this form. -/
theorem innerText_settled (t : Text) :
    ¬HasTag (innerText t) ∧ IsSpaced (innerText t) ∧ innerText (innerText t) = innerText t ∧
      (innerText t = t ↔ ¬HasTag t ∧ IsSpaced t) := by
  refine ⟨not_hasTag_innerText t, isSpaced_innerText t,
    innerText_of_isSpaced (not_hasTag_innerText t) (isSpaced_innerText t), ?_⟩
  constructor
  · intro hsame
    rw [← hsame]
    exact ⟨not_hasTag_innerText t, isSpaced_innerText t⟩
  · intro h
    exact innerText_of_isSpaced h.1 h.2

example : innerText "a <b>&lt;<>  c\n> <br\n/>d < e".toList = "a &lt;<> c > d < e".toList := by
  decide

end Markup

end MarkupAudit
