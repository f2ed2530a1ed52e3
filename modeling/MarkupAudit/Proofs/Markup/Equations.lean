import MarkupAudit.Markup.Element
import MarkupAudit.Proofs.Pattern.Scan
import MarkupAudit.Proofs.Text.Fold

/-! # Computation rules for the patterns of tags

Brackets and slashes stand only for themselves, a name ends where no word character follows, and
the rest of a tag reaches to the first closing bracket. -/

namespace MarkupAudit

namespace Text

/-- A plain character that is not a letter. -/
def isMark (c : Char) : Bool :=
  c.toNat < 128 && c.toNat != 0 && !c.isAlpha

theorem spelledAt_of_isMark {part : Text} (h : part.all isMark) (t : Text) (q : ℕ) :
    t.spelledAt part q = t.standsAt part q := by
  induction part generalizing q with
  | nil => simp
  | cons c part ih =>
      simp only [List.all_cons, Bool.and_eq_true] at h
      have hc : (c.toNat < 128 ∧ c.toNat ≠ 0) ∧ c.isAlpha = false := by
        simpa [isMark] using h.1
      have hfold : sameFold c = (· == c) :=
        funext (sameFold_of_not_letter hc.1.1 hc.1.2 hc.2)
      rw [spelledAt_cons, standsAt_cons, ih h.2, hfold]

@[simp] theorem standsAt_singleton (t : Text) (c : Char) (q : ℕ) :
    t.standsAt [c] q = t[q]?.any (· == c) := by
  rw [standsAt_cons, standsAt_nil, Bool.and_true]

/-- The characters before the end of a name are word characters. -/
theorem isWord_before_of_spelledAt {t part : Text} {q : ℕ} (hne : part ≠ [])
    (hname : part.all Char.isAlphanum) (h : t.spelledAt part q) :
    (t.take (q + part.length)).getLast?.any isWord := by
  induction part generalizing q with
  | nil => exact (hne rfl).elim
  | cons c part ih =>
      rw [spelledAt_cons, Bool.and_eq_true] at h
      rw [List.all_cons, Bool.and_eq_true] at hname
      obtain ⟨hc, hpart⟩ := h
      cases part with
      | nil =>
          obtain ⟨x, hx, hfold⟩ := (Option.any_eq_true _ _).mp hc
          have hlast : (t.take (q + 1)).getLast? = some x := getLast?_take_succ hx
          simpa [hlast] using isWord_of_sameFold hname.1 hfold
      | cons d part =>
          have hlast := ih (by simp) hname.2 hpart
          rwa [List.length_cons, ← Nat.add_assoc, Nat.add_right_comm]

/-- The accepted characters from an offset on are followed by none. -/
theorem takeWhile_stop (t : Text) (q : ℕ) (accepts : Char → Bool) :
    let g := q + ((t.drop q).takeWhile accepts).length
    t[g]?.any accepts = false ∧ ∀ k, q ≤ k → k < g → t[k]?.any accepts = true := by
  induction h : t.drop q generalizing q with
  | nil =>
      refine ⟨by simp [getElem?_of_drop_nil h], ?_⟩
      intro k h1 h2
      simp only [List.takeWhile_nil, List.length_nil] at h2
      omega
  | cons c r ih =>
      obtain ⟨hget, hrest⟩ := getElem?_of_drop h
      by_cases hc : accepts c
      · obtain ⟨hstop, hall⟩ := ih (q + 1) hrest
        rw [List.takeWhile_cons_of_pos hc, List.length_cons, Nat.add_comm _ 1, ← Nat.add_assoc]
        refine ⟨hstop, fun k h1 h2 => ?_⟩
        by_cases hk : k = q
        · simp [hk, hget, hc]
        · exact hall k (by omega) h2
      · rw [List.takeWhile_cons_of_neg hc]
        refine ⟨by simpa [hget] using hc, ?_⟩
        intro k h1 h2
        simp only [List.length_nil] at h2
        omega

theorem drop_length_takeWhile (accepts : Char → Bool) (t : Text) :
    t.drop (t.takeWhile accepts).length = t.dropWhile accepts := by
  have happend : t.takeWhile accepts ++ t.dropWhile accepts = t := List.takeWhile_append_dropWhile
  have hdrop := congrArg (List.drop (t.takeWhile accepts).length) happend
  exact hdrop.symm.trans List.drop_left

/-- The character behind all accepted ones from an offset on. -/
theorem getElem?_eq_head?_dropWhile (t : Text) (q : ℕ) (accepts : Char → Bool) :
    t[q + ((t.drop q).takeWhile accepts).length]? = ((t.drop q).dropWhile accepts).head? := by
  rw [← List.head?_drop, ← List.drop_drop, drop_length_takeWhile]

/-! ## The first closing bracket -/

theorem standsAt_bracket (t : Text) (q : ℕ) : t.standsAt ">".toList q = t[q]?.any (· == '>') :=
  standsAt_singleton t '>' q

theorem not_standsAt_dash {t : Text} {q : ℕ} (h : t.standsAt ">".toList q) :
    ¬t.standsAt "->".toList q := by
  rw [standsAt_bracket] at h
  obtain ⟨c, hc, hbracket⟩ := (Option.any_eq_true _ _).mp h
  obtain rfl : c = '>' := by simpa using hbracket
  rw [show "->".toList = ['-', '>'] from rfl, standsAt_cons, hc]
  simp

theorem least?_bracket_of_none {t : Text} {q : ℕ} (h : t[q]? = none) :
    t.least? q (t.standsAt ">".toList) = none := by
  rw [least?_eq_none_iff]
  intro k hle _
  have hlen : t.length ≤ k := (List.getElem?_eq_none_iff.mp h).trans hle
  rw [standsAt_bracket, List.getElem?_eq_none hlen]
  rfl

/-- The first closing bracket stands behind all characters that are none. -/
theorem least?_bracket (t : Text) (q : ℕ) :
    t.least? q (t.standsAt ">".toList) =
      let g := q + ((t.drop q).takeWhile (· != '>')).length
      if t.standsAt ">".toList g then some g else none := by
  obtain ⟨hstop, hall⟩ := takeWhile_stop t q (· != '>')
  have hle : q ≤ q + ((t.drop q).takeWhile (· != '>')).length := Nat.le_add_right _ _
  generalize q + ((t.drop q).takeWhile (· != '>')).length = g at hstop hall hle ⊢
  have hbefore : ∀ k, q ≤ k → k < g → t.standsAt ">".toList k = false := by
    intro k h1 h2
    obtain ⟨c, hc, hne⟩ := (Option.any_eq_true _ _).mp (hall k h1 h2)
    rw [standsAt_bracket, hc]
    simpa using hne
  simp only
  cases hget : t[g]? with
  | none =>
      have hnone := least?_eq_none_iff.mp (least?_bracket_of_none hget)
      rw [if_neg (by rw [standsAt_bracket, hget]; simp), least?_eq_none_iff]
      intro k h1 h2
      by_cases hk : k < g
      · exact hbefore k h1 hk
      · exact hnone k (Nat.le_of_not_lt hk) h2
  | some c =>
      have hg : t.standsAt ">".toList g := by
        rw [standsAt_bracket]
        simpa [hget] using hstop
      have hlt : g < t.length := (List.getElem?_eq_some_iff.mp hget).1
      rw [if_pos hg, least?_eq_some_iff]
      exact ⟨hg, hle, hlt.le, hbefore⟩

end Text

namespace Markup

/-- Where the closing tag of the name that starts at an offset stops. -/
def closingTagStop? (t name : Text) (q : ℕ) : Option ℕ :=
  let blanks := q + 2 + name.length
  let bracket := blanks + ((t.drop blanks).takeWhile Text.isBlank).length
  if t.standsAt "</".toList q && t.spelledAt name (q + 2) && t.standsAt ">".toList bracket then
    some (bracket + 1)
  else none

theorem closingTagStop?_bounds {t name : Text} {q e : ℕ} (h : closingTagStop? t name q = some e) :
    q < e ∧ e ≤ t.length := by
  simp only [closingTagStop?, Option.ite_none_right_eq_some, Option.some.injEq,
    Bool.and_eq_true] at h
  obtain ⟨⟨-, hbracket⟩, rfl⟩ := h
  exact ⟨by omega, Text.add_length_le_of_standsAt (by decide) hbracket⟩

/-- The closing tags of a name. -/
def closingTags (t name : Text) : Occurrences t where
  stop? := closingTagStop? t name
  lt_stop h := (closingTagStop?_bounds h).1
  stop_le h := (closingTagStop?_bounds h).2

end Markup

namespace Pattern

open Cursor

theorem run_word_of_isMark {s : String} (h : s.toList.all Text.isMark) (t : Text) (q : ℕ)
    (held : Text) (next : Cursor → Option Cursor) :
    (word s).run (place t q held) next =
      if t.standsAt s.toList q then next (place t (q + s.toList.length) held) else none := by
  rw [run_word_place, Text.spelledAt_of_isMark h]

theorem run_wordEdge_place {t : Text} {q : ℕ} (h : (t.take q).getLast?.any Text.isWord)
    (held : Text) (next : Cursor → Option Cursor) :
    wordEdge.run (place t q held) next =
      if t[q]?.any Text.isWord then none else next (place t q held) := by
  have hedge : (place t q held).atWordEdge = !t[q]?.any Text.isWord := by
    simp [atWordEdge, place, h]
  rw [run_wordEdge, hedge]
  cases t[q]?.any Text.isWord <;> rfl

/-- The rest of a tag goes on behind the first closing bracket. -/
theorem run_restOfTag_place (t : Text) (q : ℕ) (held : Text) (next : Cursor → Option Cursor) :
    restOfTag.run (place t q held) next =
      (t.least? q (t.standsAt ">".toList)).bind fun g => next (place t (g + 1) held) := by
  have hword : ∀ k, (word ">").run (place t k held) next =
      if t.standsAt ">".toList k then next (place t (k + 1) held) else none :=
    fun k => run_word_of_isMark (by decide) t k held next
  have hnext : ∀ k, t[k]?.any (· != '>') → (word ">").run (place t k held) next = none := by
    intro k hk
    obtain ⟨c, hc, hne⟩ := (Option.any_eq_true _ _).mp hk
    rw [hword, Text.standsAt_bracket, hc]
    exact if_neg (by simpa using hne)
  rw [restOfTag, run_append, run_longest_of_stop _ _ _ _ _ hnext, hword,
    Text.least?_bracket]
  split <;> simp_all

/-- A closing tag is the name behind `</` with white space and a bracket behind it. -/
theorem run_closingTag_place (name : String) (t : Text) (q : ℕ) (held : Text)
    (next : Cursor → Option Cursor) :
    (closingTag (word name)).run (place t q held) next =
      (Markup.closingTagStop? t name.toList q).bind fun e => next (place t e held) := by
  have hbracket : ∀ k, (word ">").run (place t k held) next =
      if t.standsAt ">".toList k then next (place t (k + 1) held) else none :=
    fun k => run_word_of_isMark (by decide) t k held next
  have hnext : ∀ k, t[k]?.any Text.isBlank → (word ">").run (place t k held) next = none := by
    intro k hk
    obtain ⟨c, hc, hblank⟩ := (Option.any_eq_true _ _).mp hk
    rw [hbracket, Text.standsAt_bracket, hc]
    apply if_neg
    rintro hbr
    obtain rfl : c = '>' := by simpa using hbr
    exact absurd hblank (by decide)
  have hblanks : ∀ k, blanks.run (place t k held) (fun there => (word ">").run there next) =
      (word ">").run (place t (k + ((t.drop k).takeWhile Text.isBlank).length) held) next :=
    fun k => run_longest_of_stop _ t k held _ hnext
  rw [closingTag, run_append, run_append, run_append, run_word_of_isMark (by decide),
    run_word_place, hblanks, hbracket, Markup.closingTagStop?, show "</".toList.length = 2 from rfl]
  cases t.standsAt "</".toList q with
  | false => rfl
  | true =>
      cases t.spelledAt name.toList (q + 2) with
      | false => rfl
      | true =>
          simp only [if_true, Bool.true_and]
          split <;> rfl

end Pattern

end MarkupAudit
