import MarkupAudit.Proofs.Region.Idempotence

/-! # The inside of a comment

What a comment holds has no part in where regions start and stop. Before the comment, a region stops
before it and an opening tag has a closing bracket at the latest with the comment; behind it, regions
are sought in what follows alone. So another inside that does not end the comment early leaves all
regions where they are, and with the same line breaks it leaves the blanked text as it is. -/

namespace MarkupAudit

/-! ## Texts that agree between two offsets -/

namespace Text

/-- Two texts have the same characters between two offsets. -/
def AgreeOn (t u : Text) (lo hi : ℕ) : Prop :=
  ∀ i, lo ≤ i → i < hi → t[i]? = u[i]?

namespace AgreeOn

variable {t u : Text} {lo hi : ℕ} (h : AgreeOn t u lo hi)

include h

theorem symm : AgreeOn u t lo hi :=
  fun i hlo hhi => (h i hlo hhi).symm

theorem standsAt_eq {part : Text} {q : ℕ} (hlo : lo ≤ q) (hhi : q + part.length ≤ hi) :
    t.standsAt part q = u.standsAt part q := by
  induction part generalizing q with
  | nil => simp
  | cons c part ih =>
      rw [List.length_cons] at hhi
      rw [standsAt_cons, standsAt_cons, h q hlo (by omega), ih (by omega) (by omega)]

theorem spelledAt_eq {part : Text} {q : ℕ} (hlo : lo ≤ q) (hhi : q + part.length ≤ hi) :
    t.spelledAt part q = u.spelledAt part q := by
  induction part generalizing q with
  | nil => simp
  | cons c part ih =>
      rw [List.length_cons] at hhi
      rw [spelledAt_cons, spelledAt_cons, h q hlo (by omega), ih (by omega) (by omega)]

end AgreeOn

/-- What is found first in a text is found first in another one of its length where the same holds
up to there. -/
theorem least?_eq_some_of {t u : Text} (hlength : u.length = t.length) {holds holds' : ℕ → Bool}
    {p q : ℕ} (hfound : t.least? p holds = some q)
    (hsame : ∀ r, p ≤ r → r ≤ q → holds' r = holds r) : u.least? p holds' = some q := by
  obtain ⟨hq, hle, hlen, hbefore⟩ := least?_eq_some_iff.mp hfound
  refine least?_eq_some_iff.mpr ⟨?_, hle, hlength ▸ hlen, fun r hpr hrq => ?_⟩
  · rw [hsame q hle le_rfl, hq]
  · rw [hsame r hpr hrq.le, hbefore r hpr hrq]

theorem least?_congr {t u : Text} (hlength : u.length = t.length) {holds holds' : ℕ → Bool} {p : ℕ}
    (hsame : ∀ r, p ≤ r → holds' r = holds r) : u.least? p holds' = t.least? p holds := by
  cases hfound : t.least? p holds with
  | some q => exact least?_eq_some_of hlength hfound fun r hpr _ => hsame r hpr
  | none =>
      rw [least?_eq_none_iff] at hfound ⊢
      intro q hle hq
      rw [hsame q hle, hfound q hle (hlength ▸ hq)]

/-- The characters of a name are word characters. -/
theorem isWord_of_spelledAt {t part : Text} {q : ℕ} (hname : part.all Char.isAlphanum)
    (h : t.spelledAt part q) {i : ℕ} (hlo : q ≤ i) (hhi : i < q + part.length) :
    t[i]?.any isWord := by
  induction part generalizing q with
  | nil => simp at hhi; omega
  | cons c part ih =>
      rw [spelledAt_cons, Bool.and_eq_true] at h
      rw [List.all_cons, Bool.and_eq_true] at hname
      rw [List.length_cons] at hhi
      by_cases hi : i = q
      · obtain ⟨x, hx, hfold⟩ := (Option.any_eq_true _ _).mp h.1
        rw [hi, hx]
        exact isWord_of_sameFold hname.1 hfold
      · exact ih hname.2 h.2 (by omega) (by omega)

end Text

/-! ## Closing tags -/

namespace Markup

/-- A closing tag is the name behind `</` with white space and a bracket behind it. -/
theorem closingTagStop?_eq_some_iff {t name : Text} {q e : ℕ} :
    closingTagStop? t name q = some e ↔
      t.standsAt "</".toList q ∧ t.spelledAt name (q + 2) ∧
        ∃ bracket, q + 2 + name.length ≤ bracket ∧ t.standsAt ">".toList bracket ∧
          (∀ i, q + 2 + name.length ≤ i → i < bracket → t[i]?.any Text.isBlank) ∧
          e = bracket + 1 := by
  obtain ⟨hstop, hall⟩ := Text.takeWhile_stop t (q + 2 + name.length) Text.isBlank
  have hle : q + 2 + name.length ≤ q + 2 + name.length +
      ((t.drop (q + 2 + name.length)).takeWhile Text.isBlank).length := Nat.le_add_right _ _
  simp only [closingTagStop?, Option.ite_none_right_eq_some, Option.some.injEq, Bool.and_eq_true]
  generalize q + 2 + name.length + ((t.drop (q + 2 + name.length)).takeWhile Text.isBlank).length =
    g at hstop hall hle ⊢
  constructor
  · rintro ⟨⟨⟨hopen, hname⟩, hbracket⟩, rfl⟩
    exact ⟨hopen, hname, g, hle, hbracket, hall, rfl⟩
  · rintro ⟨hopen, hname, bracket, hlo, hbracket, hblank, rfl⟩
    obtain rfl : bracket = g := by
      rcases Nat.lt_trichotomy bracket g with hlt | heq | hgt
      · -- the bracket would be white space
        have hspace := hall bracket hlo hlt
        obtain ⟨c, hc, hmark⟩ := (Option.any_eq_true _ _).mp (Text.standsAt_bracket t _ ▸ hbracket)
        rw [hc, beq_iff_eq.mp hmark] at hspace
        exact absurd hspace (by decide)
      · exact heq
      · rw [hblank g hle hgt] at hstop
        cases hstop
    exact ⟨⟨⟨hopen, hname⟩, hbracket⟩, rfl⟩

theorem closingTagStop?_of_agreeOn {t u name : Text} {q e lo hi : ℕ}
    (h : Text.AgreeOn t u lo hi) (hlo : lo ≤ q) (hhi : e ≤ hi)
    (hstop : closingTagStop? t name q = some e) : closingTagStop? u name q = some e := by
  obtain ⟨hopen, hname, bracket, hle, hbracket, hblank, rfl⟩ :=
    closingTagStop?_eq_some_iff.mp hstop
  refine closingTagStop?_eq_some_iff.mpr ⟨?_, ?_, bracket, hle, ?_, fun i hi1 hi2 => ?_, rfl⟩
  · rwa [← h.standsAt_eq hlo (by simp; omega)]
  · rwa [← h.spelledAt_eq (by omega) (by omega)]
  · rwa [← h.standsAt_eq (by omega) (by simpa using hhi)]
  · rw [← h i (by omega) (by omega)]
    exact hblank i hi1 hi2

/-- A closing tag has no opening bracket but its first character. -/
theorem opener_notMem_closingTag {t name : Text} {q e i : ℕ} (hname : name.all Char.isAlphanum)
    (h : closingTagStop? t name q = some e) (hlo : q < i) (hhi : i < e) : t[i]? ≠ some '<' := by
  obtain ⟨hopen, hspelled, bracket, hle, hbracket, hblank, rfl⟩ :=
    closingTagStop?_eq_some_iff.mp h
  intro hi
  by_cases hslash : i = q + 1
  · rw [show "</".toList = ['<', '/'] from rfl, Text.standsAt_cons, Text.standsAt_singleton,
      ← hslash, hi] at hopen
    simp at hopen
  by_cases hletter : i < q + 2 + name.length
  · have hword := Text.isWord_of_spelledAt hname hspelled (by omega) hletter
    rw [hi] at hword
    revert hword
    decide
  by_cases hspace : i < bracket
  · have hwhite := hblank i (by omega) hspace
    rw [hi] at hwhite
    revert hwhite
    decide
  · obtain rfl : i = bracket := by omega
    rw [Text.standsAt_bracket, hi] at hbracket
    revert hbracket
    decide

end Markup

/-! ## Scanners that find the same -/

namespace Occurrences

variable {t u : Text} {o : Occurrences t} {o' : Occurrences u}

theorem next?_congr {p : ℕ} (h : ∀ q, p ≤ q → o'.stop? q = o.stop? q) : o'.next? p = o.next? p := by
  apply Option.ext
  rintro ⟨q, e⟩
  simp only [next?_eq_some_iff]
  constructor
  · rintro ⟨hle, hstop, hbefore⟩
    exact ⟨hle, by rw [← h q hle, hstop], fun r hpr hrq => by rw [← h r hpr, hbefore r hpr hrq]⟩
  · rintro ⟨hle, hstop, hbefore⟩
    exact ⟨hle, by rw [h q hle, hstop], fun r hpr hrq => by rw [h r hpr, hbefore r hpr hrq]⟩

theorem scan_of_next? {p q e : ℕ} (h : o.next? p = some (q, e)) :
    o.scan p = (q, e) :: o.scan e := by
  rw [scan_eq, h]

theorem scan_congr {p : ℕ} (h : ∀ q, p ≤ q → o'.stop? q = o.stop? q) : o'.scan p = o.scan p := by
  fun_induction o.scan p with
  | case1 p hnext => rw [scan_eq, next?_congr h, hnext]
  | case2 p q e hnext ih =>
      obtain ⟨hle, hstop, -⟩ := o.next?_eq_some_iff.mp hnext
      have hlt := o.lt_stop hstop
      rw [scan_of_next? ((next?_congr h).trans hnext), ih fun r hr => h r (by omega)]

/-- Two scanners find the same if one of them finds a thing at which and behind which they agree, and
before which the same things start and, if they do not reach to it, stop. -/
theorem scan_eq_of_mem {a b : ℕ} (hbefore : ∀ q < a, (o'.stop? q).isSome = (o.stop? q).isSome)
    (hkept : ∀ q e, q < a → e ≤ a → o.stop? q = some e → o'.stop? q = some e)
    (hat : o'.stop? a = o.stop? a) (hbehind : ∀ q, b ≤ q → o'.stop? q = o.stop? q) {p : ℕ}
    (h : (a, b) ∈ o.scan p) : o'.scan p = o.scan p := by
  have hnone : ∀ r < a, o.stop? r = none → o'.stop? r = none := by
    intro r hr hstop
    have hsome := hbefore r hr
    rwa [hstop, Option.isSome_none, Option.isSome_eq_false_iff, Option.isNone_iff_eq_none] at hsome
  fun_induction o.scan p with
  | case1 => simp at h
  | case2 p q e hnext ih =>
      obtain ⟨hle, hstop, hfirst⟩ := o.next?_eq_some_iff.mp hnext
      rcases List.mem_cons.mp h with heq | hmem
      · obtain ⟨rfl, rfl⟩ := Prod.mk.inj heq
        have hnext' : o'.next? p = some (a, b) := o'.next?_eq_some_iff.mpr
          ⟨hle, hat.trans hstop, fun r hpr hr => hnone r hr (hfirst r hpr hr)⟩
        rw [scan_of_next? hnext', scan_congr hbehind]
      · have hea : e ≤ a := (o.mem_scan hmem).1
        have hqa : q < a := (o.lt_stop hstop).trans_le hea
        have hnext' : o'.next? p = some (q, e) := o'.next?_eq_some_iff.mpr
          ⟨hle, hkept q e hqa hea hstop,
            fun r hpr hr => hnone r (hr.trans hqa) (hfirst r hpr hr)⟩
        rw [scan_of_next? hnext', ih hmem]

theorem exists_next?_of_stopFrom_lt {q : ℕ} (h : o.stopFrom q < t.length) :
    ∃ k, o.next? q = some (k, o.stopFrom q) := by
  cases hnext : o.next? q with
  | none =>
      rw [o.stopFrom_of_none hnext] at h
      omega
  | some found => exact ⟨found.1, by rw [o.stopFrom_of_some hnext]⟩

end Occurrences

namespace Region

/-! ## Texts that differ inside a comment -/

/-- Two texts of one length agree up to the opener of a comment and from its closing bracket on. -/
structure DifferInside (t u : Text) (a c : ℕ) : Prop where
  length_eq : u.length = t.length
  before : Text.AgreeOn t u 0 (a + 4)
  behind : ∀ q, c ≤ q → u.drop q = t.drop q
  opens : t[a]? = some '<'
  closes : t[c]? = some '>'
  le : a ≤ c

/-- A name that starts before an opening bracket stops before it. -/
theorem nameStop_le {t name : Text} {a q : ℕ} (hname : name.all Char.isAlphanum)
    (hopens : t[a]? = some '<') (hq : q ≤ a) (h : t.spelledAt name q) : q + name.length ≤ a := by
  by_contra hlt
  have hword := Text.isWord_of_spelledAt hname h hq (by omega)
  rw [hopens] at hword
  revert hword
  decide

namespace DifferInside

variable {t u : Text} {a c : ℕ} (h : DifferInside t u a c)

include h

theorem symm : DifferInside u t a c where
  length_eq := h.length_eq.symm
  before := h.before.symm
  behind q hq := (h.behind q hq).symm
  opens := by rw [← h.before a (Nat.zero_le a) (by omega), h.opens]
  closes := by rw [← List.head?_drop, h.behind c le_rfl, List.head?_drop, h.closes]
  le := h.le

theorem standsAt_eq {part : Text} {q : ℕ} (hq : q + part.length ≤ a + 4) :
    u.standsAt part q = t.standsAt part q :=
  (h.before.standsAt_eq (Nat.zero_le q) hq).symm

/-! ### Regions before the comment -/

theorem commentEndStop?_eq {q : ℕ} (hq : q + 3 ≤ a + 4) :
    commentEndStop? u q = commentEndStop? t q := by
  rw [commentEndStop?, commentEndStop?, h.standsAt_eq (by simpa using hq)]

theorem commentStop_eq {q : ℕ} (hle : commentStop t q ≤ a) : commentStop u q = commentStop t q := by
  have hshort (hq : q + 5 ≤ a + 4) : u.standsAt "<!-->".toList q = t.standsAt "<!-->".toList q :=
    h.standsAt_eq hq
  have hlong (hq : q + 6 ≤ a + 4) : u.standsAt "<!--->".toList q = t.standsAt "<!--->".toList q :=
    h.standsAt_eq hq
  unfold commentStop at hle ⊢
  by_cases habrupt : t.standsAt "<!-->".toList q
  · rw [if_pos habrupt] at hle
    rw [hshort (by omega), if_pos habrupt, if_pos habrupt]
  rw [if_neg habrupt] at hle
  by_cases hdashed : t.standsAt "<!--->".toList q
  · rw [if_pos hdashed] at hle
    rw [hshort (by omega), hlong (by omega), if_neg habrupt, if_neg habrupt, if_pos hdashed,
      if_pos hdashed]
  rw [if_neg hdashed] at hle
  have ha : a < t.length := (List.getElem?_eq_some_iff.mp h.opens).1
  obtain ⟨k, hnext⟩ := Occurrences.exists_next?_of_stopFrom_lt (hle.trans_lt ha)
  obtain ⟨hlo, hstop, hfirst⟩ := (commentEnds t).next?_eq_some_iff.mp hnext
  have hk : (commentEnds t).stopFrom (q + 4) = k + 3 :=
    (Option.some.inj (Option.ite_none_right_eq_some.mp hstop).2).symm
  have hnext' : (commentEnds u).next? (q + 4) = some (k, (commentEnds t).stopFrom (q + 4)) := by
    refine (commentEnds u).next?_eq_some_iff.mpr ⟨hlo, ?_, fun r hqr hrk => ?_⟩
    · exact (h.commentEndStop?_eq (by omega)).trans hstop
    · exact (h.commentEndStop?_eq (by omega)).trans (hfirst r hqr hrk)
  rw [hshort (by omega), hlong (by omega), if_neg habrupt, if_neg habrupt, if_neg hdashed,
    if_neg hdashed, (commentEnds u).stopFrom_of_some hnext']

section Element

variable {name : Text} (hname : name.all Char.isAlphanum) {q : ℕ}

include hname

theorem spelledAt_eq (hq : q ≤ a) : u.spelledAt name q = t.spelledAt name q := by
  by_cases hle : q + name.length ≤ a
  · exact (h.before.spelledAt_eq (Nat.zero_le q) (by omega)).symm
  · have hnone : t.spelledAt name q = false :=
      Bool.eq_false_iff.mpr fun hspelled => hle (nameStop_le hname h.opens hq hspelled)
    have hnone' : u.spelledAt name q = false :=
      Bool.eq_false_iff.mpr fun hspelled => hle (nameStop_le hname h.symm.opens hq hspelled)
    rw [hnone, hnone']

/-- Before the comment, the same elements start. -/
theorem isOpener_eq (hq : q < a) :
    (u.standsAt "<".toList q && u.spelledAt name (q + 1) &&
        u[q + 1 + name.length]?.any (!Text.isWord ·)) =
      (t.standsAt "<".toList q && t.spelledAt name (q + 1) &&
        t[q + 1 + name.length]?.any (!Text.isWord ·)) := by
  rw [h.standsAt_eq (by simp; omega), h.spelledAt_eq hname hq]
  cases hspelled : t.spelledAt name (q + 1) with
  | false => simp
  | true =>
      have hstop := nameStop_le hname h.opens hq hspelled
      rw [h.before (q + 1 + name.length) (Nat.zero_le _) (by omega)]

/-- An opening tag before the comment has a closing bracket, at the latest that of the comment. -/
theorem isSome_elementStop? (hq : q < a) :
    (elementStop? t name q).isSome =
      (t.standsAt "<".toList q && t.spelledAt name (q + 1) &&
        t[q + 1 + name.length]?.any (!Text.isWord ·)) := by
  rw [elementStop?]
  split
  · next hopener =>
      rw [hopener, Option.isSome_map, Option.isSome_iff_ne_none]
      simp only [Bool.and_eq_true] at hopener
      have hstop := nameStop_le hname h.opens hq hopener.1.2
      have hc : c < t.length := (List.getElem?_eq_some_iff.mp h.closes).1
      have hca := h.le
      intro hnone
      have hbracket := Text.least?_eq_none_iff.mp hnone c (by omega) (by omega)
      rw [Text.standsAt_bracket, h.closes] at hbracket
      cases hbracket
  · next hopener => simpa using hopener

theorem isSome_elementStop?_eq (hq : q < a) :
    (elementStop? u name q).isSome = (elementStop? t name q).isSome := by
  rw [h.isSome_elementStop? hname hq, h.symm.isSome_elementStop? hname hq, h.isOpener_eq hname hq]

/-- A closing tag that is the first one behind an offset and stops before the comment is so in both
texts: no closing tag that starts before it reaches over the opener. -/
theorem closingTags_stopFrom_eq (hle : (Markup.closingTags t name).stopFrom q ≤ a) :
    (Markup.closingTags u name).stopFrom q = (Markup.closingTags t name).stopFrom q := by
  have ha : a < t.length := (List.getElem?_eq_some_iff.mp h.opens).1
  obtain ⟨k, hnext⟩ := Occurrences.exists_next?_of_stopFrom_lt (hle.trans_lt ha)
  obtain ⟨hlo, hstop, hfirst⟩ := (Markup.closingTags t name).next?_eq_some_iff.mp hnext
  have hlt := (Markup.closingTags t name).lt_stop hstop
  apply (Markup.closingTags u name).stopFrom_of_some (k := k)
  refine (Markup.closingTags u name).next?_eq_some_iff.mpr ⟨hlo, ?_, fun r hqr hrk => ?_⟩
  · exact Markup.closingTagStop?_of_agreeOn h.before (Nat.zero_le k) (by omega) hstop
  · by_contra hsome
    obtain ⟨e, he⟩ := Option.ne_none_iff_exists'.mp hsome
    by_cases hea : e ≤ a
    · have hclosing : (Markup.closingTags t name).stop? r = some e :=
        Markup.closingTagStop?_of_agreeOn h.symm.before (Nat.zero_le r) (by omega) he
      rw [hfirst r hqr hrk] at hclosing
      cases hclosing
    · exact Markup.opener_notMem_closingTag hname he (by omega) (by omega) h.symm.opens

theorem elementStop?_eq_some {e : ℕ} (hq : q < a) (hea : e ≤ a)
    (hstop : elementStop? t name q = some e) : elementStop? u name q = some e := by
  simp only [elementStop?, Option.ite_none_right_eq_some, Option.map_eq_some_iff] at hstop ⊢
  obtain ⟨hopener, bracket, hbracket, rfl⟩ := hstop
  have hlen : bracket + 1 ≤ t.length := Text.add_length_le_of_standsAt (by decide)
    (Text.least?_eq_some_iff.mp hbracket).1
  have hbounds := (Markup.closingTags t name).stopFrom_bounds hlen
  refine ⟨by rwa [h.isOpener_eq hname hq], bracket, ?_, h.closingTags_stopFrom_eq hname hea⟩
  exact Text.least?_eq_some_of h.length_eq hbracket fun r _ hr => h.standsAt_eq (by simp; omega)

end Element

theorem isSome_stopAt?_eq {q : ℕ} (hq : q < a) :
    (stopAt? u q).isSome = (stopAt? t q).isSome := by
  rw [isSome_stopAt?, isSome_stopAt?, h.standsAt_eq (by simp; omega),
    h.isSome_elementStop?_eq (by decide) hq, h.isSome_elementStop?_eq (by decide) hq]

/-- A region that starts and stops before the comment does so in both texts. -/
theorem stopAt?_eq_some {q e : ℕ} (hq : q < a) (hea : e ≤ a) (hstop : stopAt? t q = some e) :
    stopAt? u q = some e := by
  unfold stopAt? at hstop ⊢
  rw [h.standsAt_eq (by simp; omega)]
  by_cases hopen : t.standsAt "<!--".toList q
  · rw [if_pos hopen] at hstop ⊢
    obtain rfl := Option.some.inj hstop
    rw [h.commentStop_eq hea]
  · rw [if_neg hopen, Option.or_eq_some_iff] at hstop
    rw [if_neg hopen, Option.or_eq_some_iff]
    rcases hstop with hscript | ⟨hscript, hstyle⟩
    · exact .inl (h.elementStop?_eq_some (by decide) hq hea hscript)
    · have hnone : (elementStop? u "script".toList q).isSome = false := by
        rw [h.isSome_elementStop?_eq (by decide) hq, hscript]
        rfl
      exact .inr ⟨by simpa using hnone, h.elementStop?_eq_some (by decide) hq hea hstyle⟩

/-! ### Regions behind the comment -/

theorem standsAt_eq_of_le {part : Text} {q : ℕ} (hq : c ≤ q) :
    u.standsAt part q = t.standsAt part q := by
  rw [Text.standsAt, Text.standsAt, h.behind q hq]

theorem closingTagStop?_eq {name : Text} {q : ℕ} (hq : c ≤ q) :
    Markup.closingTagStop? u name q = Markup.closingTagStop? t name q := by
  simp only [Markup.closingTagStop?]
  rw [h.standsAt_eq_of_le hq, Text.spelledAt, Text.spelledAt, h.behind (q + 2) (by omega),
    h.behind (q + 2 + name.length) (by omega), h.standsAt_eq_of_le (by omega)]

theorem elementStop?_eq {name : Text} {q : ℕ} (hq : c ≤ q) :
    elementStop? u name q = elementStop? t name q := by
  have hbracket : u.least? (q + 1 + name.length) (u.standsAt ">".toList) =
      t.least? (q + 1 + name.length) (t.standsAt ">".toList) :=
    Text.least?_congr h.length_eq fun r hr => h.standsAt_eq_of_le (by omega)
  have hclosing : ∀ p, q ≤ p →
      (Markup.closingTags u name).stopFrom p = (Markup.closingTags t name).stopFrom p := by
    intro p hp
    have hnext : (Markup.closingTags u name).next? p = (Markup.closingTags t name).next? p :=
      Occurrences.next?_congr fun r hr => h.closingTagStop?_eq (by omega)
    rw [Occurrences.stopFrom, Occurrences.stopFrom, hnext, h.length_eq]
  simp only [elementStop?]
  rw [h.standsAt_eq_of_le hq, Text.spelledAt, Text.spelledAt, h.behind (q + 1) (by omega),
    ← List.head?_drop, h.behind (q + 1 + name.length) (by omega), List.head?_drop, hbracket]
  cases hfound : t.least? (q + 1 + name.length) (t.standsAt ">".toList) with
  | none => rfl
  | some bracket =>
      have hle := (Text.least?_eq_some_iff.mp hfound).2.1
      rw [Option.map_some, Option.map_some, hclosing (bracket + 1) (by omega)]

theorem commentStop_eq_of_le {q : ℕ} (hq : c ≤ q) : commentStop u q = commentStop t q := by
  have hnext : (commentEnds u).next? (q + 4) = (commentEnds t).next? (q + 4) := by
    refine Occurrences.next?_congr fun r hr => ?_
    change commentEndStop? u r = commentEndStop? t r
    rw [commentEndStop?, commentEndStop?, h.standsAt_eq_of_le (by omega)]
  rw [commentStop, commentStop, h.standsAt_eq_of_le hq, h.standsAt_eq_of_le hq,
    Occurrences.stopFrom, Occurrences.stopFrom, hnext, h.length_eq]

theorem stopAt?_eq {q : ℕ} (hq : c ≤ q) : stopAt? u q = stopAt? t q := by
  rw [stopAt?, stopAt?, h.standsAt_eq_of_le hq, h.commentStop_eq_of_le hq, h.elementStop?_eq hq,
    h.elementStop?_eq hq]

/-- If the comment is a region of one text and may be one of the other, the regions are the same. -/
theorem all_eq (hregion : (a, c + 1) ∈ all t) (hcomment : stopAt? u a = some (c + 1)) :
    all u = all t := by
  rw [all_eq_occurrences_scan] at hregion
  rw [all_eq_occurrences_scan, all_eq_occurrences_scan]
  have hstop : stopAt? t a = some (c + 1) := ((occurrences t).mem_scan hregion).2
  have hbefore : ∀ q < a, ((occurrences u).stop? q).isSome = ((occurrences t).stop? q).isSome :=
    fun q hq => h.isSome_stopAt?_eq hq
  have hbehind : ∀ q, c + 1 ≤ q → (occurrences u).stop? q = (occurrences t).stop? q :=
    fun q hq => h.stopAt?_eq (by omega)
  exact Occurrences.scan_eq_of_mem hbefore (fun q e => h.stopAt?_eq_some)
    (hcomment.trans hstop.symm) hbehind hregion

end DifferInside

/-! ## Another inside -/

/-- A text with a comment. -/
def withComment (before inside after : Text) : Text :=
  before ++ "<!--".toList ++ inside ++ "-->".toList ++ after

/-- What stands in a comment ends it neither at once nor early. -/
structure KeepsOpen (inside : Text) : Prop where
  not_closed : ¬">".toList <+: inside
  not_dashed : ¬"->".toList <+: inside
  not_ended : ¬"-->".toList <:+: inside

theorem length_withComment (before inside after : Text) :
    (withComment before inside after).length =
      before.length + inside.length + 7 + after.length := by
  simp only [withComment, List.length_append]
  change before.length + 4 + inside.length + 3 + after.length = _
  omega

theorem drop_withComment (before inside after : Text) :
    (withComment before inside after).drop (before.length + 4) =
      inside ++ "-->".toList ++ after := by
  have hlength : (before ++ "<!--".toList).length = before.length + 4 := List.length_append
  rw [← hlength, withComment, List.append_assoc, List.append_assoc, List.drop_left,
    List.append_assoc]

theorem drop_withComment_bracket (before inside after : Text) :
    (withComment before inside after).drop (before.length + inside.length + 6) = '>' :: after := by
  have hsplit : withComment before inside after =
      (before ++ "<!--".toList ++ inside ++ "--".toList) ++ '>' :: after := by
    simp [withComment]
  rw [hsplit]
  apply List.drop_left'
  simp
  omega

theorem getElem?_withComment_of_lt (before inside after : Text) {i : ℕ}
    (hi : i < before.length + 4) :
    (withComment before inside after)[i]? = (before ++ "<!--".toList)[i]? := by
  rw [withComment, List.append_assoc, List.append_assoc, List.getElem?_append_left]
  simpa using hi

theorem standsAt_withComment (before inside after part : Text) (q : ℕ) :
    (withComment before inside after).standsAt part (before.length + 4 + q) =
      Text.standsAt (inside ++ "-->".toList ++ after) part q := by
  rw [Text.standsAt, Text.standsAt, ← List.drop_drop, drop_withComment]

section Inside

variable {inside : Text} (h : KeepsOpen inside) (before after : Text)

include h

/-- No end of a comment starts in its inside: it would lie in there as a whole, or its bracket would
stand where the end of the comment has a dash. -/
theorem KeepsOpen.not_standsAt_end {q : ℕ} (hq : q < inside.length) :
    ¬Text.standsAt (inside ++ "-->".toList ++ after) "-->".toList q := by
  intro hend
  by_cases hle : q + 3 ≤ inside.length
  · have hstart : "-->".toList <+: inside.drop q ++ ("-->".toList ++ after) := by
      rw [← List.drop_append_of_le_length hq.le, ← List.append_assoc]
      exact List.isPrefixOf_iff_prefix.mp hend
    have hlength : "-->".toList.length ≤ (inside.drop q).length := by
      rw [List.length_drop]
      change 3 ≤ _
      omega
    exact h.not_ended (List.infix_iff_prefix_suffix.mpr ⟨inside.drop q,
      List.prefix_of_prefix_length_le hstart (List.prefix_append _ _) hlength,
      List.drop_suffix _ _⟩)
  · have hdash : (inside ++ "-->".toList ++ after)[q + 2]? = some '-' := by
      rw [List.append_assoc, List.getElem?_append_right (by omega)]
      rcases Nat.lt_or_ge (q + 1) inside.length with hlt | hge
      · rw [show q + 2 - inside.length = 0 by omega]
        rfl
      · rw [show q + 2 - inside.length = 1 by omega]
        rfl
    rw [Text.getElem?_of_standsAt hend (by decide : 2 < 3)] at hdash
    cases hdash

theorem KeepsOpen.not_standsAt_abrupt :
    ¬Text.standsAt (inside ++ "-->".toList ++ after) ">".toList 0 ∧
      ¬Text.standsAt (inside ++ "-->".toList ++ after) "->".toList 0 := by
  simp only [Text.standsAt, List.drop_zero, List.isPrefixOf_iff_prefix]
  rcases inside with _ | ⟨c, _ | ⟨d, inside⟩⟩
  · simp [List.cons_prefix_cons]
  · have hclosed := h.not_closed
    simpa [List.cons_prefix_cons] using hclosed
  · have hclosed := h.not_closed
    have hdashed := h.not_dashed
    simpa [List.cons_prefix_cons] using And.intro hclosed hdashed

theorem stopAt?_withComment :
    stopAt? (withComment before inside after) before.length =
      some (before.length + inside.length + 7) := by
  have hopen : (withComment before inside after).standsAt "<!--".toList before.length := by
    simp [withComment, Text.standsAt, List.isPrefixOf]
  obtain ⟨hclosed, hdashed⟩ := h.not_standsAt_abrupt after
  rw [← standsAt_withComment before, Nat.add_zero] at hclosed hdashed
  have hshort : ¬(withComment before inside after).standsAt "<!-->".toList before.length := by
    rw [show "<!-->".toList = "<!--".toList ++ ">".toList from rfl, Text.standsAt_append, hopen]
    exact hclosed
  have hlong : ¬(withComment before inside after).standsAt "<!--->".toList before.length := by
    rw [show "<!--->".toList = "<!--".toList ++ "->".toList from rfl, Text.standsAt_append, hopen]
    exact hdashed
  have hnext : (commentEnds (withComment before inside after)).next? (before.length + 4) =
      some (before.length + 4 + inside.length, before.length + 4 + inside.length + 3) := by
    refine (commentEnds _).next?_eq_some_iff.mpr ⟨Nat.le_add_right _ _, ?_, fun r hr hlt => ?_⟩
    · refine if_pos ?_
      rw [standsAt_withComment]
      simp [Text.standsAt, List.isPrefixOf]
    · obtain ⟨q, rfl⟩ := Nat.exists_eq_add_of_le hr
      refine if_neg ?_
      rw [standsAt_withComment]
      exact h.not_standsAt_end after (by omega)
  rw [stopAt?, if_pos hopen, commentStop, if_neg hshort, if_neg hlong,
    (commentEnds _).stopFrom_of_some hnext, Option.some.injEq]
  omega

end Inside

/-- Two insides of one length differ inside the comment only. -/
theorem differInside_withComment {body other : Text} (hlength : other.length = body.length)
    (before after : Text) :
    DifferInside (withComment before body after) (withComment before other after) before.length
      (before.length + body.length + 6) where
  length_eq := by rw [length_withComment, length_withComment, hlength]
  before i _ hi := by
    rw [getElem?_withComment_of_lt before body after hi, getElem?_withComment_of_lt _ _ _ hi]
  behind q hq := by
    have hother := drop_withComment_bracket before other after
    rw [hlength, ← drop_withComment_bracket before body after] at hother
    obtain ⟨k, rfl⟩ := Nat.exists_eq_add_of_le hq
    rw [← List.drop_drop, hother, List.drop_drop]
  opens := by
    rw [getElem?_withComment_of_lt _ _ _ (by omega)]
    simp
  closes := by
    rw [← List.head?_drop, drop_withComment_bracket]
    rfl
  le := by omega

/-! ## The blanked text -/

/-- Texts with the same regions have the same blanked text if they have the same characters outside
the regions and the same line breaks. -/
theorem blank_congr {t u : Text} (hall : all u = all t)
    (houtside : ∀ i, ¬Covers (all t) i → u[i]? = t[i]?) (hbreaks : u.map blanked = t.map blanked) :
    blank u = blank t := by
  apply List.ext_getElem?
  intro i
  rw [getElem?_blank, getElem?_blank, hall]
  by_cases hcovers : Covers (all t) i
  · rw [funext (shownAt_of_covers hcovers), ← List.getElem?_map, ← List.getElem?_map, hbreaks]
  · rw [houtside i hcovers]

theorem map_blanked_eq {body other : Text} (hlength : other.length = body.length)
    (hbreaks : ∀ (i : ℕ) (c : Char), c = '\r' ∨ c = '\n' →
      (body[i]? = some c ↔ other[i]? = some c)) :
    other.map blanked = body.map blanked := by
  refine List.ext_getElem (by simp [hlength]) fun i hother hbody => ?_
  rw [List.length_map] at hother hbody
  have hreturn := hbreaks i '\r' (.inl rfl)
  have hfeed := hbreaks i '\n' (.inr rfl)
  rw [List.getElem?_eq_getElem hother, List.getElem?_eq_getElem hbody, Option.some.injEq,
    Option.some.injEq] at hreturn hfeed
  rw [List.getElem_map, List.getElem_map]
  unfold blanked
  by_cases hcr : body[i] = '\r'
  · rw [hcr, hreturn.mp hcr]
  by_cases hlf : body[i] = '\n'
  · rw [hlf, hfeed.mp hlf]
  · simp [hcr, hlf, hreturn.not.mp hcr, hfeed.not.mp hlf]

section Replaced

variable {before body other after : Text}
  (hregion : (before.length, before.length + body.length + 7) ∈ all (withComment before body after))
  (hlength : other.length = body.length) (hkeeps : KeepsOpen other)

include hregion hlength hkeeps

theorem all_withComment_eq :
    all (withComment before other after) = all (withComment before body after) := by
  refine (differInside_withComment hlength before after).all_eq hregion ?_
  rw [stopAt?_withComment hkeeps, hlength]

theorem blank_withComment_eq (hbreaks : ∀ (i : ℕ) (c : Char), c = '\r' ∨ c = '\n' →
      (body[i]? = some c ↔ other[i]? = some c)) :
    blank (withComment before other after) = blank (withComment before body after) := by
  have hdiffer := differInside_withComment hlength before after
  refine blank_congr (all_withComment_eq hregion hlength hkeeps) (fun i hcovers => ?_) ?_
  · by_cases hbefore : i < before.length + 4
    · exact (hdiffer.before i (Nat.zero_le i) hbefore).symm
    · have hbehind : before.length + body.length + 6 ≤ i := by
        by_contra hlt
        exact hcovers ⟨_, hregion, by simp only; omega, by simp only; omega⟩
      rw [← List.head?_drop, hdiffer.behind i hbehind, List.head?_drop]
  · simp only [withComment, List.map_append, map_blanked_eq hlength hbreaks]

end Replaced

end Region

end MarkupAudit
