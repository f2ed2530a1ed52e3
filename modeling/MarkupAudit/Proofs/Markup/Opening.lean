import MarkupAudit.Markup.Tag
import MarkupAudit.Proofs.Markup.Equations

/-! # Opening tags in a text

A tag reaches to the first closing bracket, and a pattern that takes no closing bracket matches in a
text what it matches in the tag alone. So the patterns of tags depend on the tags only, and those of
names depend only on the word that a tag starts with. -/

namespace MarkupAudit

namespace Markup

/-- A part of a text between an opening bracket and the next closing one, with no other opening
bracket in it. -/
structure Tag where
  body : Text
  opening_notMem : '<' ∉ body
  closing_notMem : '>' ∉ body

namespace Tag

/-- The tag with its brackets. -/
def text (u : Tag) : Text :=
  '<' :: u.body ++ ['>']

/-- The word behind the opening bracket. -/
def word (u : Tag) : Text :=
  u.body.takeWhile Text.isWord

/-- Whether the word behind the opening bracket is the name, ignoring case. -/
def isNamed (u : Tag) (name : Text) : Bool :=
  Text.startsLike name u.word && u.word.length == name.length

theorem length_of_isNamed (u : Tag) {name : Text} (h : u.isNamed name) :
    u.word.length = name.length := by
  rw [isNamed, Bool.and_eq_true] at h
  exact beq_iff_eq.mp h.2

@[simp] theorem length_text (u : Tag) : u.text.length = u.body.length + 2 := by
  simp [text]

theorem length_lt_of_isNamed (u : Tag) {name : Text} (h : u.isNamed name) :
    1 + name.length < u.text.length := by
  have hle : u.word.length ≤ u.body.length := (List.takeWhile_prefix _).length_le
  rw [u.length_of_isNamed h] at hle
  rw [length_text]
  omega

end Tag

theorem openingTag_append_of_notMem {b : Text} (h : '>' ∉ b) (r : Text) :
    openingTag (b ++ r) = b ++ openingTag r := by
  induction b with
  | nil => rfl
  | cons c b ih =>
      simp only [List.mem_cons, not_or] at h
      simp [openingTag, Ne.symm h.1, ih h.2]

theorem openingTag_append {b : Text} (h : '>' ∉ b) (r : Text) :
    openingTag (b ++ '>' :: r) = b ++ ['>'] :=
  openingTag_append_of_notMem h ('>' :: r)

theorem Tag.openingTag_append (u : Tag) (r : Text) : openingTag (u.text ++ r) = u.text := by
  have hbody : '>' ∉ '<' :: u.body := by simpa using u.closing_notMem
  simpa [text] using Markup.openingTag_append hbody r

end Markup

namespace Text

/-! ## Characters of a tag in a text -/

section TagAt

variable {t : Text} {q k : ℕ} {u : Markup.Tag}

theorem getLast?_take_of_standsAt {part : Text} (h : t.standsAt part q) (h0 : 0 < k)
    (hk : k < part.length) : (t.take (q + k)).getLast? = (part.take k).getLast? := by
  obtain ⟨j, rfl⟩ : ∃ j, k = j + 1 := ⟨k - 1, by omega⟩
  have hpart : part[j]? = some part[j] := List.getElem?_eq_getElem _
  rw [← Nat.add_assoc, getLast?_take_succ ((getElem?_of_standsAt h (by omega)).trans hpart),
    getLast?_take_succ hpart]

theorem standsAt_self (t : Text) : t.standsAt t 0 := by
  simp [standsAt]

theorem opens_of_standsAt (h : t.standsAt u.text q) : t.standsAt "<".toList q := by
  rw [Markup.Tag.text, List.cons_append, standsAt_cons, Bool.and_eq_true] at h
  rw [show "<".toList = ['<'] from rfl, standsAt_singleton]
  exact h.1

/-- In a tag, a closing bracket stands at its end only. -/
theorem getElem?_tag_eq_bracket_iff (hk : k < u.text.length) :
    u.text[k]? = some '>' ↔ k = u.body.length + 1 := by
  have hbody : '>' ∉ '<' :: u.body := by simpa using u.closing_notMem
  rw [Markup.Tag.length_text] at hk
  constructor
  · intro hget
    by_contra hne
    have hlt : k < ('<' :: u.body).length := by
      rw [List.length_cons]
      omega
    rw [Markup.Tag.text, List.getElem?_append_left hlt] at hget
    exact hbody (List.mem_of_getElem? hget)
  · rintro rfl
    simp [Markup.Tag.text]

/-- In a tag, a character that is no closing bracket is not the last one. -/
theorem succ_lt_of_any {accepts : Char → Bool} (hbracket : accepts '>' = false)
    (hk : k < u.text.length) (h : u.text[k]?.any accepts) : k + 1 < u.text.length := by
  by_contra hge
  have hend : k = u.body.length + 1 := by
    rw [Markup.Tag.length_text] at hge hk
    omega
  rw [(getElem?_tag_eq_bracket_iff hk).mpr hend, Option.any_some, hbracket] at h
  cases h

theorem least?_bracket_of_tag (h : t.standsAt u.text q) (hk : k < u.text.length) :
    t.least? (q + k) (t.standsAt ">".toList) = some (q + u.body.length + 1) := by
  have hlen : q + u.text.length ≤ t.length :=
    add_length_le_of_standsAt (by simp [Markup.Tag.text]) h
  have hbracket : ∀ j < u.text.length,
      (t.standsAt ">".toList (q + j) ↔ j = u.body.length + 1) := by
    intro j hj
    rw [standsAt_bracket, getElem?_of_standsAt h hj, ← getElem?_tag_eq_bracket_iff hj]
    simp [List.getElem?_eq_getElem hj]
  rw [Markup.Tag.length_text] at hlen hk hbracket
  rw [least?_eq_some_iff]
  refine ⟨(hbracket (u.body.length + 1) (by omega)).mpr rfl, by omega, by omega, ?_⟩
  intro r h1 h2
  have hr := hbracket (r - q) (by omega)
  rw [Nat.add_sub_cancel' (by omega)] at hr
  rw [Bool.eq_false_iff]
  intro hstands
  have := hr.mp hstands
  omega

end TagAt

theorem least?_bracket_of_notMem {t : Text} {q k : ℕ} (hq : '>' ∉ t.drop q) (hk : q ≤ k) :
    t.least? k (t.standsAt ">".toList) = none := by
  rw [least?_eq_none_iff]
  intro j hj _
  rw [standsAt_bracket, Bool.eq_false_iff]
  intro hany
  obtain ⟨c, hc, heq⟩ := (Option.any_eq_true _ _).mp hany
  obtain ⟨hlt, hget⟩ := List.getElem?_eq_some_iff.mp hc
  apply hq
  rw [List.mem_drop_iff_getElem, ← beq_iff_eq.mp heq, ← hget]
  exact ⟨j - q, by omega, by simp [Nat.add_sub_cancel' (hk.trans hj)]⟩

/-- No closing bracket stands for a plain letter or digit. -/
theorem sameFold_bracket {c : Char} (hc : c.isAlphanum) : sameFold c '>' = false := by
  rw [Bool.eq_false_iff]
  intro hfold
  have := isWord_of_sameFold hc hfold
  revert this
  decide

/-- A name that is spelled and ends is the word that a text starts with. -/
theorem startsLike_nameEnd {name : Text} (hname : name.all Char.isAlphanum)
    (ends : Option Char → Bool) (hends : ∀ c, ends (some c) = !isWord c) (b r : Text) :
    (startsLike name (b ++ '>' :: r) && ends ((b ++ '>' :: r).drop name.length).head?) =
      (startsLike name (b.takeWhile isWord) && (b.takeWhile isWord).length == name.length) := by
  induction name generalizing b with
  | nil =>
      cases b with
      | nil => simp [startsLike, hends, show isWord '>' = false by decide]
      | cons x b => cases hx : isWord x <;> simp [startsLike, hends, hx]
  | cons c name ih =>
      rw [List.all_cons, Bool.and_eq_true] at hname
      cases b with
      | nil => simp [startsLike, sameFold_bracket hname.1]
      | cons x b =>
          by_cases hx : isWord x
          · simp only [List.cons_append, startsLike, List.length_cons, List.drop_succ_cons,
              List.takeWhile_cons_of_pos hx, Bool.and_assoc, ih hname.2]
            simp
          · have hfold : sameFold c x = false := by
              by_contra hfold
              exact hx (isWord_of_sameFold hname.1 (by simpa using hfold))
            simp [startsLike, hfold, List.takeWhile_cons_of_neg hx]

/-- Where ignoring case is comparing lower cases, two words are the same if their lower cases
are. -/
theorem startsLike_length_eq {name w : Text}
    (h : ∀ c ∈ name, ∀ x ∈ w, sameFold c x = (x.toLower == c.toLower)) :
    (startsLike name w && w.length == name.length) =
      decide (w.map Char.toLower = name.map Char.toLower) := by
  induction name generalizing w with
  | nil => cases w <;> simp [startsLike]
  | cons c name ih =>
      cases w with
      | nil => simp [startsLike]
      | cons x w =>
          have hrest := ih fun d hd y hy =>
            h d (List.mem_cons_of_mem c hd) y (List.mem_cons_of_mem x hy)
          have hlength : ((x :: w).length == (c :: name).length) = (w.length == name.length) := by
            simp
          rw [startsLike, h c (by simp) x (by simp), Bool.and_assoc, hlength, hrest]
          simp [Bool.beq_eq_decide_eq]

end Text

namespace Pattern

open Cursor Markup

/-! ## Patterns inside a tag -/

/-- A pattern that takes no closing bracket and looks at no character behind the next one. -/
inductive InsideTag : Pattern → Prop
  | nothing : InsideTag nothing
  | one {accepts : Char → Bool} : accepts '>' = false → InsideTag (one accepts)
  | longest {accepts : Char → Bool} : accepts '>' = false → InsideTag (longest accepts)
  | wordEdge : InsideTag wordEdge
  | seq {p q : Pattern} : InsideTag p → InsideTag q → InsideTag (p ++ q)
  | either {p q : Pattern} : InsideTag p → InsideTag q → InsideTag (p <|> q)

namespace InsideTag

theorem letters {part : Text} (h : part.all fun c => !Text.sameFold c '>') :
    InsideTag (letters part) := by
  induction part with
  | nil => exact .nothing
  | cons c part ih =>
      simp only [List.all_cons, Bool.and_eq_true, Bool.not_eq_true'] at h
      cases part with
      | nil => exact .one h.1
      | cons d part => exact .seq (.one h.1) (ih h.2)

theorem anyOf {ps : List Pattern} (h : ∀ p ∈ ps, InsideTag p) : InsideTag (anyOf ps) := by
  induction ps with
  | nil => exact .nothing
  | cons p ps ih =>
      obtain ⟨hp, hps⟩ := List.forall_mem_cons.mp h
      cases ps with
      | nil => exact hp
      | cons q ps => exact .either hp (ih hps)

/-- If nothing can follow at any place from here on, there is no match. -/
theorem run_eq_none {p : Pattern} (h : InsideTag p) {t held : Text} {q : ℕ}
    {next : Cursor → Option Cursor} (hnext : ∀ k, q ≤ k → next (place t k held) = none) :
    p.run (place t q held) next = none := by
  induction h generalizing q next with
  | nothing => exact hnext q le_rfl
  | one => rw [run_one_place, hnext (q + 1) (by omega), ite_self]
  | longest =>
      induction hrest : t.drop q generalizing q with
      | nil => rw [run_longest_nil hrest, hnext q le_rfl]
      | cons c r ih =>
          rw [run_longest_cons hrest, hnext q le_rfl,
            ih (fun k hk => hnext k (by omega)) (Text.getElem?_of_drop hrest).2, ite_self]
          rfl
  | wordEdge => rw [run_wordEdge, hnext q le_rfl, ite_self]
  | seq _ _ ihp ihq =>
      rw [run_append]
      exact ihp fun k hk => ihq fun j hj => hnext j (hk.trans hj)
  | either _ _ ihp ihq => rw [run_orElse, ihp hnext, ihq hnext, Option.or_none]

/-- Inside a tag of a text, a pattern matches what it matches in the tag alone, if what follows it
does so and always gives the same. -/
theorem run_eq {p : Pattern} (h : InsideTag p) {t held : Text} {q : ℕ} {u : Tag}
    (hu : t.standsAt u.text q) (next next' : Cursor → Option Cursor) {out : Option Cursor}
    (hnext : ∀ k, 0 < k → k < u.text.length → next (place t (q + k) held) =
      if (next' (place u.text k held)).isSome then out else none)
    {k : ℕ} (h0 : 0 < k) (hk : k < u.text.length) :
    p.run (place t (q + k) held) next =
      if (p.run (place u.text k held) next').isSome then out else none := by
  induction h generalizing next next' k with
  | nothing => exact hnext k h0 hk
  | @one accepts hbracket =>
      rw [run_one_place, run_one_place, Text.getElem?_of_standsAt hu hk]
      by_cases haccepts : (u.text[k]?.any accepts) = true
      · have hlast := Text.succ_lt_of_any hbracket hk haccepts
        rw [if_pos haccepts, if_pos haccepts, Nat.add_assoc, hnext (k + 1) (by omega) hlast]
      · rw [if_neg haccepts, if_neg haccepts]
        rfl
  | @longest accepts hbracket =>
      induction hrest : u.text.drop k generalizing k with
      | nil =>
          have := List.drop_eq_nil_iff.mp hrest
          omega
      | cons c r ih =>
          obtain ⟨hget, hrest'⟩ := Text.getElem?_of_drop hrest
          have hget' : t[q + k]? = some c := (Text.getElem?_of_standsAt hu hk).trans hget
          have hdrop : t.drop (q + k) = c :: t.drop (q + k + 1) :=
            List.drop_eq_getElem?_toList_append.trans (by rw [hget']; rfl)
          rw [run_longest_cons hdrop, run_longest_cons hrest, hnext k h0 hk]
          by_cases haccepts : accepts c = true
          · have hlast := Text.succ_lt_of_any hbracket hk (by rwa [hget])
            rw [if_pos haccepts, if_pos haccepts, Nat.add_assoc, ih (by omega) hlast hrest',
              Option.isSome_or]
            cases ((Pattern.longest accepts).run (place u.text (k + 1) held) next').isSome <;>
              cases (next' (place u.text k held)).isSome <;> cases out <;> rfl
          · rw [if_neg haccepts, if_neg haccepts]
            rfl
  | wordEdge =>
      have hedge : (place t (q + k) held).atWordEdge = (place u.text k held).atWordEdge := by
        simp only [atWordEdge, place, List.head?_drop, Text.getElem?_of_standsAt hu hk,
          Text.getLast?_take_of_standsAt hu h0 hk]
      rw [run_wordEdge, run_wordEdge, hedge]
      cases (place u.text k held).atWordEdge with
      | false => rfl
      | true => exact hnext k h0 hk
  | seq _ _ ihp ihq =>
      rw [run_append, run_append]
      exact ihp _ _ (fun j hj0 hj => ihq _ _ hnext hj0 hj) h0 hk
  | @either p p' _ _ ihp ihq =>
      rw [run_orElse, run_orElse, ihp _ _ hnext h0 hk, ihq _ _ hnext h0 hk, Option.isSome_or]
      cases (p.run (place u.text k held) next').isSome <;>
        cases (p'.run (place u.text k held) next').isSome <;> cases out <;> rfl

end InsideTag

/-! ## Patterns of tags -/

/-- The pattern takes an opening bracket, then what `inner` takes inside the tag, and then the rest
of the tag. -/
structure OpensTag (p inner : Pattern) : Prop where
  inside : InsideTag inner
  run_eq : ∀ here next, p.run here next =
    (word "<").run here fun there => inner.run there fun there => restOfTag.run there next

namespace OpensTag

variable {p inner : Pattern} (h : OpensTag p inner) {t : Text} {q : ℕ}

include h

theorem run_of_ne (hq : t[q]? ≠ some '<') (next : Cursor → Option Cursor) :
    p.run (place t q []) next = none := by
  have hstands : t.standsAt "<".toList q = false := by
    rw [show "<".toList = ['<'] from rfl, Text.standsAt_singleton, Bool.eq_false_iff]
    intro hany
    obtain ⟨c, hc, heq⟩ := (Option.any_eq_true _ _).mp hany
    exact hq (hc.trans (congrArg some (beq_iff_eq.mp heq)))
  rw [h.run_eq, run_word_of_isMark (by decide), hstands]
  rfl

/-- An opening bracket that is not closed starts no tag. -/
theorem run_of_notMem (hq : '>' ∉ t.drop q) (next : Cursor → Option Cursor) :
    p.run (place t q []) next = none := by
  have hnone : ∀ k, q ≤ k → restOfTag.run (place t k []) next = none := by
    intro k hk
    rw [run_restOfTag_place, Text.least?_bracket_of_notMem hq hk]
    rfl
  rw [h.run_eq, run_word_of_isMark (by decide)]
  split
  · exact h.inside.run_eq_none fun k hk => hnone k (by omega)
  · rfl

theorem startsIn_eq (u : Tag) :
    p.startsIn u.text =
      (inner.run (place u.text 1 []) fun there => restOfTag.run there some).isSome := by
  rw [startsIn, matchAt?, Option.isSome_map]
  change (p.run (place u.text 0 []) some).isSome = _
  rw [h.run_eq, run_word_of_isMark (by decide),
    Text.opens_of_standsAt (Text.standsAt_self u.text)]
  rfl

/-- Which tags the pattern takes can be told from the tag alone. -/
theorem run_tag {u : Tag} (hu : t.standsAt u.text q) (next : Cursor → Option Cursor) :
    p.run (place t q []) next =
      if p.startsIn u.text then next (place t (q + u.text.length) []) else none := by
  have hrest : ∀ k, 0 < k → k < u.text.length → restOfTag.run (place t (q + k) []) next =
      if (restOfTag.run (place u.text k []) some).isSome then
        next (place t (q + u.text.length) [])
      else none := by
    intro k _ hk
    have hleast := Text.least?_bracket_of_tag (Text.standsAt_self u.text) hk
    rw [Nat.zero_add] at hleast
    rw [run_restOfTag_place, run_restOfTag_place, Text.least?_bracket_of_tag hu hk, hleast,
      Tag.length_text]
    rfl
  rw [h.run_eq, run_word_of_isMark (by decide), Text.opens_of_standsAt hu, h.startsIn_eq]
  exact h.inside.run_eq hu (fun there => restOfTag.run there next)
    (fun there => restOfTag.run there some) hrest Nat.one_pos (by simp)

end OpensTag

/-! ## Names -/

theorem isSome_run_anyOf {ps : List Pattern} (hne : ps ≠ []) (here : Cursor)
    (next : Cursor → Option Cursor) :
    ((anyOf ps).run here next).isSome = ps.any fun p => (p.run here next).isSome := by
  induction ps with
  | nil => exact absurd rfl hne
  | cons p ps ih =>
      cases ps with
      | nil => simp [anyOf]
      | cons q ps =>
          change ((p <|> anyOf (q :: ps)).run here next).isSome = _
          rw [run_orElse, Option.isSome_or, ih (by simp)]
          rfl

/-- The names of elements are plain letters and digits. -/
def IsName (name : String) : Prop :=
  name.toList ≠ [] ∧ name.toList.all Char.isAlphanum

instance (name : String) : Decidable (IsName name) :=
  inferInstanceAs (Decidable (_ ∧ _))

theorem InsideTag.word {name : String} (hname : IsName name) : InsideTag (word name) := by
  apply InsideTag.letters
  rw [List.all_eq_true]
  intro c hc
  rw [Text.sameFold_bracket (List.all_eq_true.mp hname.2 c hc)]
  rfl

theorem opensTag_tag {names : List String} (hnames : ∀ name ∈ names, IsName name) :
    OpensTag (tag names) (anyOf (names.map word) ++ wordEdge) where
  inside := by
    refine .seq (.anyOf ?_) .wordEdge
    intro p hp
    obtain ⟨name, hname, rfl⟩ := List.mem_map.mp hp
    exact .word (hnames name hname)
  run_eq _ _ := rfl

theorem run_restOfTag_of_length_le {t : Text} {k : ℕ} (h : t.length ≤ k)
    (next : Cursor → Option Cursor) : restOfTag.run (place t k []) next = none := by
  rw [run_restOfTag_place, Text.least?_bracket_of_none (List.getElem?_eq_none h)]
  rfl

/-- In a tag, a name with something behind it is the name of the tag. -/
theorem isSome_run_name {name : String} (hname : IsName name) (u : Tag)
    {next : Cursor → Option Cursor}
    (hnext : ∀ k, u.text.length ≤ k → next (place u.text k []) = none) :
    ((word name).run (place u.text 1 []) fun there => wordEdge.run there next).isSome =
      (u.isNamed name.toList && (next (place u.text (1 + name.toList.length) [])).isSome) := by
  have hbody := Text.startsLike_nameEnd hname.2 (·.any (!Text.isWord ·)) (fun _ => rfl) u.body []
  have hdrop : u.text.drop 1 = u.body ++ ['>'] := by simp [Tag.text]
  have hhead : u.text[1 + name.toList.length]? =
      ((u.body ++ ['>']).drop name.toList.length).head? := by
    rw [← hdrop, List.drop_drop, List.head?_drop]
  rw [Tag.isNamed, Tag.word, ← hbody, ← hhead, run_word_place, Text.spelledAt, hdrop]
  cases hspelled : Text.startsLike name.toList (u.body ++ ['>']) with
  | false => rfl
  | true =>
      have hbefore : (u.text.take (1 + name.toList.length)).getLast?.any Text.isWord :=
        Text.isWord_before_of_spelledAt hname.1 hname.2 (by rwa [Text.spelledAt, hdrop])
      rw [if_pos rfl, run_wordEdge_place hbefore, Bool.true_and]
      cases hget : u.text[1 + name.toList.length]? with
      | none =>
          rw [hnext _ (List.getElem?_eq_none_iff.mp hget)]
          rfl
      | some c => cases hc : Text.isWord c <;> simp [hc]

/-- A pattern of tags takes just the tags that have one of the names. -/
theorem startsIn_tag {names : List String} (hne : names ≠ [])
    (hnames : ∀ name ∈ names, IsName name) (u : Tag) :
    (tag names).startsIn u.text = names.any fun name => u.isNamed name.toList := by
  rw [(opensTag_tag hnames).startsIn_eq, run_append, isSome_run_anyOf (by simpa using hne),
    List.any_map]
  have hrest : ∀ name : String, u.isNamed name.toList →
      (restOfTag.run (place u.text (1 + name.toList.length) []) some).isSome := by
    intro name hnamed
    have hleast := Text.least?_bracket_of_tag (Text.standsAt_self u.text)
      (u.length_lt_of_isNamed hnamed)
    rw [Nat.zero_add] at hleast
    rw [run_restOfTag_place, hleast]
    rfl
  rw [Bool.eq_iff_iff, List.any_eq_true, List.any_eq_true]
  refine exists_congr fun name => and_congr_right fun hmem => ?_
  rw [Function.comp_apply, isSome_run_name (hnames name hmem) u
    fun k hk => run_restOfTag_of_length_le hk some, Bool.and_eq_true, and_iff_left_iff_imp]
  exact hrest name

end Pattern

end MarkupAudit
