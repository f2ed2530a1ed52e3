import MarkupAudit.Markup.Attribute
import MarkupAudit.Proofs.Markup.Equations
import MarkupAudit.Proofs.Pattern.First

/-! # Reading the attributes of a tag

An attribute is sought by trying one rest of the masked tag after the other: a character that ends
what is before it, the name, and then a sign that the name has ended or that a value follows. -/

namespace MarkupAudit.Markup

open Pattern Cursor

/-- Whether the name of an attribute ends before the rest of a tag. -/
def endsName (r : Text) : Bool :=
  (r.dropWhile Text.isBlank).head?.any (· == '=') || (r.head?.any Text.isBlank ||
    ("/>".toList.isPrefixOf r || ">".toList.isPrefixOf r || (r.isEmpty || r == ['\n'])))

/-- A name ends before white space, an equals sign and the end of a tag. -/
theorem endsName_cons (c : Char) (r : Text) :
    endsName (c :: r) =
      (Text.isBlank c || c == '=' || c == '>' || c == '/' && r.head? == some '>') := by
  have hslash : "/>".toList.isPrefixOf (c :: r) = (c == '/' && r.head? == some '>') := by
    cases r <;> simp [List.isPrefixOf, Bool.beq_comm]
  have hbracket : ">".toList.isPrefixOf (c :: r) = (c == '>') := by
    simp [List.isPrefixOf, Bool.beq_comm]
  cases hblank : Text.isBlank c with
  | true => simp [endsName, hblank]
  | false =>
      have hnewline : ((c :: r) == ['\n']) = false := by
        rw [beq_eq_false_iff_ne]
        rintro heq
        obtain ⟨rfl, -⟩ := List.cons.inj heq
        revert hblank
        decide
      rw [endsName, List.dropWhile_cons_of_neg (by simp [hblank]), hslash, hbracket, hnewline,
        List.head?_cons, Option.any_some, Option.any_some, hblank]
      cases c == '=' <;> cases c == '>' <;> cases c == '/' && r.head? == some '>' <;> rfl

/-- The number of characters from the end of what is before an attribute of the name to the end of
that name, at the start of a text. -/
def attributeRead? (name : Text) : Text → Option ℕ
  | [] => none
  | c :: r =>
    if endsAttribute c && Text.startsLike name r && endsName (r.drop name.length) then
      some (name.length + 1)
    else none

/-- The number of characters from the end of what is before an attribute of the name to its value,
at the start of a text. -/
def valueRead? (name : Text) : Text → Option ℕ
  | [] => none
  | c :: r =>
    let blanks := ((r.drop name.length).takeWhile Text.isBlank).length
    if endsAttribute c && Text.startsLike name r &&
        (r.drop (name.length + blanks)).head?.any (· == '=') then
      some (name.length + blanks + 2 +
        ((r.drop (name.length + blanks + 1)).takeWhile Text.isBlank).length)
    else none

/-- A name that an equals sign follows has its value right behind the sign, if no white space stands
there. -/
theorem valueRead?_equals {name m y : Text} {c : Char} (hc : endsAttribute c)
    (hstarts : Text.startsLike name (m ++ '=' :: y)) (hlength : m.length = name.length)
    (hy : y.head?.any Text.isBlank = false) :
    valueRead? name (c :: (m ++ '=' :: y)) = some (name.length + 2) := by
  have hblanks : ∀ {t : Text}, t.head?.any Text.isBlank = false →
      (t.takeWhile Text.isBlank).length = 0 := by
    intro t ht
    cases t with
    | nil => rfl
    | cons x t => simp_all
  have hname : (m ++ '=' :: y).drop name.length = '=' :: y := by
    rw [← hlength, List.drop_left]
  have hvalue : (m ++ '=' :: y).drop (name.length + 1) = y := by
    rw [← List.drop_drop, hname]
    rfl
  have hsign : (('=' :: y).takeWhile Text.isBlank).length = 0 := hblanks rfl
  simp only [valueRead?, hname, hsign, Nat.add_zero, hvalue, hblanks hy, hc, hstarts]
  rfl

theorem isBlank_ne_equals {c : Char} (h : Text.isBlank c) : (c == '=') = false := by
  rw [beq_eq_false_iff_ne]
  rintro rfl
  revert h
  decide

/-- White space and then an equals sign. -/
theorem run_blanks_equals_place (t : Text) (q : ℕ) (held : Text)
    (next : Cursor → Option Cursor) :
    (blanks ++ word "=").run (place t q held) next =
      let sign := q + ((t.drop q).takeWhile Text.isBlank).length
      if t[sign]?.any (· == '=') then next (place t (sign + 1) held) else none := by
  have hsign : ∀ k, (word "=").run (place t k held) next =
      if t[k]?.any (· == '=') then next (place t (k + 1) held) else none := by
    intro k
    rw [run_word_of_isMark (by decide)]
    exact congrArg (fun b : Bool => if b then next (place t (k + 1) held) else none)
      (Text.standsAt_singleton t '=' k)
  have hstop : ∀ k, t[k]?.any Text.isBlank → (word "=").run (place t k held) next = none := by
    intro k hk
    obtain ⟨c, hc, hblank⟩ := (Option.any_eq_true _ _).mp hk
    rw [hsign, hc]
    exact if_neg (by simp [isBlank_ne_equals hblank])
  rw [run_append, blanks, run_longest_of_stop _ t q held _ hstop, hsign]

theorem isSome_run_nameEnd_place (t : Text) (q : ℕ) (held : Text) :
    ((blanks ++ word "=" <|> blank <|> optional (word "/") ++ word ">" <|> lastLineEnd).run
      (place t q held) some).isSome = endsName (t.drop q) := by
  have hbracket : ∀ k, (word ">").run (place t k held) some =
      if t.standsAt ">".toList k then some (place t (k + 1) held) else none :=
    fun k => run_word_of_isMark (by decide) t k held some
  have hslash : ((optional (word "/") ++ word ">").run (place t q held) some).isSome =
      (t.standsAt "/>".toList q || t.standsAt ">".toList q) := by
    rw [run_append, Pattern.optional, run_orElse, run_word_of_isMark (by decide),
      show "/>".toList = "/".toList ++ ">".toList from rfl, Text.standsAt_append]
    change ((if t.standsAt "/".toList q then (word ">").run (place t (q + 1) held) some
      else none).or ((word ">").run (place t q held) some)).isSome = _
    rw [hbracket, hbracket, Option.isSome_or]
    change _ = (t.standsAt "/".toList q && t.standsAt ">".toList (q + 1) ||
      t.standsAt ">".toList q)
    cases t.standsAt "/".toList q <;> cases t.standsAt ">".toList (q + 1) <;>
      cases t.standsAt ">".toList q <;> rfl
  have hblank : (blank.run (place t q held) some).isSome = (t.drop q).head?.any Text.isBlank := by
    rw [blank, run_one_place, List.head?_drop]
    cases t[q]?.any Text.isBlank <;> rfl
  rw [run_orElse, run_orElse, run_orElse, Option.isSome_or, Option.isSome_or, Option.isSome_or,
    run_blanks_equals_place, hblank, hslash, run_lastLineEnd_place, endsName]
  simp only [Text.getElem?_eq_head?_dropWhile, Text.standsAt]
  cases ((t.drop q).dropWhile Text.isBlank).head?.any (· == '=') <;>
    cases (t.drop q).isEmpty || t.drop q == ['\n'] <;> rfl

theorem reads_attributePattern (name : Text) :
    ReadsRest (attributePattern name) (attributeRead? name) := by
  intro t q held
  rw [attributePattern, run_append, run_append, run_one_place, run_letters_place, run_ahead,
    isSome_run_nameEnd_place]
  cases h : t.drop q with
  | nil => simp [attributeRead?, Text.getElem?_of_drop_nil h]
  | cons c r =>
      obtain ⟨hget, hrest⟩ := Text.getElem?_of_drop h
      have hdrop : t.drop (q + 1 + name.length) = r.drop name.length := by
        rw [← List.drop_drop, hrest]
      have hstop : q + (name.length + 1) = q + 1 + name.length := by omega
      rw [hget, hdrop, Text.spelledAt, hrest, attributeRead?, Option.any_some]
      cases endsAttribute c <;> cases Text.startsLike name r <;>
        cases endsName (r.drop name.length) <;> simp [hstop]

theorem reads_valuePattern (name : Text) : ReadsRest (valuePattern name) (valueRead? name) := by
  intro t q held
  have happend : ∀ here next, (valuePattern name).run here next =
      (one endsAttribute).run here fun there => (letters name).run there fun there =>
        (blanks ++ word "=").run there fun there => blanks.run there next :=
    fun _ _ => rfl
  rw [happend, run_one_place, run_letters_place, run_blanks_equals_place]
  simp only [blanks, run_longest_last]
  cases h : t.drop q with
  | nil => simp [valueRead?, Text.getElem?_of_drop_nil h]
  | cons c r =>
      obtain ⟨hget, hrest⟩ := Text.getElem?_of_drop h
      have hdrop : ∀ k, t.drop (q + 1 + k) = r.drop k := by
        intro k
        rw [← List.drop_drop, hrest]
      have hhead : ∀ k, t[q + 1 + k]? = (r.drop k).head? := by
        intro k
        rw [← hdrop, List.head?_drop]
      rw [hget, hdrop, Text.spelledAt, hrest, valueRead?, Option.any_some]
      generalize ((r.drop name.length).takeWhile Text.isBlank).length = width
      have hstop : ∀ k, q + (name.length + width + 2 + k) = q + 1 + (name.length + width + 1) + k :=
        by omega
      rw [Nat.add_assoc (q + 1), hhead, Nat.add_assoc (q + 1), hdrop]
      cases endsAttribute c <;> cases Text.startsLike name r <;>
        cases (r.drop (name.length + width)).head?.any (· == '=') <;> simp [hstop]

/-- A tag has an attribute if one can be read somewhere in the masked tag. -/
theorem hasAttribute_eq (tag name : Text) :
    hasAttribute tag name =
      (Text.firstStop (attributeRead? name) 0 (maskQuoted (openingTag tag))).isSome :=
  (reads_attributePattern name).occursIn _

/-- The value of an attribute is read in the tag where its place is found in the masked tag. -/
theorem valueAt?_eq (tag name : Text) :
    valueAt? tag name =
      (Text.firstStop (valueRead? name) 0 (maskQuoted (openingTag tag))).bind fun stop =>
        (readValue? ((openingTag tag).drop stop)).map fun value => (stop, value) := by
  rw [← (reads_valuePattern name).first?, valueAt?]
  cases (valuePattern name).first? (maskQuoted (openingTag tag)) <;> rfl

end MarkupAudit.Markup
