import MarkupAudit.Pattern.Search
import Mathlib.Order.Nat

/-! # Computation rules for patterns

What a pattern does at a place of a text, in terms of the offsets of the text. A run of characters
goes on at the first place after it that lets the rest of the pattern match. -/

namespace MarkupAudit

namespace Text

/-- Whether a text starts with the characters of `part`, ignoring case. -/
def startsLike : (part : Text) → Text → Bool
  | [], _ => true
  | _ :: _, [] => false
  | c :: part, x :: r => sameFold c x && startsLike part r

/-- Whether the characters of `part` stand at an offset. -/
def standsAt (t part : Text) (q : ℕ) : Bool :=
  part.isPrefixOf (t.drop q)

/-- Whether the characters of `part` stand at an offset, ignoring case. -/
def spelledAt (t part : Text) (q : ℕ) : Bool :=
  startsLike part (t.drop q)

theorem getElem?_of_drop {t : Text} {q : ℕ} {c : Char} {r : Text} (h : t.drop q = c :: r) :
    t[q]? = some c ∧ t.drop (q + 1) = r := by
  constructor
  · rw [← List.head?_drop, h]
    rfl
  · rw [← List.drop_drop, h]
    rfl

theorem getLast?_take_succ {t : Text} {q : ℕ} {c : Char} (h : t[q]? = some c) :
    (t.take (q + 1)).getLast? = some c := by
  simp [List.take_add_one, h]

theorem getElem?_of_drop_nil {t : Text} {q : ℕ} (h : t.drop q = []) : t[q]? = none := by
  rw [← List.head?_drop, h]
  rfl

@[simp] theorem standsAt_nil (t : Text) (q : ℕ) : t.standsAt [] q = true := by
  simp [standsAt]

theorem standsAt_cons (t : Text) (c : Char) (part : Text) (q : ℕ) :
    t.standsAt (c :: part) q = (t[q]?.any (· == c) && t.standsAt part (q + 1)) := by
  unfold standsAt
  cases h : t.drop q with
  | nil => simp [getElem?_of_drop_nil h]
  | cons x r =>
      obtain ⟨hget, hrest⟩ := getElem?_of_drop h
      simp [hget, hrest, List.isPrefixOf, Bool.beq_comm]

theorem standsAt_append (t part more : Text) (q : ℕ) :
    t.standsAt (part ++ more) q = (t.standsAt part q && t.standsAt more (q + part.length)) := by
  induction part generalizing q with
  | nil => simp
  | cons c part ih =>
      rw [List.cons_append, standsAt_cons, standsAt_cons, ih, Bool.and_assoc, List.length_cons,
        Nat.add_right_comm, Nat.add_assoc]

theorem add_length_le_of_standsAt {t part : Text} {q : ℕ} (hne : part ≠ [])
    (h : t.standsAt part q) : q + part.length ≤ t.length := by
  have hlen := (List.isPrefixOf_iff_prefix.mp h).length_le
  have hpos := List.length_pos_iff.mpr hne
  rw [List.length_drop] at hlen
  omega

theorem getElem?_of_standsAt {t part : Text} {q k : ℕ} (h : t.standsAt part q)
    (hk : k < part.length) : t[q + k]? = part[k]? := by
  obtain ⟨r, hr⟩ := List.isPrefixOf_iff_prefix.mp h
  rw [← List.getElem?_drop, ← hr, List.getElem?_append_left hk]

@[simp] theorem spelledAt_nil (t : Text) (q : ℕ) : t.spelledAt [] q = true := by
  simp [spelledAt, startsLike]

theorem spelledAt_cons (t : Text) (c : Char) (part : Text) (q : ℕ) :
    t.spelledAt (c :: part) q = (t[q]?.any (sameFold c) && t.spelledAt part (q + 1)) := by
  unfold spelledAt
  cases h : t.drop q with
  | nil => simp [getElem?_of_drop_nil h, startsLike]
  | cons x r =>
      obtain ⟨hget, hrest⟩ := getElem?_of_drop h
      simp [hget, hrest, startsLike]

/-- The least offset of a text, from `lo` on and with its end, at which something holds. -/
def least? (t : Text) (lo : ℕ) (holds : ℕ → Bool) : Option ℕ :=
  (List.range' lo (t.length + 1 - lo)).find? holds

theorem least?_eq_some_iff {t : Text} {lo q : ℕ} {holds : ℕ → Bool} :
    t.least? lo holds = some q ↔
      holds q ∧ lo ≤ q ∧ q ≤ t.length ∧ ∀ r, lo ≤ r → r < q → holds r = false := by
  unfold least?
  rw [List.find?_range'_eq_some]
  simp only [List.mem_range'_1, Bool.not_eq_true']
  constructor
  · rintro ⟨hq, ⟨hlo, hhi⟩, hbefore⟩
    exact ⟨hq, hlo, by omega, fun r h1 h2 => hbefore r h1 h2⟩
  · rintro ⟨hq, hlo, hhi, hbefore⟩
    exact ⟨hq, ⟨hlo, by omega⟩, fun r h1 h2 => hbefore r h1 h2⟩

theorem least?_eq_none_iff {t : Text} {lo : ℕ} {holds : ℕ → Bool} :
    t.least? lo holds = none ↔ ∀ q, lo ≤ q → q ≤ t.length → holds q = false := by
  unfold least?
  rw [List.find?_range'_eq_none]
  simp only [Bool.not_eq_true']
  constructor
  · intro h q h1 h2
    exact h q h1 (by omega)
  · intro h q h1 h2
    exact h q h1 (by omega)

theorem least?_step {t : Text} {lo : ℕ} (hlo : lo ≤ t.length) (holds : ℕ → Bool) :
    t.least? lo holds = if holds lo then some lo else t.least? (lo + 1) holds := by
  unfold least?
  rw [show t.length + 1 - lo = t.length + 1 - (lo + 1) + 1 by omega, List.range'_succ,
    List.find?_cons]
  cases holds lo <;> rfl

/-- The least offset at which something is found gives what is found there. -/
theorem least?_bind_eq_some {α : Type*} {t : Text} {lo k : ℕ} {found? : ℕ → Option α} {a : α}
    (hlo : lo ≤ k) (hk : k ≤ t.length) (hfound : found? k = some a)
    (hbefore : ∀ r, lo ≤ r → r < k → found? r = none) :
    (t.least? lo fun r => (found? r).isSome).bind found? = some a := by
  have hleast : t.least? lo (fun r => (found? r).isSome) = some k := by
    rw [least?_eq_some_iff]
    refine ⟨by simp [hfound], hlo, hk, ?_⟩
    intro r h1 h2
    simp [hbefore r h1 h2]
  rw [hleast, Option.bind_some, hfound]

end Text

namespace Cursor

/-- The place with `q` characters of the text before it. -/
def place (t : Text) (q : ℕ) (held : Text) : Cursor where
  before := (t.take q).getLast?
  offset := q
  rest := t.drop q
  held := held

theorem past_place {t : Text} {q : ℕ} {c : Char} {r : Text} (h : t.drop q = c :: r)
    (held : Text) : (place t q held).past c r = place t (q + 1) held := by
  obtain ⟨hget, hrest⟩ := Text.getElem?_of_drop h
  simp [past, place, hrest, List.take_add_one, hget]

end Cursor

namespace Pattern

open Cursor

/-! ## Single steps -/

@[simp] theorem run_nothing (here : Cursor) (next : Cursor → Option Cursor) :
    nothing.run here next = next here := rfl

theorem run_one (accepts : Char → Bool) (here : Cursor) (next : Cursor → Option Cursor) :
    (one accepts).run here next =
      match here.rest with
      | [] => none
      | c :: r => if accepts c then next (here.past c r) else none := rfl

theorem run_wordEdge (here : Cursor) (next : Cursor → Option Cursor) :
    wordEdge.run here next = if here.atWordEdge then next here else none := rfl

theorem run_textEnd (here : Cursor) (next : Cursor → Option Cursor) :
    textEnd.run here next = if here.rest.isEmpty then next here else none := rfl

@[simp] theorem run_append (p q : Pattern) (here : Cursor) (next : Cursor → Option Cursor) :
    (p ++ q).run here next = p.run here fun there => q.run there next := rfl

@[simp] theorem run_orElse (p q : Pattern) (here : Cursor) (next : Cursor → Option Cursor) :
    (p <|> q).run here next = (p.run here next).or (q.run here next) := by
  change ((p.run here next).orElse fun _ => q.run here next) = _
  simp

@[simp] theorem run_one_place (accepts : Char → Bool) (t : Text) (q : ℕ) (held : Text)
    (next : Cursor → Option Cursor) :
    (one accepts).run (place t q held) next =
      if t[q]?.any accepts then next (place t (q + 1) held) else none := by
  cases h : t.drop q with
  | nil => simp [run_one, place, h, Text.getElem?_of_drop_nil h]
  | cons c r =>
      have hrun : (one accepts).run (place t q held) next =
          if accepts c then next ((place t q held).past c r) else none := by
        simp only [run_one, place, h]
      rw [hrun, past_place h, (Text.getElem?_of_drop h).1]
      rfl

@[simp] theorem run_textEnd_place (t : Text) (q : ℕ) (held : Text)
    (next : Cursor → Option Cursor) :
    textEnd.run (place t q held) next =
      if t.length ≤ q then next (place t q held) else none := by
  simp [run_textEnd, place]

theorem run_exactly_cons (c : Char) (part : Text) (here : Cursor)
    (next : Cursor → Option Cursor) :
    (exactly (c :: part)).run here next =
      (one (· == c)).run here fun there => (exactly part).run there next := by
  cases part with
  | nil => rfl
  | cons d part => rfl

theorem run_letters_cons (c : Char) (part : Text) (here : Cursor)
    (next : Cursor → Option Cursor) :
    (letters (c :: part)).run here next =
      (one (Text.sameFold c)).run here fun there => (letters part).run there next := by
  cases part with
  | nil => rfl
  | cons d part => rfl

theorem run_exactly_place (part t : Text) (q : ℕ) (held : Text) (next : Cursor → Option Cursor) :
    (exactly part).run (place t q held) next =
      if t.standsAt part q then next (place t (q + part.length) held) else none := by
  induction part generalizing q with
  | nil => simp [exactly]
  | cons c part ih =>
      rw [run_exactly_cons, run_one_place, ih, Text.standsAt_cons, List.length_cons,
        Nat.add_right_comm q 1]
      cases t[q]?.any (· == c) <;> simp [Nat.add_assoc]

theorem run_letters_place (part t : Text) (q : ℕ) (held : Text) (next : Cursor → Option Cursor) :
    (letters part).run (place t q held) next =
      if t.spelledAt part q then next (place t (q + part.length) held) else none := by
  induction part generalizing q with
  | nil => simp [letters]
  | cons c part ih =>
      rw [run_letters_cons, run_one_place, ih, Text.spelledAt_cons, List.length_cons,
        Nat.add_right_comm q 1]
      cases t[q]?.any (Text.sameFold c) <;> simp [Nat.add_assoc]

theorem run_word_place (s : String) (t : Text) (q : ℕ) (held : Text)
    (next : Cursor → Option Cursor) :
    (word s).run (place t q held) next =
      if t.spelledAt s.toList q then next (place t (q + s.toList.length) held) else none :=
  run_letters_place s.toList t q held next

/-! ## Runs of characters -/

theorem run_longest (accepts : Char → Bool) (here : Cursor) (next : Cursor → Option Cursor) :
    (longest accepts).run here next =
      afterLongest accepts next here.held here.before here.offset here.rest := rfl

theorem run_shortest (accepts : Char → Bool) (here : Cursor) (next : Cursor → Option Cursor) :
    (shortest accepts).run here next =
      afterShortest accepts next here.held here.before here.offset here.rest := rfl

theorem run_upTo (stop : Pattern) (here : Cursor) (next : Cursor → Option Cursor) :
    (upTo stop).run here next =
      afterUpTo (fun there => (stop.run there some).isSome) next here.held here.before here.offset
        here.rest := rfl

theorem run_shortest_nil {t : Text} {q : ℕ} (h : t.drop q = []) (accepts : Char → Bool)
    (held : Text) (next : Cursor → Option Cursor) :
    (shortest accepts).run (place t q held) next = next (place t q held) := by
  simp [run_shortest, place, h, afterShortest]

theorem run_shortest_cons {t : Text} {q : ℕ} {c : Char} {r : Text} (h : t.drop q = c :: r)
    (accepts : Char → Bool) (held : Text) (next : Cursor → Option Cursor) :
    (shortest accepts).run (place t q held) next =
      (next (place t q held)).or
        (if accepts c then (shortest accepts).run (place t (q + 1) held) next else none) := by
  rw [← past_place h held]
  simp [run_shortest, place, past, h, afterShortest]

theorem run_longest_nil {t : Text} {q : ℕ} (h : t.drop q = []) (accepts : Char → Bool)
    (held : Text) (next : Cursor → Option Cursor) :
    (longest accepts).run (place t q held) next = next (place t q held) := by
  simp [run_longest, place, h, afterLongest]

theorem run_longest_cons {t : Text} {q : ℕ} {c : Char} {r : Text} (h : t.drop q = c :: r)
    (accepts : Char → Bool) (held : Text) (next : Cursor → Option Cursor) :
    (longest accepts).run (place t q held) next =
      (if accepts c then (longest accepts).run (place t (q + 1) held) next else none).or
        (next (place t q held)) := by
  rw [← past_place h held]
  by_cases hc : accepts c <;> simp [run_longest, place, past, h, afterLongest, hc]

/-- A shortest run of any characters goes on at the least place from here to the end of the text
that lets the rest match. -/
theorem run_shortest_any (t : Text) {q : ℕ} (hq : q ≤ t.length) (held : Text)
    (next : Cursor → Option Cursor) :
    (shortest fun _ => true).run (place t q held) next =
      (t.least? q fun k => (next (place t k held)).isSome).bind fun k => next (place t k held) := by
  induction h : t.drop q generalizing q with
  | nil =>
      have hlen : t.length ≤ q := List.drop_eq_nil_iff.mp h
      rw [run_shortest_nil h, Text.least?, show t.length + 1 - q = 1 by omega]
      cases hnext : next (place t q held) <;> simp [hnext]
  | cons c r ih =>
      obtain ⟨hget, hrest⟩ := Text.getElem?_of_drop h
      have hlt : q < t.length := (List.getElem?_eq_some_iff.mp hget).1
      rw [run_shortest_cons h, if_pos rfl, ih hlt hrest, Text.least?_step hq]
      cases hnext : next (place t q held) <;> simp [hnext]

/-- A longest run goes on at the place after all accepted characters if what follows the run
cannot match before an accepted character. -/
theorem run_longest_of_stop (accepts : Char → Bool) (t : Text) (q : ℕ) (held : Text)
    (next : Cursor → Option Cursor)
    (hnext : ∀ k, t[k]?.any accepts → next (place t k held) = none) :
    (longest accepts).run (place t q held) next =
      next (place t (q + ((t.drop q).takeWhile accepts).length) held) := by
  induction h : t.drop q generalizing q with
  | nil => simpa using run_longest_nil h accepts held next
  | cons c r ih =>
      obtain ⟨hget, hrest⟩ := Text.getElem?_of_drop h
      rw [run_longest_cons h, List.takeWhile_cons]
      by_cases hc : accepts c
      · rw [if_pos hc, if_pos hc, hnext q (by simp [hget, hc]), Option.or_none, ih (q + 1) hrest,
          List.length_cons, Nat.add_right_comm, Nat.add_assoc]
      · simp [hc]

end Pattern

end MarkupAudit
