import MarkupAudit.Proofs.Pattern.Equations

/-! # The first match of a pattern that looks ahead only

A pattern that does not look back matches a text from a place on or it does not, and its first match
is found by trying one rest of the text after the other. -/

namespace MarkupAudit

namespace Text

/-- Where the first thing stops that can be read in a text which starts at `offset`. What can be
read at a place is given by its number of characters. -/
def firstStop (read? : Text → Option ℕ) (offset : ℕ) : Text → Option ℕ
  | [] => (read? []).map (offset + ·)
  | c :: r => ((read? (c :: r)).map (offset + ·)).or (firstStop read? (offset + 1) r)

section FirstStop

variable {read? : Text → Option ℕ} {offset : ℕ}

theorem firstStop_cons_of_some {c : Char} {r : Text} {k : ℕ} (h : read? (c :: r) = some k) :
    firstStop read? offset (c :: r) = some (offset + k) := by
  simp [firstStop, h]

theorem firstStop_cons_of_none {c : Char} {r : Text} (h : read? (c :: r) = none) :
    firstStop read? offset (c :: r) = firstStop read? (offset + 1) r := by
  simp [firstStop, h]

/-- A part in which nothing starts is passed over. -/
theorem firstStop_append {part r : Text}
    (h : ∀ w c s, part = w ++ c :: s → read? (c :: (s ++ r)) = none) :
    firstStop read? offset (part ++ r) = firstStop read? (offset + part.length) r := by
  induction part generalizing offset with
  | nil => rfl
  | cons c part ih =>
      have hhere : read? (c :: (part ++ r)) = none := h [] c part rfl
      have hrest : ∀ w d s, part = w ++ d :: s → read? (d :: (s ++ r)) = none := by
        intro w d s hpart
        exact h (c :: w) d s (by rw [hpart]; rfl)
      rw [List.cons_append, firstStop_cons_of_none hhere, ih hrest, List.length_cons,
        Nat.add_right_comm, Nat.add_assoc]

/-- Characters at which nothing can be read are passed over. -/
theorem firstStop_append_of_forall {part : Text} (h : ∀ c ∈ part, ∀ s, read? (c :: s) = none)
    (r : Text) :
    firstStop read? offset (part ++ r) = firstStop read? (offset + part.length) r := by
  apply firstStop_append
  rintro w c s rfl
  exact h c (by simp) _

/-- What can be read somewhere is found. -/
theorem isSome_firstStop_append {c : Char} {r : Text} (h : (read? (c :: r)).isSome) (b : Text)
    (offset : ℕ) : (firstStop read? offset (b ++ c :: r)).isSome := by
  induction b generalizing offset with
  | nil => simp [firstStop, h]
  | cons d b ih => simp [firstStop, ih]

/-- Where a text starts shifts what is found in it. -/
theorem firstStop_add (read? : Text → Option ℕ) (k offset : ℕ) (t : Text) :
    firstStop read? (k + offset) t = (firstStop read? offset t).map (k + ·) := by
  induction t generalizing offset with
  | nil => cases h : read? [] <;> simp [firstStop, h, Nat.add_assoc]
  | cons c r ih =>
      rw [firstStop, Nat.add_assoc, ih]
      cases h : read? (c :: r) <;> simp [firstStop, h, Nat.add_assoc]

end FirstStop

end Text

namespace Pattern

open Cursor

/-! ## Patterns that take no character -/

theorem run_ahead (p : Pattern) (here : Cursor) (next : Cursor → Option Cursor) :
    (ahead p).run here next = if (p.run here some).isSome then next here else none := rfl

theorem run_lastLineEnd_place (t : Text) (q : ℕ) (held : Text) (next : Cursor → Option Cursor) :
    lastLineEnd.run (place t q held) next =
      if (t.drop q).isEmpty || t.drop q == ['\n'] then next (place t q held) else none := rfl

/-- A longest run that nothing follows takes all accepted characters. -/
theorem run_longest_last (accepts : Char → Bool) (t : Text) (q : ℕ) (held : Text) :
    (longest accepts).run (place t q held) some =
      some (place t (q + ((t.drop q).takeWhile accepts).length) held) := by
  induction h : t.drop q generalizing q with
  | nil => simpa using run_longest_nil h accepts held some
  | cons c r ih =>
      obtain ⟨-, hrest⟩ := Text.getElem?_of_drop h
      rw [run_longest_cons h, List.takeWhile_cons]
      by_cases hc : accepts c
      · rw [if_pos hc, if_pos hc, ih (q + 1) hrest, List.length_cons, Option.some_or,
          Nat.add_right_comm, Nat.add_assoc]
      · simp [hc]

/-! ## First matches -/

/-- The pattern matches at a place just what can be read in the rest of the text. -/
def ReadsRest (p : Pattern) (read? : Text → Option ℕ) : Prop :=
  ∀ (t : Text) (q : ℕ) (held : Text),
    p.run (place t q held) some = (read? (t.drop q)).map fun k => place t (q + k) held

variable {p : Pattern} {read? : Text → Option ℕ}

theorem ReadsRest.matchAt? (h : ReadsRest p read?) (t : Text) (q : ℕ) :
    (p.matchAt? (place t q [])).map (·.stop) = (read? (t.drop q)).map (q + ·) := by
  rw [Pattern.matchAt?, h, Option.map_map, Option.map_map]
  rfl

theorem ReadsRest.firstFrom (h : ReadsRest p read?) (t : Text) (q : ℕ) :
    (p.firstFrom (t.take q).getLast? q (t.drop q)).map (·.stop) =
      Text.firstStop read? q (t.drop q) := by
  induction hrest : t.drop q generalizing q with
  | nil =>
      have hplace : (⟨(t.take q).getLast?, q, [], []⟩ : Cursor) = place t q [] := by
        rw [place, hrest]
      rw [Pattern.firstFrom, hplace, h.matchAt?, Text.firstStop, hrest]
  | cons c r ih =>
      obtain ⟨hget, hdrop⟩ := Text.getElem?_of_drop hrest
      have hplace : (⟨(t.take q).getLast?, q, c :: r, []⟩ : Cursor) = place t q [] := by
        rw [place, hrest]
      rw [Pattern.firstFrom, hplace, Option.orElse_eq_or, Option.map_or, h.matchAt?,
        ← Text.getLast?_take_succ hget, ih (q + 1) hdrop, Text.firstStop, hrest]

theorem ReadsRest.first? (h : ReadsRest p read?) (t : Text) :
    (p.first? t).map (·.stop) = Text.firstStop read? 0 t :=
  h.firstFrom t 0

theorem ReadsRest.occursIn (h : ReadsRest p read?) (t : Text) :
    p.occursIn t = (Text.firstStop read? 0 t).isSome := by
  rw [Pattern.occursIn, ← h.first?, Option.isSome_map]

end Pattern

end MarkupAudit
