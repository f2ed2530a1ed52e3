import MarkupAudit.Proofs.Pattern.Equations

/-! # The texts that a pattern takes

A pattern that looks at nothing but the characters it takes has a language. The order of preference
plays no part in it: there is a match at a place just if the text goes on with something of the
language that lets the rest match. -/

namespace MarkupAudit.Pattern

open Cursor

/-- Whether the pattern looks at nothing but the characters that it takes. -/
def isLocal : Pattern → Bool
  | .nothing | .one _ | .longest _ | .shortest _ => true
  | .seq p q | .either p q => p.isLocal && q.isLocal
  | _ => false

/-- The texts that a local pattern takes. -/
def Takes : Pattern → Text → Prop
  | .nothing, part => part = []
  | .one accepts, part => ∃ c, accepts c ∧ part = [c]
  | .seq p q, part => ∃ a b, part = a ++ b ∧ p.Takes a ∧ q.Takes b
  | .either p q, part => p.Takes part ∨ q.Takes part
  | .longest accepts, part | .shortest accepts, part => ∀ c ∈ part, accepts c
  | _, _ => False

section Equations

variable {p q : Pattern} {accepts : Char → Bool} {part : Text}

@[simp] theorem takes_nothing : nothing.Takes part ↔ part = [] := Iff.rfl

@[simp] theorem takes_one : (one accepts).Takes part ↔ ∃ c, accepts c ∧ part = [c] := Iff.rfl

@[simp] theorem takes_append :
    (p ++ q).Takes part ↔ ∃ a b, part = a ++ b ∧ p.Takes a ∧ q.Takes b := Iff.rfl

@[simp] theorem takes_orElse : (p <|> q).Takes part ↔ p.Takes part ∨ q.Takes part := Iff.rfl

@[simp] theorem takes_longest : (longest accepts).Takes part ↔ ∀ c ∈ part, accepts c := Iff.rfl

@[simp] theorem takes_exactly {t : Text} : (exactly t).Takes part ↔ part = t := by
  induction t generalizing part with
  | nil => rfl
  | cons c t ih =>
      cases t with
      | nil => simp [exactly]
      | cons d t => simp [exactly, ih]

@[simp] theorem isLocal_append : (p ++ q).isLocal = (p.isLocal && q.isLocal) := rfl

@[simp] theorem isLocal_exactly (t : Text) : (exactly t).isLocal := by
  induction t with
  | nil => rfl
  | cons c t ih =>
      cases t with
      | nil => rfl
      | cons d t => exact ih

end Equations

/-! ## Matches -/

/-- There is a match that lets the rest match. -/
def Reaches (p : Pattern) (t : Text) (q : ℕ) (held : Text) (next : Cursor → Option Cursor) : Prop :=
  ∃ part r, t.drop q = part ++ r ∧ p.Takes part ∧ (next (place t (q + part.length) held)).isSome

/-- A run of accepted characters goes on here, or behind an accepted character. -/
theorem isSome_run_iff_of_steps {p : Pattern} {accepts : Char → Bool} {t held : Text}
    {next : Cursor → Option Cursor} (hp : ∀ part, p.Takes part ↔ ∀ c ∈ part, accepts c)
    (hend : ∀ q, t.drop q = [] → p.run (place t q held) next = next (place t q held))
    (hstep : ∀ q c r, t.drop q = c :: r → ((p.run (place t q held) next).isSome ↔
      (next (place t q held)).isSome ∨
        accepts c ∧ (p.run (place t (q + 1) held) next).isSome)) (q : ℕ) :
    (p.run (place t q held) next).isSome ↔ p.Reaches t q held next := by
  simp only [Reaches, hp]
  -- what is taken from here on is nothing, or this character and what is taken behind it
  induction hrest : t.drop q generalizing q with
  | nil => simp [hend q hrest]
  | cons c r ih =>
      obtain ⟨-, hdrop⟩ := Text.getElem?_of_drop hrest
      rw [hstep q c r hrest, ih (q + 1) hdrop]
      constructor
      · rintro (hhere | ⟨hc, part, rest, rfl, hpart, hnext⟩)
        · exact ⟨[], c :: r, rfl, by simp, hhere⟩
        · refine ⟨c :: part, rest, rfl, List.forall_mem_cons.mpr ⟨hc, hpart⟩, ?_⟩
          rwa [List.length_cons, Nat.add_comm part.length, ← Nat.add_assoc]
      · rintro ⟨part, rest, happend, hpart, hnext⟩
        cases part with
        | nil => exact .inl hnext
        | cons d part =>
            obtain ⟨rfl, rfl⟩ := List.cons.inj happend
            obtain ⟨hc, hpart⟩ := List.forall_mem_cons.mp hpart
            refine .inr ⟨hc, part, rest, rfl, hpart, ?_⟩
            rwa [List.length_cons, Nat.add_comm part.length, ← Nat.add_assoc] at hnext

/-- A local pattern matches just if the text goes on with something that it takes. -/
theorem isSome_run_iff {p : Pattern} (hp : p.isLocal) {t held : Text} {q : ℕ}
    {next : Cursor → Option Cursor} :
    (p.run (place t q held) next).isSome ↔ p.Reaches t q held next := by
  induction p generalizing q next with
  | nothing =>
      constructor
      · exact fun hnext => ⟨[], t.drop q, rfl, rfl, hnext⟩
      · rintro ⟨part, r, -, rfl, hnext⟩
        exact hnext
  | one accepts =>
      rw [run_one_place]
      constructor
      · intro hsome
        obtain ⟨there, hthere⟩ := Option.isSome_iff_exists.mp hsome
        obtain ⟨haccepts, hnext⟩ := Option.ite_none_right_eq_some.mp hthere
        obtain ⟨c, hget, hc⟩ := (Option.any_eq_true _ _).mp haccepts
        obtain ⟨hlt, hc'⟩ := List.getElem?_eq_some_iff.mp hget
        refine ⟨[c], t.drop (q + 1), ?_, ⟨c, hc, rfl⟩, by simp [hnext]⟩
        rw [List.drop_eq_getElem_cons hlt, hc', List.singleton_append]
      · rintro ⟨part, r, hdrop, ⟨c, hc, rfl⟩, hnext⟩
        obtain ⟨hget, -⟩ := Text.getElem?_of_drop (c := c) (r := r) hdrop
        rwa [hget, Option.any_some, if_pos hc]
  | seq p p' ihp ihp' =>
      obtain ⟨hp, hp'⟩ := Bool.and_eq_true_iff.mp hp
      change (p.run (place t q held) fun there => p'.run there next).isSome ↔ _
      rw [ihp hp]
      constructor
      · rintro ⟨a, r, hdrop, ha, hnext⟩
        obtain ⟨b, r', hdrop', hb, hnext'⟩ := (ihp' hp').mp hnext
        obtain rfl : r = b ++ r' := by
          rw [← hdrop', ← List.drop_drop, hdrop, List.drop_left]
        refine ⟨a ++ b, r', by rw [hdrop, List.append_assoc], ⟨a, b, rfl, ha, hb⟩, ?_⟩
        rwa [List.length_append, ← Nat.add_assoc]
      · rintro ⟨part, r, hdrop, ⟨a, b, rfl, ha, hb⟩, hnext⟩
        rw [List.append_assoc] at hdrop
        rw [List.length_append, ← Nat.add_assoc] at hnext
        refine ⟨a, b ++ r, hdrop, ha, (ihp' hp').mpr ⟨b, r, ?_, hb, hnext⟩⟩
        rw [← List.drop_drop, hdrop, List.drop_left]
  | either p p' ihp ihp' =>
      obtain ⟨hp, hp'⟩ := Bool.and_eq_true_iff.mp hp
      have hor : (either p p').run (place t q held) next =
          (p.run (place t q held) next).or (p'.run (place t q held) next) :=
        run_orElse p p' (place t q held) next
      rw [hor, Option.isSome_or, Bool.or_eq_true, ihp hp, ihp' hp']
      constructor
      · rintro (⟨part, r, hdrop, hpart, hnext⟩ | ⟨part, r, hdrop, hpart, hnext⟩)
        · exact ⟨part, r, hdrop, .inl hpart, hnext⟩
        · exact ⟨part, r, hdrop, .inr hpart, hnext⟩
      · rintro ⟨part, r, hdrop, hpart | hpart, hnext⟩
        · exact .inl ⟨part, r, hdrop, hpart, hnext⟩
        · exact .inr ⟨part, r, hdrop, hpart, hnext⟩
  | longest accepts =>
      refine isSome_run_iff_of_steps (fun _ => Iff.rfl)
        (fun q hrest => run_longest_nil hrest accepts held next) (fun q c r hrest => ?_) q
      rw [run_longest_cons hrest, Option.isSome_or]
      by_cases hc : accepts c <;> simp [hc, or_comm]
  | shortest accepts =>
      refine isSome_run_iff_of_steps (fun _ => Iff.rfl)
        (fun q hrest => run_shortest_nil hrest accepts held next) (fun q c r hrest => ?_) q
      rw [run_shortest_cons hrest, Option.isSome_or]
      by_cases hc : accepts c <;> simp [hc]
  | upTo | wordEdge | textEnd | lastLineEnd | ahead | hold | sameAgain => cases hp

theorem isSome_firstFrom_iff (p : Pattern) (t : Text) {q : ℕ} (hq : q ≤ t.length) :
    (p.firstFrom (t.take q).getLast? q (t.drop q)).isSome ↔
      ∃ k, q ≤ k ∧ k ≤ t.length ∧ (p.run (place t k []) some).isSome := by
  induction hrest : t.drop q generalizing q with
  | nil =>
      have hlen : t.length ≤ q := List.drop_eq_nil_iff.mp hrest
      have hplace : (⟨(t.take q).getLast?, q, [], []⟩ : Cursor) = place t q [] := by
        rw [place, hrest]
      rw [firstFrom, hplace, matchAt?, Option.isSome_map]
      constructor
      · exact fun hsome => ⟨q, le_rfl, hq, hsome⟩
      · rintro ⟨k, hle, hk, hsome⟩
        obtain rfl : k = q := by omega
        exact hsome
  | cons c r ih =>
      obtain ⟨hget, hdrop⟩ := Text.getElem?_of_drop hrest
      have hplace : (⟨(t.take q).getLast?, q, c :: r, []⟩ : Cursor) = place t q [] := by
        rw [place, hrest]
      rw [firstFrom, hplace, Option.orElse_eq_or, Option.isSome_or, Bool.or_eq_true, matchAt?,
        Option.isSome_map, ← Text.getLast?_take_succ hget,
        ih (List.getElem?_eq_some_iff.mp hget).1 hdrop]
      constructor
      · rintro (hhere | ⟨k, hle, hk, hsome⟩)
        · exact ⟨q, le_rfl, hq, hhere⟩
        · exact ⟨k, by omega, hk, hsome⟩
      · rintro ⟨k, hle, hk, hsome⟩
        by_cases heq : k = q
        · exact .inl (heq ▸ hsome)
        · exact .inr ⟨k, by omega, hk, hsome⟩

/-- A local pattern occurs in a text just if a part of the text is something that it takes. -/
theorem occursIn_iff {p : Pattern} (hp : p.isLocal) (t : Text) :
    p.occursIn t ↔ ∃ before part after, t = before ++ (part ++ after) ∧ p.Takes part := by
  have hfirst := isSome_firstFrom_iff p t (Nat.zero_le t.length)
  change (p.firstFrom none 0 t).isSome ↔ _ at hfirst
  rw [occursIn, first?, hfirst]
  simp only [isSome_run_iff hp]
  constructor
  · rintro ⟨k, -, -, part, r, hdrop, hpart, -⟩
    exact ⟨t.take k, part, r, by rw [← hdrop, List.take_append_drop], hpart⟩
  · rintro ⟨before, part, after, rfl, hpart⟩
    exact ⟨before.length, Nat.zero_le _, by simp, part, after, List.drop_left, hpart, rfl⟩

end MarkupAudit.Pattern
