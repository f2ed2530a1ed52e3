import MarkupAudit.Json.Reader
import Mathlib.Data.List.Infix
import Mathlib.Data.List.TakeWhile

/-! # Why a text is not read

Each code unit is read as a character of its own. A reader gives a value and what is left of the
text, or an error. An error about a numeral is due to a run of digits in the text that is longer than
a numeral may be, and an error about the depth is due to more opening brackets than lists and objects
may be deep. -/

namespace MarkupAudit.Json

/-- Some digits stand together in the text and are more than a numeral may have. -/
def HasLongNumeral (t : Text) : Prop :=
  ∃ digits, digits <:+: t ∧ (∀ c ∈ digits, c.isDigit) ∧ Text.numeralLimit < digits.length

/-- The number of brackets in the text that open a list or an object. -/
def openings (t : Text) : ℕ :=
  t.countP fun c => c = '[' || c = '\x7b'

/-- What in a text an error is due to, if lists and objects may be so deep. -/
def ReadError.DueTo (depth : ℕ) (t : Text) : ReadError → Prop
  | .malformed => True
  | .longNumeral => HasLongNumeral t
  | .tooDeep => depth < openings t

theorem HasLongNumeral.of_suffix {t u : Text} (h : HasLongNumeral t) (hsuffix : t <:+ u) :
    HasLongNumeral u := by
  obtain ⟨digits, hinfix, hdigits, hlength⟩ := h
  exact ⟨digits, hinfix.trans hsuffix.isInfix, hdigits, hlength⟩

theorem ReadError.DueTo.of_suffix {depth : ℕ} {t u : Text} {e : ReadError} (h : e.DueTo depth t)
    (hsuffix : t <:+ u) : e.DueTo depth u := by
  cases e with
  | malformed => trivial
  | longNumeral => exact HasLongNumeral.of_suffix h hsuffix
  | tooDeep => exact Nat.lt_of_lt_of_le h hsuffix.sublist.countP_le

/-- What a reader gives: something and an end of the text, or an error that the text is the cause
of. -/
def Explained {α : Type} (depth : ℕ) (t : Text) : Except ReadError (α × Text) → Prop
  | .ok (_, rest) => rest <:+ t
  | .error e => e.DueTo depth t

namespace Explained

variable {α β : Type} {depth : ℕ} {t u : Text} {r : Except ReadError (α × Text)}

theorem of_suffix (h : Explained depth t r) (hsuffix : t <:+ u) : Explained depth u r := by
  cases r with
  | ok read => exact List.IsSuffix.trans h hsuffix
  | error e => exact ReadError.DueTo.of_suffix h hsuffix

/-- Inside a list or an object there is one level less to go down. -/
theorem of_inside {c : Char} (h : Explained depth t r) (hsuffix : t <:+ u)
    (hc : c = '[' || c = '\x7b') : Explained (depth + 1) (c :: u) r := by
  have hrest : t <:+ c :: u := hsuffix.trans (List.suffix_cons c u)
  cases r with
  | ok read => exact List.IsSuffix.trans h hrest
  | error e =>
      cases e with
      | malformed => trivial
      | longNumeral => exact HasLongNumeral.of_suffix h hrest
      | tooDeep =>
          have hopenings : openings t ≤ openings u := hsuffix.sublist.countP_le
          have hfirst : openings (c :: u) = openings u + 1 := List.countP_cons_of_pos hc
          change depth + 1 < openings (c :: u)
          change depth < openings t at h
          omega

theorem map (h : Explained depth t r) (f : α → β) :
    Explained depth t (r.map fun (a, rest) => (f a, rest)) := by
  cases r with
  | ok read => exact h
  | error e => exact h

theorem bind (h : Explained depth t r) {next : α × Text → Except ReadError (β × Text)}
    (hnext : ∀ a rest, rest <:+ t → Explained depth t (next (a, rest))) :
    Explained depth t (r >>= next) := by
  cases r with
  | ok read => exact hnext read.1 read.2 h
  | error e => exact h

end Explained

namespace Reader

theorem skipGap_suffix (t : Text) : skipGap t <:+ t :=
  List.dropWhile_suffix _

theorem suffix_of_skipGap {t rest : Text} {c : Char} (h : skipGap t = c :: rest) : rest <:+ t :=
  (List.suffix_cons c rest).trans (h ▸ skipGap_suffix t)

/-! ## Code units -/

theorem toNat_ofUnit {n : ℕ} (hn : n < 0x10000) :
    (ofUnit n).toNat = if isSurrogate n then 0x10F000 + (n - 0xD800) else n := by
  have hrange : isSurrogate n ↔ 0xD800 ≤ n ∧ n < 0xE000 := by simp [isSurrogate]
  unfold ofUnit
  split
  · next hsurrogate =>
      rw [hrange] at hsurrogate
      have hvalid : (0x10F000 + (n - 0xD800)).isValidChar := .inr (by omega)
      rw [Char.ofNat, dif_pos hvalid]
      rfl
  · next hscalar =>
      rw [hrange] at hscalar
      have hvalid : n.isValidChar := by
        unfold Nat.isValidChar
        omega
      rw [Char.ofNat, dif_pos hvalid]
      rfl

/-- Different code units are read as different characters, so a surrogate without its other half is
taken for no other one and for nothing that can be written in four hexadecimal digits. -/
theorem ofUnit_inj {n m : ℕ} (hn : n < 0x10000) (hm : m < 0x10000) (h : ofUnit n = ofUnit m) :
    n = m := by
  have hcodes := congrArg Char.toNat h
  rw [toNat_ofUnit hn, toNat_ofUnit hm] at hcodes
  simp only [isSurrogate, Bool.and_eq_true, decide_eq_true_eq] at hcodes
  split_ifs at hcodes <;> omega

/-! ## Texts, numbers and words -/

theorem units?_suffix {t rest : Text} {ns : List ℕ} (h : units? t = some (ns, rest)) :
    rest <:+ t := by
  fun_induction units? t generalizing ns rest with
  | case1 r =>
      obtain ⟨-, rfl⟩ := Prod.mk.inj (Option.some.inj h)
      exact List.suffix_cons _ _
  | case2 a b c d r ih =>
      simp only [Option.bind_eq_bind, Option.bind_eq_some_iff] at h
      obtain ⟨n, -, ⟨ns', rest'⟩, hrest, hpair⟩ := h
      obtain ⟨-, rfl⟩ := Prod.mk.inj (Option.some.inj hpair)
      exact (ih hrest).trans ⟨['\\', 'u', a, b, c, d], rfl⟩
  | case3 c r _ ih =>
      simp only [Option.bind_eq_bind, Option.bind_eq_some_iff] at h
      obtain ⟨e, -, ⟨ns', rest'⟩, hrest, hpair⟩ := h
      obtain ⟨-, rfl⟩ := Prod.mk.inj (Option.some.inj hpair)
      exact (ih hrest).trans ⟨['\\', c], rfl⟩
  | case4 => cases h
  | case5 c r _ _ _ _ ih =>
      simp only [Option.bind_eq_bind, Option.bind_eq_some_iff] at h
      obtain ⟨⟨ns', rest'⟩, hrest, hpair⟩ := h
      obtain ⟨-, rfl⟩ := Prod.mk.inj (Option.some.inj hpair)
      exact (ih hrest).trans (List.suffix_cons _ _)
  | case6 => cases h

theorem string_explained (depth : ℕ) (t : Text) : Explained depth t (string t) := by
  unfold string
  split
  · next hunits => exact units?_suffix hunits
  · trivial

theorem fraction_suffix (t : Text) : (fraction t).2 <:+ t := by
  unfold fraction
  split
  · next r =>
      simp only
      split
      · exact List.suffix_rfl
      · exact (List.dropWhile_suffix _).trans (List.suffix_cons _ _)
  · exact List.suffix_rfl

theorem exponent_suffix (t : Text) : (exponent t).2 <:+ t := by
  unfold exponent
  split
  · next e r =>
      -- What follows the letter, with or without a sign before it.
      have hunsigned : ∀ {u : Text} (power : Option ℤ), u <:+ r →
          (if (u.takeWhile Char.isDigit).isEmpty then (none, e :: r)
            else (power, u.dropWhile Char.isDigit)).2 <:+ e :: r := by
        intro u power hu
        split
        · exact List.suffix_rfl
        · exact ((List.dropWhile_suffix _).trans hu).trans (List.suffix_cons e r)
      split
      · simp only
        split
        · exact hunsigned _ (List.suffix_cons _ _)
        · exact hunsigned _ (List.suffix_cons _ _)
        · exact hunsigned _ List.suffix_rfl
      · exact List.suffix_rfl
  · exact List.suffix_rfl

/-- The digits before the point stand at the start of the text. -/
theorem wholeDigits_eq (t : Text) :
    t = (wholeDigits t).1 ++ (wholeDigits t).2 ∧ ∀ c ∈ (wholeDigits t).1, c.isDigit := by
  unfold wholeDigits
  split
  · exact ⟨rfl, by simp⟩
  · exact ⟨(List.takeWhile_append_dropWhile ..).symm, fun _ => List.mem_takeWhile_imp⟩

theorem number_explained (depth : ℕ) (negative : Bool) (t : Text) :
    Explained depth t (number negative t) := by
  obtain ⟨ht, hdigits⟩ := wholeDigits_eq t
  have hrest : (exponent (fraction (wholeDigits t).2).2).2 <:+ t := by
    refine ((exponent_suffix _).trans (fraction_suffix _)).trans ?_
    exact ⟨(wholeDigits t).1, ht.symm⟩
  unfold number
  simp only
  split
  · trivial
  · split
    · split
      · next hlong =>
          refine ⟨(wholeDigits t).1, ?_, hdigits, hlong⟩
          exact List.IsPrefix.isInfix ⟨(wholeDigits t).2, ht.symm⟩
      · exact hrest
    · exact hrest

theorem afterWord?_suffix {word : String} {t rest : Text} (h : afterWord? word t = some rest) :
    rest <:+ t := by
  obtain ⟨-, hrest⟩ := Option.ite_none_right_eq_some.mp h
  rw [← Option.some.inj hrest]
  exact List.drop_suffix _ _

theorem scalar_explained (depth : ℕ) (t : Text) : Explained depth t (scalar t) := by
  have hword : ∀ {w : String} {v : Value} {found : Value × Text},
      (afterWord? w t).map (fun r => (v, r)) = some found → found.2 <:+ t := by
    intro w v found h
    obtain ⟨rest, hrest, rfl⟩ := Option.map_eq_some_iff.mp h
    exact afterWord?_suffix hrest
  unfold scalar
  simp only
  split
  · next found hfound =>
      simp only [Option.orElse_eq_orElse, Option.orElse_eq_or, Option.or_eq_some_iff] at hfound
      rcases hfound with h | ⟨-, h | ⟨-, h | ⟨-, h | ⟨-, h | ⟨-, h⟩⟩⟩⟩⟩ <;> exact hword h
  · exact (number_explained depth true _).of_suffix (List.suffix_cons _ _)
  · exact number_explained depth false _

/-! ## Values, items and members -/

section Step

variable {fuel : ℕ} (hvalue : ∀ depth t, Explained depth t (value fuel depth t))
  (hitems : ∀ depth t, Explained depth t (items fuel depth t))
  (hmembers : ∀ depth found t, Explained depth t (members fuel depth found t))

include hitems hmembers in
theorem value_step (depth : ℕ) (t : Text) : Explained depth t (value (fuel + 1) depth t) := by
  unfold value
  split
  · next r => exact ((string_explained depth r).of_suffix (List.suffix_cons _ r)).map _
  · next r => simp [Explained, ReadError.DueTo, openings]
  · next r depth =>
      split
      · next rest hrest => exact (suffix_of_skipGap hrest).trans (List.suffix_cons _ r)
      · exact ((hitems depth _).map Value.array).of_inside (skipGap_suffix r) rfl
  · next r => simp [Explained, ReadError.DueTo, openings]
  · next r depth =>
      split
      · next rest hrest => exact (suffix_of_skipGap hrest).trans (List.suffix_cons _ r)
      · exact ((hmembers depth [] _).map Value.object).of_inside (skipGap_suffix r) rfl
  · exact scalar_explained depth t

include hvalue hitems in
theorem items_step (depth : ℕ) (t : Text) : Explained depth t (items (fuel + 1) depth t) := by
  unfold items
  refine (hvalue depth t).bind fun v afterValue hafter => ?_
  simp only
  split
  · next rest hrest => exact (suffix_of_skipGap hrest).trans hafter
  · next r hrest =>
      have hnext : skipGap r <:+ t :=
        (skipGap_suffix r).trans ((suffix_of_skipGap hrest).trans hafter)
      exact ((hitems depth (skipGap r)).of_suffix hnext).bind fun vs rest h => h
  · trivial

include hvalue hmembers in
theorem members_step (depth : ℕ) (found : List (String × Value)) (t : Text) :
    Explained depth t (members (fuel + 1) depth found t) := by
  unfold members
  split
  · next r =>
      refine ((string_explained depth r).of_suffix (List.suffix_cons _ r)).bind
        fun key afterKey hkey => ?_
      simp only
      split
      · next r' hcolon =>
          have hstart : skipGap r' <:+ '"' :: r :=
            (skipGap_suffix r').trans ((suffix_of_skipGap hcolon).trans hkey)
          refine ((hvalue depth (skipGap r')).of_suffix hstart).bind fun v afterValue hafter => ?_
          simp only
          split
          · next rest hrest => exact (suffix_of_skipGap hrest).trans hafter
          · next r'' hcomma =>
              exact (hmembers depth _ _).of_suffix
                ((skipGap_suffix r'').trans ((suffix_of_skipGap hcomma).trans hafter))
          · trivial
      · trivial
  · trivial

end Step

theorem explained (fuel : ℕ) :
    (∀ depth t, Explained depth t (value fuel depth t)) ∧
    (∀ depth t, Explained depth t (items fuel depth t)) ∧
    (∀ depth found t, Explained depth t (members fuel depth found t)) := by
  induction fuel with
  | zero => exact ⟨fun _ _ => trivial, fun _ _ => trivial, fun _ _ _ => trivial⟩
  | succ fuel ih =>
      obtain ⟨hvalue, hitems, hmembers⟩ := ih
      exact ⟨value_step hitems hmembers, items_step hvalue hitems, members_step hvalue hmembers⟩

end Reader

/-- What in a text is the cause if it is not read. -/
theorem dueTo_of_read {s : String} {e : ReadError} (h : read s = .error e) :
    e.DueTo Reader.depthLimit s.toList := by
  have hvalue := ((Reader.explained (2 * s.toList.length + 2)).1 Reader.depthLimit
    (Reader.skipGap s.toList)).of_suffix (Reader.skipGap_suffix s.toList)
  unfold read at h
  simp only at h
  split at h
  · next e' herror =>
      rw [herror] at hvalue
      obtain rfl := Except.error.inj h
      exact hvalue
  · split at h
    · cases h
    · obtain rfl := Except.error.inj h
      trivial

/-! ## Texts that are not read -/

namespace Reader

theorem skipGap_replicate {c : Char} (hc : isGap c = false) (n : ℕ) :
    skipGap (List.replicate n c) = List.replicate n c := by
  cases n with
  | zero => rfl
  | succ n => rw [skipGap, List.replicate_succ, List.dropWhile_cons_of_neg (by simp [hc])]

theorem number_replicate {n : ℕ} (h : Text.numeralLimit < n) :
    number false (List.replicate n '1') = .error .longNumeral := by
  obtain ⟨n, rfl⟩ := Nat.exists_eq_succ_of_ne_zero (Nat.ne_of_gt (Nat.zero_lt_of_lt h))
  have hdigits : ∀ c ∈ List.replicate (n + 1) '1', c.isDigit := by
    intro c hc
    rw [List.eq_of_mem_replicate hc]
    rfl
  have hwhole : wholeDigits (List.replicate (n + 1) '1') = (List.replicate (n + 1) '1', []) := by
    unfold wholeDigits
    split
    · next heq => simp [List.replicate_succ] at heq
    · rw [List.takeWhile_eq_self_iff.mpr hdigits, List.dropWhile_eq_nil_iff.mpr hdigits]
  simp [number, hwhole, fraction, exponent, h]

theorem scalar_replicate {n : ℕ} (h : Text.numeralLimit < n) :
    scalar (List.replicate n '1') = .error .longNumeral := by
  rw [← number_replicate h]
  obtain ⟨n, rfl⟩ := Nat.exists_eq_succ_of_ne_zero (Nat.ne_of_gt (Nat.zero_lt_of_lt h))
  rw [List.replicate_succ]
  rfl

/-- Each bracket takes one level and two steps. -/
theorem value_replicate {depth n fuel : ℕ} (h : depth < n) (hfuel : 2 * depth < fuel) :
    value fuel depth (List.replicate n '[') = .error .tooDeep := by
  induction depth generalizing n fuel with
  | zero =>
      obtain ⟨n, rfl⟩ := Nat.exists_eq_succ_of_ne_zero (Nat.ne_of_gt h)
      obtain ⟨fuel, rfl⟩ := Nat.exists_eq_succ_of_ne_zero (Nat.ne_of_gt hfuel)
      rfl
  | succ depth ih =>
      obtain ⟨n, rfl⟩ : ∃ m, n = m + 2 := ⟨n - 2, by omega⟩
      obtain ⟨fuel, rfl⟩ : ∃ m, fuel = m + 2 := ⟨fuel - 2, by omega⟩
      have hvalue : value fuel depth (List.replicate (n + 1) '[') = .error .tooDeep :=
        ih (by omega) (by omega)
      have hitems : items (fuel + 1) depth (List.replicate (n + 1) '[') = .error .tooDeep := by
        rw [items, hvalue]
        rfl
      rw [List.replicate_succ, value, skipGap_replicate rfl]
      split
      · next heq => simp [List.replicate_succ] at heq
      · rw [hitems]
        rfl

end Reader

/-- A numeral may be too long. -/
theorem read_ones {n : ℕ} (h : Text.numeralLimit < n) :
    read (String.ofList (List.replicate n '1')) = .error .longNumeral := by
  unfold read
  have hvalue : ∀ fuel depth, Reader.value (fuel + 1) depth (List.replicate n '1') =
      .error .longNumeral := by
    intro fuel depth
    rw [← Reader.scalar_replicate h]
    obtain ⟨n, rfl⟩ := Nat.exists_eq_succ_of_ne_zero (Nat.ne_of_gt (Nat.zero_lt_of_lt h))
    rfl
  simp only [String.toList_ofList, Reader.skipGap_replicate (c := '1') rfl, hvalue]

/-- Lists may be too deep. -/
theorem read_brackets {n : ℕ} (h : Reader.depthLimit < n) :
    read (String.ofList (List.replicate n '[')) = .error .tooDeep := by
  unfold read
  simp only [String.toList_ofList, Reader.skipGap_replicate (c := '[') rfl]
  rw [Reader.value_replicate h (by simp; omega)]

end MarkupAudit.Json
