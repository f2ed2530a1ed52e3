import MarkupAudit.Proofs.Text.Lower
import MarkupAudit.Proofs.Text.Spelling
import Mathlib.Data.List.DropRight

/-! # Trimming and case, done again

Trimming a text and putting it into lower or upper case change nothing when they are done again. A
change of case makes no white space, so that a trimmed text stays trimmed. -/

namespace MarkupAudit.Text

variable {t : Text}

/-! ## Trimming -/

/-- The text has no white space at its ends. -/
def IsTrimmed (t : Text) : Prop :=
  ∀ c, t.head? = some c ∨ t.getLast? = some c → isBlank c = false

theorem isTrimmed_trim (t : Text) : IsTrimmed (trim t) := by
  rintro c (hfirst | hlast)
  · obtain ⟨r, hr⟩ : trim t <+: trimLeft t := List.rdropWhile_prefix ..
    have hhead := List.head?_dropWhile_not isBlank t
    rw [← trimLeft, ← hr, List.head?_append, hfirst] at hhead
    exact hhead
  · rw [trim, trimRight, List.getLast?_reverse] at hlast
    have hhead := List.head?_dropWhile_not isBlank (trimLeft t).reverse
    rwa [hlast] at hhead

theorem isTrimmed_cons {c : Char} (hc : isBlank c = false) (h : IsTrimmed t) :
    IsTrimmed (c :: t) := by
  rintro d (hfirst | hlast)
  · rwa [← Option.some.inj hfirst]
  · rw [List.getLast?_cons] at hlast
    cases ht : t.getLast? with
    | none =>
        rw [ht] at hlast
        rwa [← Option.some.inj hlast]
    | some e =>
        rw [ht] at hlast
        rw [← Option.some.inj hlast]
        exact h e (.inr ht)

theorem trim_of_isTrimmed (h : IsTrimmed t) : trim t = t := by
  cases t with
  | nil => rfl
  | cons c r =>
      have hleft : trimLeft (c :: r) = c :: r :=
        List.dropWhile_cons_of_neg (by simp [h c (.inl rfl)])
      rw [trim, hleft]
      refine List.rdropWhile_eq_self_iff.mpr fun hne => ?_
      simp [h _ (.inr (List.getLast?_eq_some_getLast hne))]

@[simp] theorem trim_trim (t : Text) : trim (trim t) = trim t :=
  trim_of_isTrimmed (isTrimmed_trim t)

theorem trim_eq_nil_iff : trim t = [] ↔ isFiller t := by
  rw [isFiller, List.all_eq_true]
  refine List.rdropWhile_eq_nil_iff.trans ⟨fun h => ?_, fun h x hx => ?_⟩
  · refine List.dropWhile_eq_nil_iff.mp (List.head?_eq_none_iff.mp ?_)
    cases hhead : (t.dropWhile isBlank).head? with
    | none => rfl
    | some c =>
        have hblank := h c (List.mem_of_head? hhead)
        have hvisible := List.head?_dropWhile_not isBlank t
        rw [hhead] at hvisible
        simp_all
  · exact h x ((List.dropWhile_sublist _).subset hx)

/-- What a character turns into: some characters, and white space only if it is white space. -/
structure StaysVisible (c : Char) (piece : Text) : Prop where
  ne_nil : piece ≠ []
  visible : isBlank c = false → ∀ x ∈ piece, isBlank x = false

theorem isTrimmed_flatten {pieces : List Text} (h : List.Forall₂ StaysVisible t pieces)
    (ht : IsTrimmed t) : IsTrimmed pieces.flatten := by
  have hfirst : ∀ x, pieces.flatten.head? = some x →
      ∃ c piece, t.head? = some c ∧ StaysVisible c piece ∧ x ∈ piece := by
    intro x hx
    cases h with
    | nil => cases hx
    | @cons c piece t pieces hpiece hrest =>
        rw [List.flatten_cons, List.head?_append_of_ne_nil _ hpiece.ne_nil] at hx
        exact ⟨c, piece, rfl, hpiece, List.mem_of_head? hx⟩
  have hlast : ∀ x, pieces.flatten.getLast? = some x →
      ∃ c piece, t.getLast? = some c ∧ StaysVisible c piece ∧ x ∈ piece := by
    intro x hx
    clear ht hfirst
    induction h with
    | nil => cases hx
    | @cons c piece t pieces hpiece hrest ih =>
        rw [List.flatten_cons] at hx
        cases hrest with
        | nil => exact ⟨c, piece, rfl, hpiece, List.mem_of_getLast? (by simpa using hx)⟩
        | @cons d next t pieces hnext hrest =>
            have hne : (next :: pieces).flatten ≠ [] := by simp [hnext.ne_nil]
            rw [List.getLast?_append_of_ne_nil _ hne] at hx
            simpa using ih hx
  rintro x (hx | hx)
  · obtain ⟨c, piece, hc, hpiece, hmem⟩ := hfirst x hx
    exact hpiece.visible (ht c (.inl hc)) x hmem
  · obtain ⟨c, piece, hc, hpiece, hmem⟩ := hlast x hx
    exact hpiece.visible (ht c (.inr hc)) x hmem

/-! ## Runs of characters with case -/

namespace CaseRun

/-- Whether the run has none of the characters from `low` to `high`, of which only every second one
is meant if they alternate. -/
def avoids (low high : ℕ) (alternate : Bool) (s : CaseRun) : Bool :=
  Nat.blt high s.first || Nat.blt s.last low ||
    (Nat.beq s.stride 2 && alternate && Nat.beq ((low + s.first) % 2) 1)

/-- Whether no run has anything that the run gives. -/
def isSettled (runs : List CaseRun) (r : CaseRun) : Bool :=
  0 ≤ r.first + r.shift &&
    runs.all (avoids (r.first + r.shift).toNat (r.last + r.shift).toNat
      (r.stride == 2 || r.first == r.last))

/-- The character is one of the run. -/
def Has (r : CaseRun) (n : ℕ) : Prop :=
  r.first ≤ n ∧ n ≤ r.last ∧ (n - r.first) % r.stride = 0

theorem not_has_of_isSettled {runs : List CaseRun} {r s : CaseRun} (h : isSettled runs r)
    (hs : s ∈ runs) {n : ℕ} (hn : r.Has n) : ¬ s.Has (n + r.shift).toNat := by
  obtain ⟨hfirst, hlast, hstride⟩ := hn
  rintro ⟨hfirst', hlast', hstride'⟩
  simp only [isSettled, Bool.and_eq_true, decide_eq_true_eq, List.all_eq_true] at h
  obtain ⟨hleast, havoids⟩ := h
  have hs := havoids s hs
  simp only [avoids, Bool.or_eq_true, Bool.and_eq_true, Nat.blt_eq, Nat.beq_eq, beq_iff_eq] at hs
  rcases hs with (hbelow | habove) | ⟨⟨htwo, hrun⟩, hodd⟩
  · omega
  · omega
  · -- Both runs have every second character, or the first one has only one.
    rw [htwo] at hstride'
    rcases hrun with htwo' | hsingle
    · rw [htwo'] at hstride
      omega
    · omega

theorem apply_of_not_has {runs : List CaseRun} {n : ℕ} (h : ∀ r ∈ runs, ¬ r.Has n) :
    apply runs n = n := by
  rcases apply_eq runs n with hn | ⟨r, hr, hhas, -⟩
  · exact hn
  · exact absurd hhas (h r hr)

end CaseRun

/-! ## Lower case -/

theorem lowerRuns_settled : lowerRuns.all (CaseRun.isSettled lowerRuns) := by
  decide +kernel

theorem lowerChar_lowerChar (c : Char) : lowerChar (lowerChar c) = lowerChar c := by
  by_cases hc : c.toNat < 128
  · rw [lowerChar_of_plain hc, lowerChar_of_plain (toLower_plain hc)]
    exact forall_plain (P := fun c => c.toLower.toLower = c.toLower) (by decide) c hc
  by_cases hlow : (lowerChar c).toNat < 128
  · by_cases h0 : (lowerChar c).toNat = 0
    · rw [Char.toNat_inj.mp (show (lowerChar c).toNat = '\x00'.toNat from h0)]
      decide
    · rcases lowerChar_eq_plain hlow h0 rfl with ⟨hplain, -⟩ | rfl | rfl
      · exact absurd hplain hc
      · decide +kernel
      · decide +kernel
  · have hcode : (lowerChar c).toNat = CaseRun.apply lowerRuns c.toNat := by
      rw [lowerChar_of_not_plain hc]
      refine toNat_ofNat_of_ne_zero ?_
      rw [← lowerChar_of_not_plain hc]
      omega
    rw [lowerChar_of_not_plain hlow, hcode, lowerChar_of_not_plain hc]
    rcases CaseRun.apply_eq lowerRuns c.toNat with hsame | ⟨r, hr, hhas, hshift⟩
    · rw [hsame, hsame]
    · rw [hshift, CaseRun.apply_of_not_has fun s hs => CaseRun.not_has_of_isSettled
        (List.all_eq_true.mp lowerRuns_settled r hr) hs hhas]

/-- A text whose characters are in lower case is in lower case. -/
theorem lowerFrom_of_forall (h : ∀ c ∈ t, lowerChar c = c) (before : Text) :
    lowerFrom before t = t := by
  induction t generalizing before with
  | nil => rfl
  | cons c t ih =>
      obtain ⟨hc, hrest⟩ := List.forall_mem_cons.mp h
      have hsigma : c ≠ '\u03A3' := by
        rintro rfl
        exact absurd (lowerChar_sigma.symm.trans hc) (by decide)
      have hdotted : c ≠ '\u0130' := by
        rintro rfl
        exact absurd (lowerChar_dotted.symm.trans hc) (by decide)
      simp only [lowerFrom, if_neg hsigma, if_neg hdotted, hc, ih hrest, List.singleton_append]

theorem lowerChar_of_mem_lower {x : Char} (h : x ∈ lower t) : lowerChar x = x := by
  rcases mem_lowerFrom h with hother | ⟨c, -, rfl⟩
  · obtain rfl | rfl : x = '\u03C2' ∨ x = '\u0307' := by simpa using hother
    · decide +kernel
    · decide +kernel
  · exact lowerChar_lowerChar c

@[simp] theorem lower_lower (t : Text) : lower (lower t) = lower t :=
  lowerFrom_of_forall (fun _ => lowerChar_of_mem_lower) []

theorem isBlank_lowerChar {c : Char} (h : isBlank c = false) : isBlank (lowerChar c) = false := by
  rw [Bool.eq_false_iff] at h ⊢
  intro hblank
  exact h ((caseless_of_isBlank hblank).eq_of_lower c rfl ▸ hblank)

theorem exists_lowerFrom (before t : Text) :
    ∃ pieces, List.Forall₂ StaysVisible t pieces ∧ lowerFrom before t = pieces.flatten := by
  induction t generalizing before with
  | nil => exact ⟨[], .nil, rfl⟩
  | cons c t ih =>
      obtain ⟨pieces, hpieces, hrest⟩ := ih (c :: before)
      rw [lowerFrom, hrest]
      refine ⟨_ :: pieces, .cons ?_ hpieces, rfl⟩
      split
      · split <;> exact ⟨by simp, fun _ => List.forall_mem_singleton.mpr (by decide)⟩
      · split
        · exact ⟨by simp, fun _ => List.forall_mem_cons.mpr
            ⟨by decide, List.forall_mem_singleton.mpr (by decide)⟩⟩
        · exact ⟨by simp, fun h => by simpa using isBlank_lowerChar h⟩

theorem isTrimmed_lower (h : IsTrimmed t) : IsTrimmed (lower t) := by
  obtain ⟨pieces, hpieces, hlower⟩ := exists_lowerFrom [] t
  rw [lower, hlower]
  exact isTrimmed_flatten hpieces h

/-! ## Upper case -/

/-- The characters whose upper case has several characters, as runs. -/
def longRuns : List CaseRun :=
  longUpper.map fun entry => ⟨entry.1, entry.1, 1, 0⟩

theorem upperRuns_settled : upperRuns.all (CaseRun.isSettled (upperRuns ++ longRuns)) := by
  decide +kernel

/-- Upper case stays beyond the plain characters but for two letters. -/
theorem upperRuns_not_plain : ∀ r ∈ upperRuns, 128 ≤ (r.first : ℤ) + r.shift ∨
    r.first = r.last ∧ (r.first + r.shift).toNat ∈ ['I'.toNat, 'S'.toNat] := by
  decide +kernel

theorem upperRuns_not_blank : ∀ r ∈ upperRuns, ∀ b ∈ blankRanges,
    (r.last : ℤ) + r.shift < b.1 ∨ (b.2 : ℤ) < r.first + r.shift := by
  decide +kernel

theorem longUpper_settled : ∀ entry ∈ longUpper, entry.2 ≠ [] ∧ ∀ n ∈ entry.2,
    upperChar (Char.ofNat n) = [Char.ofNat n] ∧ isBlank (Char.ofNat n) = false := by
  decide +kernel

theorem upperChar_of_plain {c : Char} (hc : c.toNat < 128) : upperChar c = [c.toUpper] :=
  if_pos hc

/-- The upper case of a character that is not plain, as the tables give it. -/
inductive TabledUpper (c : Char) : Prop where
  | long (entry : ℕ × List ℕ) (mem : entry ∈ longUpper)
      (upper_eq : upperChar c = entry.2.map Char.ofNat)
  | same (upper_eq : upperChar c = [c])
  | run (r : CaseRun) (mem : r ∈ upperRuns) (has : r.Has c.toNat)
      (upper_eq : upperChar c = [Char.ofNat (c.toNat + r.shift).toNat])

theorem tabledUpper {c : Char} (hc : ¬ c.toNat < 128) : TabledUpper c := by
  have hplain : ¬ c.val < 128 := hc
  cases hfind : longUpper.find? (fun entry => entry.1 == c.toNat) with
  | some entry =>
      have hupper : upperChar c = entry.2.map Char.ofNat := by
        rw [upperChar, if_neg hplain, hfind]
      exact .long entry (List.mem_of_find?_eq_some hfind) hupper
  | none =>
      have hupper : upperChar c = [Char.ofNat (CaseRun.apply upperRuns c.toNat)] := by
        rw [upperChar, if_neg hplain, hfind]
      rcases CaseRun.apply_eq upperRuns c.toNat with hsame | ⟨r, hr, hhas, hshift⟩
      · exact .same (by rw [hupper, hsame, Char.ofNat_toNat])
      · exact .run r hr hhas (by rw [hupper, hshift])

/-- A character beyond the plain ones that no table has is in upper case. -/
theorem upperChar_of_not_has {x : Char} (hx : ¬ x.toNat < 128)
    (h : ∀ s ∈ upperRuns ++ longRuns, ¬ s.Has x.toNat) : upperChar x = [x] := by
  have hlong : longUpper.find? (fun entry => entry.1 == x.toNat) = none := by
    rw [List.find?_eq_none]
    intro entry hentry heq
    refine h _ (List.mem_append_right _ (List.mem_map_of_mem hentry)) ?_
    simp [CaseRun.Has, beq_iff_eq.mp heq]
  have hruns := CaseRun.apply_of_not_has fun s hs => h s (List.mem_append_left _ hs)
  unfold upperChar
  rw [if_neg (show ¬ x.val < 128 from hx), hlong, hruns, Char.ofNat_toNat]

theorem upperChar_of_mem {c x : Char} (h : x ∈ upperChar c) : upperChar x = [x] := by
  by_cases hc : c.toNat < 128
  · rw [upperChar_of_plain hc, List.mem_singleton] at h
    rw [h]
    exact forall_plain (P := fun c => upperChar c.toUpper = [c.toUpper]) (by decide +kernel) c hc
  cases tabledUpper hc with
  | long entry hentry hupper =>
      rw [hupper] at h
      obtain ⟨n, hn, rfl⟩ := List.mem_map.mp h
      exact ((longUpper_settled entry hentry).2 n hn).1
  | same hupper =>
      rw [hupper, List.mem_singleton] at h
      rwa [h]
  | run r hr hhas hupper =>
      rw [hupper, List.mem_singleton] at h
      have hsettled := List.all_eq_true.mp upperRuns_settled r hr
      by_cases h0 : x.toNat = 0
      · rw [Char.toNat_inj.mp (show x.toNat = '\x00'.toNat from h0)]
        decide
      have hcode : x.toNat = (c.toNat + r.shift).toNat := by
        rw [h] at h0 ⊢
        exact toNat_ofNat_of_ne_zero h0
      by_cases hx : x.toNat < 128
      · obtain ⟨hfirst, hlast, -⟩ := hhas
        rcases upperRuns_not_plain r hr with hlarge | ⟨hsingle, hletter⟩
        · omega
        · have hletters : ∀ n ∈ ['I'.toNat, 'S'.toNat],
              upperChar (Char.ofNat n) = [Char.ofNat n] := by decide
          have hself : c.toNat = r.first := by omega
          rw [← hself, ← hcode] at hletter
          simpa using hletters _ hletter
      · refine upperChar_of_not_has hx fun s hs => ?_
        rw [hcode]
        exact CaseRun.not_has_of_isSettled hsettled hs hhas

theorem staysVisible_upperChar (c : Char) : StaysVisible c (upperChar c) := by
  by_cases hc : c.toNat < 128
  · rw [upperChar_of_plain hc]
    refine ⟨by simp, fun h => ?_⟩
    have hsame := forall_plain (P := fun c => isBlank c.toUpper = isBlank c) (by decide) c hc
    simpa [hsame] using h
  cases tabledUpper hc with
  | long entry hentry hupper =>
      obtain ⟨hne, hvisible⟩ := longUpper_settled entry hentry
      rw [hupper]
      refine ⟨by simpa using hne, fun _ x hx => ?_⟩
      obtain ⟨n, hn, rfl⟩ := List.mem_map.mp hx
      exact (hvisible n hn).2
  | same hupper =>
      rw [hupper]
      exact ⟨by simp, fun h => by simpa using h⟩
  | run r hr hhas hupper =>
      rw [hupper]
      refine ⟨by simp, fun _ => List.forall_mem_singleton.mpr ?_⟩
      rw [Bool.eq_false_iff, ne_eq, isBlank, CodeRanges.covers, List.any_eq_true]
      rintro ⟨b, hb, hwithin⟩
      rw [Bool.and_eq_true, decide_eq_true_iff, decide_eq_true_iff] at hwithin
      have hpositive : 0 < b.1 := (by decide : ∀ b ∈ blankRanges, 0 < b.1) b hb
      have hcode := toNat_ofNat_of_ne_zero (Nat.ne_of_gt (hpositive.trans_le hwithin.1))
      have houtside := upperRuns_not_blank r hr b hb
      obtain ⟨hfirst, hlast, -⟩ := hhas
      omega

@[simp] theorem upper_upper (t : Text) : upper (upper t) = upper t := by
  have hsame : ∀ x ∈ upper t, upperChar x = [x] := by
    intro x hx
    obtain ⟨c, -, hmem⟩ := List.mem_flatMap.mp hx
    exact upperChar_of_mem hmem
  rw [upper, List.flatMap_congr hsame, List.flatMap_singleton']

theorem upper_eq_nil_iff : upper t = [] ↔ t = [] := by
  rw [upper, List.flatMap_eq_nil_iff]
  constructor
  · intro h
    cases t with
    | nil => rfl
    | cons c t => exact absurd (h c (by simp)) (staysVisible_upperChar c).ne_nil
  · rintro rfl
    simp

theorem isTrimmed_upper (h : IsTrimmed t) : IsTrimmed (upper t) := by
  have hpieces : List.Forall₂ StaysVisible t (t.map upperChar) := by
    rw [List.forall₂_map_right_iff, List.forall₂_same]
    exact fun c _ => staysVisible_upperChar c
  rw [upper, List.flatMap_def]
  exact isTrimmed_flatten hpieces h

/-! ## Strings -/

variable {s : String}

theorem trimString_eq_self_iff : trimString s = s ↔ IsTrimmed s.toList := by
  constructor
  · intro h
    rw [← h, trimString, String.toList_ofList]
    exact isTrimmed_trim _
  · intro h
    rw [trimString, trim_of_isTrimmed h, String.ofList_toList]

/-- A trimmed text is empty or shows something. -/
theorem isFiller_eq_isEmpty (h : trimString s = s) : isFiller s.toList = s.isEmpty := by
  have htrim : trim s.toList = s.toList := trim_of_isTrimmed (trimString_eq_self_iff.mp h)
  rw [Bool.eq_iff_iff, ← trim_eq_nil_iff, htrim, String.toList_eq_nil_iff, String.isEmpty_iff]

@[simp] theorem trimString_trimString (s : String) : trimString (trimString s) = trimString s := by
  simp [trimString]

@[simp] theorem lowerString_lowerString (s : String) :
    lowerString (lowerString s) = lowerString s := by
  simp [lowerString]

@[simp] theorem upperString_upperString (s : String) :
    upperString (upperString s) = upperString s := by
  simp [upperString]

theorem trimString_lowerString (h : trimString s = s) :
    trimString (lowerString s) = lowerString s := by
  rw [trimString_eq_self_iff, lowerString, String.toList_ofList]
  exact isTrimmed_lower (trimString_eq_self_iff.mp h)

theorem trimString_upperString (h : trimString s = s) :
    trimString (upperString s) = upperString s := by
  rw [trimString_eq_self_iff, upperString, String.toList_ofList]
  exact isTrimmed_upper (trimString_eq_self_iff.mp h)

theorem upperString_trimString_eq_empty_iff :
    upperString (trimString s) = "" ↔ isFiller s.toList := by
  rw [← trim_eq_nil_iff, ← upper_eq_nil_iff, upperString, trimString, String.toList_ofList]
  exact String.ofList_eq_empty_iff

end MarkupAudit.Text
