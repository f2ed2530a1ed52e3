import MarkupAudit.Proofs.Markup.Attribute
import MarkupAudit.Proofs.Markup.Window
import MarkupAudit.Proofs.Markup.Written
import MarkupAudit.Proofs.Region.Blanking

/-! # Masking quoted parts

The quoted parts of a text are the matches of a quotation mark, characters other than it, and the
mark again, from left to right. Masking puts a space in place of each character inside of them and
keeps all else, so that an offset in a masked text is an offset in the text. It leaves nothing to
mask, since each part keeps its marks and none of the marks inside. -/

namespace MarkupAudit

namespace Pattern

open Cursor

/-- A part between two marks. -/
def between (mark : Char) : Pattern :=
  exactly [mark] ++ longest (· != mark) ++ exactly [mark]

/-- A part between two quotation marks of one kind. -/
def quotation : Pattern :=
  between '"' <|> between '\''

end Pattern

namespace Markup

open Pattern Cursor Text

/-! ## Quoted parts -/

theorem opensQuote_iff {c : Char} {r : Text} : opensQuote c r ↔ c ∈ ['"', '\''] ∧ c ∈ r := by
  simp [opensQuote]

/-- The number of characters of the quoted part that a text starts with. -/
def quotationRead? : Text → Option ℕ
  | [] => none
  | c :: r => if opensQuote c r then some ((r.takeWhile (· != c)).length + 2) else none

theorem takeWhile_mark {mark : Char} {inside : Text} (h : mark ∉ inside) (behind : Text) :
    (inside ++ mark :: behind).takeWhile (· != mark) = inside := by
  rw [List.takeWhile_append_of_pos]
  · simp
  · intro c hc
    simpa using ne_of_mem_of_not_mem hc h

theorem quotationRead?_mark {mark : Char} (hmark : mark ∈ ['"', '\'']) {inside : Text}
    (h : mark ∉ inside) (behind : Text) :
    quotationRead? (mark :: (inside ++ mark :: behind)) = some (inside.length + 2) := by
  have hopens : opensQuote mark (inside ++ mark :: behind) := opensQuote_iff.mpr ⟨hmark, by simp⟩
  rw [quotationRead?, if_pos hopens, takeWhile_mark h]

theorem exists_mark_of_quotationRead? {r : Text} {n : ℕ} (h : quotationRead? r = some n) :
    ∃ mark ∈ ['"', '\''], ∃ inside behind, r = mark :: (inside ++ mark :: behind) ∧
      mark ∉ inside ∧ n = inside.length + 2 := by
  cases r with
  | nil => cases h
  | cons c r =>
      obtain ⟨hmark, hmem⟩ := opensQuote_iff.mp (Option.ite_none_right_eq_some.mp h).1
      obtain ⟨inside, behind, rfl, hinside⟩ := List.eq_append_cons_of_mem hmem
      rw [quotationRead?_mark hmark hinside] at h
      exact ⟨c, hmark, inside, behind, rfl, hinside, (Option.some.inj h).symm⟩

/-- The part between two marks that starts at a place. -/
theorem run_between_place (mark : Char) (t : Text) (q : ℕ) (held : Text) :
    (between mark).run (place t q held) some =
      if t[q]? = some mark ∧ mark ∈ t.drop (q + 1) then
        some (place t (q + (((t.drop (q + 1)).takeWhile (· != mark)).length + 2)) held)
      else none := by
  have hmark : ∀ k next, (exactly [mark]).run (place t k held) next =
      if t[k]? = some mark then next (place t (k + 1) held) else none := by
    intro k next
    rw [run_exactly_place, standsAt_singleton]
    cases t[k]? <;> simp
  have hstop : ∀ k, t[k]?.any (· != mark) → (exactly [mark]).run (place t k held) some = none := by
    intro k hk
    rw [hmark, if_neg]
    intro hget
    simp [hget] at hk
  rw [between, run_append, run_append, hmark, run_longest_of_stop _ t _ held _ hstop, hmark]
  by_cases hopen : t[q]? = some mark
  · by_cases hmem : mark ∈ t.drop (q + 1)
    · obtain ⟨inside, behind, hdrop, hinside⟩ := List.eq_append_cons_of_mem hmem
      have hclose : t[q + 1 + inside.length]? = some mark := by
        rw [← List.getElem?_drop, hdrop]
        simp
      rw [if_pos hopen, hdrop, takeWhile_mark hinside, if_pos hclose, if_pos ⟨hopen, by simp⟩]
      congr 2
      omega
    · have hclose : ∀ k, t[q + 1 + k]? ≠ some mark := by
        intro k hget
        rw [← List.getElem?_drop] at hget
        exact hmem (List.mem_of_getElem? hget)
      have hnone : ¬(t[q]? = some mark ∧ mark ∈ t.drop (q + 1)) := fun h => hmem h.2
      rw [if_pos hopen, if_neg (hclose _), if_neg hnone]
  · rw [if_neg hopen, if_neg fun h => hopen h.1]

theorem reads_quotation : ReadsRest quotation quotationRead? := by
  intro t q held
  rw [quotation, run_orElse, run_between_place, run_between_place]
  cases h : t.drop q with
  | nil => simp [getElem?_of_drop_nil h, quotationRead?]
  | cons c r =>
      obtain ⟨hget, hrest⟩ := getElem?_of_drop h
      rw [hget, hrest, quotationRead?, opensQuote]
      by_cases hdouble : c = '"'
      · by_cases hmem : '"' ∈ r <;> simp [hdouble, hmem]
      · by_cases hsingle : c = '\''
        · by_cases hmem : '\'' ∈ r <;> simp [hsingle, hmem]
        · simp [hdouble, hsingle]

/-- The quoted parts of a text. -/
def quotations (t : Text) : Occurrences t where
  stop? q := (quotationRead? (t.drop q)).map (q + ·)
  lt_stop {q e} h := by
    obtain ⟨n, hn, rfl⟩ := Option.map_eq_some_iff.mp h
    obtain ⟨mark, -, inside, behind, -, -, rfl⟩ := exists_mark_of_quotationRead? hn
    omega
  stop_le {q e} h := by
    obtain ⟨n, hn, rfl⟩ := Option.map_eq_some_iff.mp h
    obtain ⟨mark, -, inside, behind, hdrop, -, rfl⟩ := exists_mark_of_quotationRead? hn
    have hlength := congrArg List.length hdrop
    simp only [List.length_drop, List.length_cons, List.length_append] at hlength
    omega

/-- The quoted parts of a text that do not overlap, from left to right. -/
def quotedParts (t : Text) : List (ℕ × ℕ) :=
  (quotation.all t).map fun m => (m.start, m.stop)

theorem quotedParts_eq_scan (t : Text) : quotedParts t = (quotations t).scan 0 := by
  apply all_eq_scan_of_run
  intro q
  rw [reads_quotation]
  change _ = ((quotationRead? (t.drop q)).map (q + ·)).map _
  rw [Option.map_map]
  rfl

/-! ## What masking keeps -/

theorem length_maskFrom (mark : Option Char) (t : Text) : (maskFrom mark t).length = t.length := by
  induction t generalizing mark with
  | nil => cases mark <;> rfl
  | cons c r ih =>
      cases mark with
      | none => simp [maskFrom, ih]
      | some mark => by_cases hc : c = mark <;> simp [maskFrom, hc, ih]

/-- Whether an offset lies between the marks of one of the parts. -/
def Encloses (parts : List (ℕ × ℕ)) (i : ℕ) : Prop :=
  ∃ r ∈ parts, r.1 < i ∧ i + 1 < r.2

instance (parts : List (ℕ × ℕ)) (i : ℕ) : Decidable (Encloses parts i) :=
  inferInstanceAs (Decidable (∃ r ∈ parts, r.1 < i ∧ i + 1 < r.2))

/-- What stands for a character at an offset: a space between the marks of a part, and itself
elsewhere. -/
def maskedAt (parts : List (ℕ × ℕ)) (i : ℕ) (c : Char) : Char :=
  if Encloses parts i then ' ' else c

section Offsets

variable {t : Text} {p q e : ℕ}

/-- A quoted part of a text: a mark, characters other than it, and the mark again. -/
theorem exists_mark_of_stop? (h : (quotations t).stop? q = some e) :
    ∃ mark ∈ ['"', '\''], ∃ inside, t.drop q = mark :: (inside ++ mark :: t.drop e) ∧
      mark ∉ inside ∧ e = q + (inside.length + 2) := by
  obtain ⟨n, hn, rfl⟩ := Option.map_eq_some_iff.mp h
  obtain ⟨mark, hmark, inside, behind, hdrop, hinside, rfl⟩ := exists_mark_of_quotationRead? hn
  have hbehind : t.drop (q + (inside.length + 2)) = behind := by
    rw [← List.drop_drop, hdrop]
    simp
  exact ⟨mark, hmark, inside, by rw [hdrop, hbehind], hinside, rfl⟩

theorem maskFrom_quoted {mark : Char} {inside : Text} (hmark : mark ∈ ['"', '\''])
    (hinside : mark ∉ inside) (behind : Text) :
    maskFrom none (mark :: (inside ++ mark :: behind)) =
      (mark :: List.replicate inside.length ' ' ++ [mark]) ++ maskFrom none behind := by
  have hopens : opensQuote mark (inside ++ mark :: behind) := opensQuote_iff.mpr ⟨hmark, by simp⟩
  rw [maskFrom, if_pos hopens, maskFrom_append hinside]
  simp

theorem not_encloses_of_lt (h : q < p) : ¬Encloses ((quotations t).scan p) q := by
  rintro ⟨r, hr, hlt, -⟩
  have := ((quotations t).mem_scan hr).1
  omega

/-- Behind a part, only the parts that follow it count. -/
theorem encloses_cons_of_le {parts : List (ℕ × ℕ)} {i : ℕ} (h : e ≤ i) :
    Encloses ((q, e) :: parts) i ↔ Encloses parts i := by
  simp only [Encloses, List.exists_mem_cons_iff]
  refine or_iff_right ?_
  omega

/-- In a part, none of those that follow it counts. -/
theorem encloses_cons_of_lt {i : ℕ} (h : i < e) :
    Encloses ((q, e) :: (quotations t).scan e) i ↔ q < i ∧ i + 1 < e := by
  have hbehind : ¬Encloses ((quotations t).scan e) i := not_encloses_of_lt h
  simp only [Encloses, List.exists_mem_cons_iff] at hbehind ⊢
  exact or_iff_left hbehind

/-- A masked part has its marks, and spaces between them. -/
theorem getElem?_maskedPart (mark : Char) (inside behind : Text) {i : ℕ}
    (hi : i < inside.length + 2) :
    (mark :: List.replicate inside.length ' ' ++ [mark])[i]? =
      (mark :: (inside ++ mark :: behind))[i]?.map fun c =>
        if 0 < i ∧ i < inside.length + 1 then ' ' else c := by
  cases i with
  | zero => simp
  | succ k =>
      rw [List.cons_append, List.getElem?_cons_succ, List.getElem?_cons_succ]
      by_cases hk : k < inside.length
      · rw [List.getElem?_append_left (by simpa using hk), List.getElem?_append_left hk]
        simp [hk]
      · obtain rfl : k = inside.length := by omega
        simp

/-- Where no quoted part starts, a character is kept. -/
theorem maskFrom_of_none {c : Char} {r : Text} (h : (quotations t).stop? p = none)
    (hdrop : t.drop p = c :: r) : maskFrom none (c :: r) = c :: maskFrom none r := by
  have hopens : opensQuote c r = false := by
    have hnone : quotationRead? (c :: r) = none := by
      rw [← hdrop]
      exact Option.map_eq_none_iff.mp h
    simpa [quotationRead?] using hnone
  rw [maskFrom, hopens]
  rfl

/-- A quoted part is masked by itself. -/
theorem getElem?_maskFrom_of_lt {i : ℕ} (h : (quotations t).stop? p = some e) (hi : p + i < e) :
    (maskFrom none (t.drop p))[i]? =
      t[p + i]?.map (maskedAt ((p, e) :: (quotations t).scan e) (p + i)) := by
  obtain ⟨mark, hmark, inside, hdrop, hinside, rfl⟩ := exists_mark_of_stop? h
  have hwidth : (mark :: List.replicate inside.length ' ' ++ [mark]).length =
      inside.length + 2 := by simp
  have hpart := getElem?_maskedPart mark inside (t.drop (p + (inside.length + 2)))
    (Nat.add_lt_add_iff_left.mp hi)
  rw [← List.getElem?_drop, hdrop, maskFrom_quoted hmark hinside,
    List.getElem?_append_left (by omega), hpart]
  refine congrArg (Option.map · _) (funext fun c => ?_)
  have hencloses : Encloses ((p, p + (inside.length + 2)) ::
      (quotations t).scan (p + (inside.length + 2))) (p + i) ↔ 0 < i ∧ i < inside.length + 1 := by
    rw [encloses_cons_of_lt hi]
    omega
  simp only [maskedAt, hencloses]

/-- Behind a quoted part, the rest of the text is masked. -/
theorem getElem?_maskFrom_of_le {i : ℕ} (h : (quotations t).stop? p = some e) (hi : e ≤ p + i) :
    (maskFrom none (t.drop p))[i]? = (maskFrom none (t.drop e))[p + i - e]? := by
  obtain ⟨mark, hmark, inside, hdrop, hinside, rfl⟩ := exists_mark_of_stop? h
  have hwidth : (mark :: List.replicate inside.length ' ' ++ [mark]).length =
      inside.length + 2 := by simp
  rw [hdrop, maskFrom_quoted hmark hinside, List.getElem?_append_right (by omega), hwidth,
    Nat.add_sub_add_left]

/-- The text from an offset on is masked as the quoted parts from there on say. -/
theorem getElem?_maskFrom (t : Text) (p i : ℕ) :
    (maskFrom none (t.drop p))[i]? =
      t[p + i]?.map (maskedAt ((quotations t).scan p) (p + i)) := by
  -- A quoted part is passed as a whole, so the induction is on what is left of the text.
  induction hn : t.length - p using Nat.strong_induction_on generalizing p i with
  | _ n ih =>
    cases hdrop : t.drop p with
    | nil =>
        have hlen : t.length ≤ p + i := (List.drop_eq_nil_iff.mp hdrop).trans (by omega)
        simp [maskFrom, List.getElem?_eq_none hlen]
    | cons c r =>
        obtain ⟨hget, hrest⟩ := getElem?_of_drop hdrop
        have hlt : p < t.length := (List.getElem?_eq_some_iff.mp hget).1
        cases hstop : (quotations t).stop? p with
        | none =>
            rw [maskFrom_of_none hstop hdrop, ← hrest, (quotations t).scan_of_none hstop]
            cases i with
            | zero => simp [hget, maskedAt, not_encloses_of_lt]
            | succ i =>
                rw [List.getElem?_cons_succ, ih _ (by omega) (p + 1) i rfl, Nat.add_right_comm,
                  Nat.add_assoc p i 1]
        | some e =>
            have hstart : p < e := (quotations t).lt_stop hstop
            rw [← hdrop, (quotations t).scan_of_some hstop]
            by_cases hi : p + i < e
            · exact getElem?_maskFrom_of_lt hstop hi
            · have hle : e ≤ p + i := Nat.le_of_not_lt hi
              have hsame : maskedAt ((p, e) :: (quotations t).scan e) (p + i) =
                  maskedAt ((quotations t).scan e) (p + i) := by
                funext c
                simp only [maskedAt, encloses_cons_of_le hle]
              rw [getElem?_maskFrom_of_le hstop hle, ih _ (by omega) e _ rfl, hsame,
                Nat.add_sub_cancel' hle]

theorem getElem?_maskQuoted (t : Text) (i : ℕ) :
    (maskQuoted t)[i]? = t[i]?.map (maskedAt (quotedParts t) i) := by
  have hfrom := getElem?_maskFrom t 0 i
  rwa [List.drop_zero, Nat.zero_add, ← quotedParts_eq_scan] at hfrom

theorem getElem?_maskQuoted_of_not_encloses {i : ℕ} (h : ¬Encloses (quotedParts t) i) :
    (maskQuoted t)[i]? = t[i]? := by
  have hsame : maskedAt (quotedParts t) i = id := funext fun c => if_neg h
  rw [getElem?_maskQuoted, hsame, Option.map_id, id]

/-- The marks of a part lie between those of no part. -/
theorem not_encloses_marks {r : ℕ × ℕ} (h : r ∈ quotedParts t) :
    ¬Encloses (quotedParts t) r.1 ∧ ¬Encloses (quotedParts t) (r.2 - 1) := by
  rw [quotedParts_eq_scan] at h ⊢
  have hlt := (quotations t).lt_stop ((quotations t).mem_scan h).2
  constructor <;>
    · rintro ⟨s, hs, hstart, hstop⟩
      by_cases hsame : r = s
      · subst hsame
        omega
      · have hapart := (quotations t).apart_of_mem_scan h hs hsame
        omega

end Offsets

/-- The masked form of a text: as long as the text, with the same characters outside its quoted
parts, with the marks of each part, and with spaces between them. -/
structure Masks (t masked : Text) : Prop where
  length_eq : masked.length = t.length
  outside : ∀ i, ¬Region.Covers (quotedParts t) i → masked[i]? = t[i]?
  marks : ∀ r ∈ quotedParts t, ∃ mark ∈ ['"', '\''],
    t[r.1]? = some mark ∧ masked[r.1]? = some mark ∧
      t[r.2 - 1]? = some mark ∧ masked[r.2 - 1]? = some mark
  inside : ∀ r ∈ quotedParts t, ∀ i, r.1 < i → i + 1 < r.2 → masked[i]? = some ' '

theorem masks_maskQuoted (t : Text) : Masks t (maskQuoted t) where
  length_eq := length_maskFrom none t
  outside i h := by
    apply getElem?_maskQuoted_of_not_encloses
    rintro ⟨r, hr, hstart, hstop⟩
    exact h ⟨r, hr, by omega, by omega⟩
  marks r hr := by
    obtain ⟨hfirst, hlast⟩ := not_encloses_marks hr
    have hmem : r ∈ (quotations t).scan 0 := by rwa [← quotedParts_eq_scan]
    obtain ⟨mark, hmark, inside, hdrop, -, hstop⟩ :=
      exists_mark_of_stop? ((quotations t).mem_scan hmem).2
    have hchar : ∀ k, t[r.1 + k]? = (mark :: (inside ++ mark :: t.drop r.2))[k]? := by
      intro k
      rw [← hdrop, List.getElem?_drop]
    have hopen : t[r.1]? = some mark := hchar 0
    have hclose : t[r.2 - 1]? = some mark := by
      rw [show r.2 - 1 = r.1 + (inside.length + 1) by omega, hchar]
      simp
    rw [getElem?_maskQuoted_of_not_encloses hfirst, getElem?_maskQuoted_of_not_encloses hlast]
    exact ⟨mark, hmark, hopen, hopen, hclose, hclose⟩
  inside r hr i hstart hstop := by
    have hmem : r ∈ (quotations t).scan 0 := by rwa [← quotedParts_eq_scan]
    have hle := (quotations t).stop_le ((quotations t).mem_scan hmem).2
    have hencloses : Encloses (quotedParts t) i := ⟨r, hr, hstart, hstop⟩
    rw [getElem?_maskQuoted, List.getElem?_eq_getElem (by omega), Option.map_some, maskedAt,
      if_pos hencloses]

/-! ## Masking again -/

theorem mem_of_mem_maskFrom {mark : Option Char} {t : Text} {c : Char} (h : c ∈ maskFrom mark t)
    (hc : c ≠ ' ') : c ∈ t := by
  induction t generalizing mark with
  | nil => simp [maskFrom] at h
  | cons d r ih =>
      cases mark with
      | none =>
          rcases List.mem_cons.mp h with rfl | hrest
          · exact List.mem_cons_self
          · exact List.mem_cons_of_mem d (ih hrest)
      | some mark =>
          rw [maskFrom] at h
          split at h
          · rcases List.mem_cons.mp h with rfl | hrest
            · exact List.mem_cons_self
            · exact List.mem_cons_of_mem d (ih hrest)
          · exact List.mem_cons_of_mem d (ih ((List.mem_cons.mp h).resolve_left hc))

/-- The mark that closes a part is kept. -/
theorem mem_maskFrom {mark : Char} {t : Text} (h : mark ∈ t) : mark ∈ maskFrom (some mark) t := by
  induction t with
  | nil => cases h
  | cons c r ih =>
      rw [maskFrom]
      split
      · next hc => simp [hc]
      · next hc =>
          have hrest : mark ∈ r := (List.mem_cons.mp h).resolve_left (Ne.symm hc)
          exact List.mem_cons_of_mem _ (ih hrest)

/-- A mark opens a part in the masked text just if it opens one in the text. -/
theorem opensQuote_maskFrom (c : Char) (r : Text) :
    opensQuote c (maskFrom (if opensQuote c r then some c else none) r) = opensQuote c r := by
  rw [Bool.eq_iff_iff]
  by_cases hopens : opensQuote c r
  · obtain ⟨hmark, hmem⟩ := opensQuote_iff.mp hopens
    rw [if_pos hopens, opensQuote_iff]
    exact iff_of_true ⟨hmark, mem_maskFrom hmem⟩ hopens
  · refine iff_of_false ?_ hopens
    rw [if_neg hopens, opensQuote_iff]
    intro h
    have hspace : c ≠ ' ' := by
      rintro rfl
      exact absurd h.1 (by decide)
    exact hopens (opensQuote_iff.mpr ⟨h.1, mem_of_mem_maskFrom h.2 hspace⟩)

theorem maskFrom_maskFrom {mark : Option Char} (hmark : mark ≠ some ' ') (t : Text) :
    maskFrom mark (maskFrom mark t) = maskFrom mark t := by
  induction t generalizing mark with
  | nil => simp [maskFrom]
  | cons c r ih =>
      cases mark with
      | none =>
          have hopened : (if opensQuote c r then some c else none) ≠ some ' ' := by
            intro hspace
            obtain ⟨hopens, heq⟩ := Option.ite_none_right_eq_some.mp hspace
            rw [Option.some.inj heq, opensQuote_iff] at hopens
            exact absurd hopens.1 (by decide)
          rw [maskFrom, maskFrom, opensQuote_maskFrom, ih hopened]
      | some mark =>
          by_cases hc : c = mark
          · have hrest : maskFrom none (maskFrom none r) = maskFrom none r := ih (by simp)
            simp [maskFrom, hc, hrest]
          · have hspace : ' ' ≠ mark := by
              rintro rfl
              exact hmark rfl
            simp [maskFrom, hc, hspace, ih hmark]

theorem maskQuoted_maskQuoted (t : Text) : maskQuoted (maskQuoted t) = maskQuoted t :=
  maskFrom_maskFrom (by simp) t

end Markup

end MarkupAudit
