import MarkupAudit.Json.Reader
import MarkupAudit.Json.Writer
import Mathlib.Data.List.Basic

/-! # Written values, read again

A value without numbers is read from the text that it is written as. A reader takes one step for
each item and each bracket, so that the length of the text is enough for it. -/

namespace MarkupAudit

namespace Text

/-! ## Hexadecimal digits -/

theorem hexValue?_digitChar : ∀ n < 16, hexValue? n.digitChar = some n := by
  decide

theorem padZeros_one_toDigits {n : ℕ} (h : n < 16) :
    padZeros 1 (Nat.toDigits 16 n) = [n.digitChar] := by
  rw [Nat.toDigits_of_lt_base h]
  rfl

/-- The last of some digits, with zeros before them. -/
theorem padZeros_toDigits (width n : ℕ) :
    padZeros (width + 2) (Nat.toDigits 16 n) =
      padZeros (width + 1) (Nat.toDigits 16 (n / 16)) ++ [(n % 16).digitChar] := by
  by_cases h : n < 16
  · rw [Nat.toDigits_of_lt_base h, Nat.div_eq_of_lt h, Nat.toDigits_zero, Nat.mod_eq_of_lt h]
    simp [padZeros, ← List.replicate_succ']
  · rw [Nat.toDigits_of_base_le (by decide) (Nat.le_of_not_lt h)]
    simp [padZeros]

/-- A number below 65536 has four hexadecimal digits. -/
theorem toList_hexadecimal {n : ℕ} (h : n < 0x10000) :
    (hexadecimal 4 n).toList = [(n / 0x1000).digitChar, (n / 0x100 % 16).digitChar,
      (n / 0x10 % 16).digitChar, (n % 16).digitChar] := by
  have hfirst : n / 16 / 16 / 16 < 16 := by omega
  rw [hexadecimal, String.toList_ofList, padZeros_toDigits, padZeros_toDigits, padZeros_toDigits,
    padZeros_one_toDigits hfirst]
  simp [Nat.div_div_eq_div_mul]

end Text

namespace Json

namespace Reader

theorem unit?_digitChar {n : ℕ} (h : n < 0x10000) :
    unit? (n / 0x1000).digitChar (n / 0x100 % 16).digitChar (n / 0x10 % 16).digitChar
      (n % 16).digitChar = some n := by
  have hnumber : 256 * (16 * (n / 0x1000) + n / 0x100 % 16) +
      (16 * (n / 0x10 % 16) + n % 16) = n := by omega
  simp only [unit?, Text.hexValue?_digitChar (n / 0x1000) (by omega),
    Text.hexValue?_digitChar _ (Nat.mod_lt _ (by decide : 16 > 0)), Option.bind_eq_bind,
    Option.bind_some, Option.pure_def, hnumber]

/-- One code unit more at the start. -/
theorem units?_unit {n : ℕ} (h : n < 0x10000) (t : Text) :
    units? ((Writer.unit n).toList ++ t) = (units? t).map fun (ns, rest) => (n :: ns, rest) := by
  rw [Writer.unit, String.toList_append, Text.toList_hexadecimal h]
  simp only [String.reduceToList, List.cons_append, List.nil_append, units?, unit?_digitChar h]
  cases units? t <;> rfl

theorem units?_escape {letter c : Char} (h : escape? letter = some c) (t : Text) :
    units? ('\\' :: letter :: t) = (units? t).map fun (ns, rest) => (c.toNat :: ns, rest) := by
  have hletter : letter ≠ 'u' := by
    rintro rfl
    cases h
  rw [units?, h]
  · cases units? t <;> rfl
  · intro a b c d r hu
    exact absurd hu hletter

theorem units?_plain {c : Char} (hspace : ' ' ≤ c) (hquote : c ≠ '"') (hslash : c ≠ '\\')
    (t : Text) : units? (c :: t) = (units? t).map fun (ns, rest) => (c.toNat :: ns, rest) := by
  have hprinted : (decide (c < ' ') || decide (c = '\\')) = false := by
    simp [hslash, Char.not_lt.mpr hspace]
  rw [units?.eq_def]
  split
  · next heq => exact absurd (List.cons.inj heq).1 hquote
  · next heq => exact absurd (List.cons.inj heq).1 hslash
  · next heq => exact absurd (List.cons.inj heq).1 hslash
  · next heq =>
      obtain ⟨rfl, rfl⟩ := List.cons.inj heq
      rw [hprinted]
      cases units? t <;> rfl
  · next heq => cases heq

/-- The code units of a character. -/
def unitsOf (c : Char) : List ℕ :=
  if c.toNat < 0x10000 then [c.toNat]
  else [0xD800 + (c.toNat - 0x10000) / 0x400, 0xDC00 + (c.toNat - 0x10000) % 0x400]

/-- A character is read as its code units, in whatever way it is written. -/
theorem units?_char (c : Char) (t : Text) :
    units? ((Writer.char c).toList ++ t) =
      (units? t).map fun (ns, rest) => (unitsOf c ++ ns, rest) := by
  have hescape : ∀ {letter : Char}, escape? letter = some c → c.toNat < 0x10000 →
      units? ('\\' :: letter :: t) = (units? t).map fun (ns, rest) => (unitsOf c ++ ns, rest) := by
    intro letter hletter hc
    rw [units?_escape hletter, unitsOf, if_pos hc]
    rfl
  unfold Writer.char
  split_ifs with hquote hslash hfeed hreturn htab hback hform hprinted hshort
  iterate 7
    · subst_vars
      exact hescape rfl (by decide)
  · have hshort : c.toNat < 0x10000 :=
      Nat.lt_of_le_of_lt (show c.toNat ≤ '~'.toNat from hprinted.2) (by decide)
    rw [unitsOf, if_pos hshort, String.toList_singleton]
    exact units?_plain hprinted.1 hquote hslash t
  · rw [units?_unit hshort, unitsOf, if_pos hshort]
    rfl
  · have hlong : c.toNat < 0x110000 := by
      have hvalid : c.toNat < 0xD800 ∨ 0xDFFF < c.toNat ∧ c.toNat < 0x110000 := c.valid
      omega
    rw [unitsOf, if_neg hshort, String.toList_append, List.append_assoc, units?_unit (by omega),
      units?_unit (by omega), Option.map_map]
    rfl

theorem ofUnit_toNat (c : Char) : ofUnit c.toNat = c := by
  have hvalid : c.toNat < 0xD800 ∨ 0xDFFF < c.toNat ∧ c.toNat < 0x110000 := c.valid
  have hscalar : ¬isSurrogate c.toNat := by
    simp only [isSurrogate, Bool.and_eq_true, decide_eq_true_eq]
    omega
  rw [ofUnit, if_neg hscalar, Char.ofNat_toNat]

/-- No character is a surrogate, so that the code units of a character stay together. -/
theorem ofUnits_unitsOf (c : Char) (ns : List ℕ) : ofUnits (unitsOf c ++ ns) = c :: ofUnits ns := by
  have hvalid : c.toNat < 0xD800 ∨ 0xDFFF < c.toNat ∧ c.toNat < 0x110000 := c.valid
  rw [unitsOf]
  split
  · cases ns with
    | nil => simp only [List.append_nil, ofUnits, ofUnit_toNat]
    | cons m ns =>
        have hsingle : ¬(0xD800 ≤ c.toNat ∧ c.toNat < 0xDC00 ∧ 0xDC00 ≤ m ∧ m < 0xE000) := by omega
        simp only [List.cons_append, List.nil_append, ofUnits, Bool.and_eq_true, decide_eq_true_eq,
          and_assoc, if_neg hsingle, ofUnit_toNat]
  · next hlong =>
      have hhigh : 0xD800 ≤ 0xD800 + (c.toNat - 0x10000) / 0x400 ∧
          0xD800 + (c.toNat - 0x10000) / 0x400 < 0xDC00 := by omega
      have hlow : 0xDC00 ≤ 0xDC00 + (c.toNat - 0x10000) % 0x400 ∧
          0xDC00 + (c.toNat - 0x10000) % 0x400 < 0xE000 := by omega
      have hcode : 0x10000 + (0xD800 + (c.toNat - 0x10000) / 0x400 - 0xD800) * 0x400 +
          (0xDC00 + (c.toNat - 0x10000) % 0x400 - 0xDC00) = c.toNat := by omega
      simp only [List.cons_append, List.nil_append, ofUnits, Bool.and_eq_true, decide_eq_true_eq,
        hhigh, hlow, and_self, if_true, hcode, Char.ofNat_toNat]

theorem units?_chars (s rest : Text) :
    units? ((s.flatMap fun c => (Writer.char c).toList) ++ '"' :: rest) =
      some (s.flatMap unitsOf, rest) := by
  induction s with
  | nil => rfl
  | cons c s ih =>
      rw [List.flatMap_cons, List.append_assoc, units?_char, ih]
      rfl

theorem ofUnits_flatMap (s : Text) : ofUnits (s.flatMap unitsOf) = s := by
  induction s with
  | nil => rfl
  | cons c s ih => rw [List.flatMap_cons, ofUnits_unitsOf, ih]

theorem toList_writer_string (s : String) :
    (Writer.string s).toList =
      '"' :: ((s.toList.flatMap fun c => (Writer.char c).toList) ++ ['"']) := by
  simp [Writer.string, List.flatMap, Function.comp_def]

/-- A text in quotation marks, with what follows it. -/
theorem string_written (s : String) (rest : Text) :
    string ((s.toList.flatMap fun c => (Writer.char c).toList) ++ '"' :: rest) = .ok (s, rest) := by
  rw [string, units?_chars]
  simp only [ofUnits_flatMap, String.ofList_toList]

end Reader

/-! ## Values -/

namespace Writer

theorem items_eq_map (level : ℕ) (vs : List Value) : items level vs = vs.map (value level) := by
  induction vs with
  | nil => rfl
  | cons v vs ih => rw [items, ih, List.map_cons]

theorem members_eq_map (level : ℕ) (ms : List (String × Value)) :
    members level ms = ms.map (member level) := by
  induction ms with
  | nil => rfl
  | cons m ms ih => rw [members, ih, List.map_cons]

/-- The mark between two parts on lines of their own. -/
def separator (level : ℕ) : Text :=
  ',' :: (newLine level).toList

/-- Parts on lines of their own up to the closing bracket. -/
def lines (level : ℕ) (closing : Char) (parts : List Text) : Text :=
  List.intercalate (separator (level + 1)) parts ++ ((newLine level).toList ++ [closing])

theorem lines_singleton (level : ℕ) (closing : Char) (part : Text) :
    lines level closing [part] = part ++ ((newLine level).toList ++ [closing]) := by
  rw [lines, List.intercalate_singleton]

theorem lines_cons_cons (level : ℕ) (closing : Char) (part next : Text) (parts : List Text) :
    lines level closing (part :: next :: parts) =
      part ++ ',' :: ((newLine (level + 1)).toList ++ lines level closing (next :: parts)) := by
  simp [lines, separator, List.append_assoc]

theorem head?_lines (level : ℕ) (closing : Char) {part : Text} {c : Char}
    (h : part.head? = some c) (parts : List Text) (rest : Text) :
    (lines level closing (part :: parts) ++ rest).head? = some c := by
  cases parts with
  | nil => simp [lines_singleton, List.head?_append, h]
  | cons next parts => simp [lines_cons_cons, List.head?_append, h]

/-- A key with a value that is written as a text. -/
def keyed (w : Value → Text) (m : String × Value) : Text :=
  (string m.1).toList ++ ':' :: ' ' :: w m.2

theorem toList_array (level : ℕ) (v : Value) (vs : List Value) :
    (value level (.array (v :: vs))).toList = '[' :: ((newLine (level + 1)).toList ++
      lines level ']' ((v :: vs).map fun u => (value (level + 1) u).toList)) := by
  rw [value, items_eq_map, block]
  simp [lines, separator, String.toList_intercalate, Function.comp_def]

theorem toList_object (level : ℕ) (m : String × Value) (ms : List (String × Value)) :
    (value level (.object (m :: ms))).toList = '\x7b' :: ((newLine (level + 1)).toList ++
      lines level '\x7d' ((m :: ms).map (keyed fun u => (value (level + 1) u).toList))) := by
  have hmember : ∀ n, (member (level + 1) n).toList =
      keyed (fun u => (value (level + 1) u).toList) n := by
    intro ⟨key, v⟩
    simp [member, keyed]
  rw [value, members_eq_map, block]
  simp [lines, separator, String.toList_intercalate, Function.comp_def, hmember]

end Writer

theorem Value.set_of_not_mem {key : String} {found : List (String × Value)}
    (h : key ∉ found.map (·.1)) (v : Value) : Value.set key v found = found ++ [(key, v)] := by
  induction found with
  | nil => rfl
  | cons m found ih =>
      rw [List.map_cons, List.mem_cons, not_or] at h
      rw [Value.set, if_neg (Ne.symm h.1), ih h.2, List.cons_append]

/-- A key that stands after others and is none of them. -/
theorem Value.set_of_nodup {found ms : List (String × Value)} {m : String × Value}
    (h : ((found ++ m :: ms).map (·.1)).Nodup) : Value.set m.1 m.2 found = found ++ [m] := by
  refine Value.set_of_not_mem ?_ m.2
  intro hmem
  rw [List.map_append] at h
  exact (List.nodup_append.mp h).2.2 _ hmem _ List.mem_cons_self rfl

namespace Reader

theorem skipGap_newLine (level : ℕ) (t : Text) :
    skipGap ((Writer.newLine level).toList ++ t) = skipGap t := by
  have hgaps : ∀ c ∈ (Writer.newLine level).toList, isGap c = true := by
    intro c hc
    obtain rfl | ⟨-, rfl⟩ : c = '\n' ∨ ¬2 * level = 0 ∧ c = ' ' := by
      simpa [Writer.newLine] using hc
    · rfl
    · rfl
  exact List.dropWhile_append_of_pos hgaps

theorem skipGap_cons {c : Char} (h : isGap c = false) (t : Text) : skipGap (c :: t) = c :: t :=
  List.dropWhile_cons_of_neg (by simp [h])

theorem skipGap_of_head? {t : Text} {c : Char} (h : t.head? = some c) (hc : isGap c = false) :
    skipGap t = t := by
  cases t with
  | nil => cases h
  | cons d t =>
      obtain rfl := Option.some.inj h
      exact skipGap_cons hc t

/-- That a value is read from a text, if lists and objects may be so deep, whatever follows. -/
structure Reads (depth : ℕ) (w : Text) (v : Value) : Prop where
  start : ∃ c, w.head? = some c ∧ isGap c = false ∧ c ≠ ']'
  value : ∀ fuel rest, w.length ≤ fuel → value fuel depth (w ++ rest) = .ok (v, rest)

/-- The first character takes one step. -/
theorem Reads.of_cons {depth : ℕ} {c : Char} {t : Text} {v : Value} (hgap : isGap c = false)
    (hclose : c ≠ ']') (h : ∀ fuel rest, t.length ≤ fuel →
      Reader.value (fuel + 1) depth (c :: (t ++ rest)) = .ok (v, rest)) :
    Reads depth (c :: t) v where
  start := ⟨c, rfl, hgap, hclose⟩
  value := by
    intro fuel rest hfuel
    obtain ⟨fuel, rfl⟩ := Nat.exists_eq_succ_of_ne_zero (Nat.ne_zero_of_lt hfuel)
    exact h fuel rest (Nat.le_of_succ_le_succ hfuel)

/-! ### Lists -/

/-- The items of a list are read one after the other up to the closing bracket. -/
theorem items_lines {depth : ℕ} {w : Value → Text} (level : ℕ) {v : Value} {vs : List Value}
    (h : ∀ u ∈ v :: vs, Reads depth (w u) u) {fuel : ℕ} (rest : Text)
    (hfuel : (Writer.lines level ']' ((v :: vs).map w)).length ≤ fuel) :
    items fuel depth (Writer.lines level ']' ((v :: vs).map w) ++ rest) = .ok (v :: vs, rest) := by
  induction vs generalizing v fuel with
  | nil =>
      have hv : Reads depth (w v) v := h v List.mem_cons_self
      rw [List.map_singleton, Writer.lines_singleton] at hfuel ⊢
      simp only [List.length_append, List.length_singleton] at hfuel
      obtain ⟨fuel, rfl⟩ : ∃ n, fuel = n + 1 := ⟨fuel - 1, by omega⟩
      have hclose : skipGap ((Writer.newLine level).toList ++ [']'] ++ rest) = ']' :: rest := by
        rw [List.append_assoc, skipGap_newLine]
        rfl
      rw [items, List.append_assoc, hv.value fuel _ (by omega)]
      simp only [Except.bind, bind, hclose]
  | cons u vs ih =>
      have hv : Reads depth (w v) v := h v List.mem_cons_self
      obtain ⟨c, hc, hgap, -⟩ := (h u (List.mem_cons_of_mem _ List.mem_cons_self)).start
      rw [List.map_cons, List.map_cons, Writer.lines_cons_cons, ← List.map_cons] at hfuel ⊢
      simp only [List.length_append, List.length_cons] at hfuel
      obtain ⟨fuel, rfl⟩ : ∃ n, fuel = n + 1 := ⟨fuel - 1, by omega⟩
      have hnext : skipGap ((Writer.newLine (level + 1)).toList ++
          Writer.lines level ']' ((u :: vs).map w) ++ rest) =
            Writer.lines level ']' ((u :: vs).map w) ++ rest := by
        rw [List.append_assoc, skipGap_newLine, List.map_cons,
          skipGap_of_head? (Writer.head?_lines level ']' hc _ rest) hgap]
      have hitems : items fuel depth (Writer.lines level ']' ((u :: vs).map w) ++ rest) =
          .ok (u :: vs, rest) := ih (fun x hx => h x (List.mem_cons_of_mem _ hx)) (by omega)
      rw [items, List.append_assoc, hv.value fuel _ (by omega)]
      simp only [Except.bind, bind, List.cons_append, skipGap_cons (c := ',') rfl, hnext,
        hitems]

theorem reads_array {level depth : ℕ} {vs : List Value}
    (h : ∀ v ∈ vs, Reads depth (Writer.value (level + 1) v).toList v) :
    Reads (depth + 1) (Writer.value level (.array vs)).toList (.array vs) := by
  cases vs with
  | nil =>
      have hempty : (Writer.value level (.array [])).toList = ['[', ']'] := by
        simp [Writer.value, Writer.items, Writer.block]
      rw [hempty]
      exact .of_cons rfl (by decide) fun fuel rest _ => rfl
  | cons v vs =>
      obtain ⟨c, hc, hgap, hclose⟩ := (h v List.mem_cons_self).start
      rw [Writer.toList_array]
      refine .of_cons rfl (by decide) fun fuel rest hfuel => ?_
      rw [List.length_append] at hfuel
      have hhead := Writer.head?_lines level ']' hc
        (vs.map fun u => (Writer.value (level + 1) u).toList) rest
      rw [List.append_assoc, Reader.value, skipGap_newLine, List.map_cons,
        skipGap_of_head? hhead hgap]
      split
      · next heq =>
          rw [heq] at hhead
          exact absurd (Option.some.inj hhead).symm hclose
      · have hitems := items_lines level h rest (Nat.le_of_add_left_le hfuel)
        rw [List.map_cons] at hitems
        rw [hitems]
        rfl

/-! ### Objects -/

theorem head?_keyed (w : Value → Text) (m : String × Value) :
    (Writer.keyed w m).head? = some '"' := by
  rw [Writer.keyed, toList_writer_string]
  rfl

/-- One member is read and set, and then the object ends or the next member follows. -/
theorem members_keyed {depth fuel : ℕ} {w : Value → Text} {m : String × Value}
    (h : Reads depth (w m.2) m.2) (hfuel : (w m.2).length ≤ fuel) (found : List (String × Value))
    (t : Text) :
    (∀ rest, skipGap t = '\x7d' :: rest →
      members (fuel + 1) depth found (Writer.keyed w m ++ t) =
        .ok (Value.set m.1 m.2 found, rest)) ∧
    ∀ r, skipGap t = ',' :: r →
      members (fuel + 1) depth found (Writer.keyed w m ++ t) =
        members fuel depth (Value.set m.1 m.2 found) (skipGap r) := by
  have hkeyed : Writer.keyed w m ++ t = '"' ::
      ((m.1.toList.flatMap fun c => (Writer.char c).toList) ++
        '"' :: ':' :: ' ' :: (w m.2 ++ t)) := by
    rw [Writer.keyed, toList_writer_string]
    simp
  have hvalue : value fuel depth (skipGap (' ' :: (w m.2 ++ t))) = .ok (m.2, t) := by
    obtain ⟨c, hc, hgap, -⟩ := h.start
    have hspace : skipGap (' ' :: (w m.2 ++ t)) = skipGap (w m.2 ++ t) := rfl
    have hhead : (w m.2 ++ t).head? = some c := by simp [List.head?_append, hc]
    rw [hspace, skipGap_of_head? hhead hgap, h.value fuel t hfuel]
  rw [hkeyed, members, string_written]
  constructor
  · intro rest hclose
    simp only [Except.bind, bind, skipGap_cons (c := ':') rfl, hvalue, hclose]
  · intro r hcomma
    simp only [Except.bind, bind, skipGap_cons (c := ':') rfl, hvalue, hcomma]

/-- The members of an object are read one after the other up to the closing bracket. -/
theorem members_lines {depth : ℕ} {w : Value → Text} (level : ℕ) {m : String × Value}
    {ms : List (String × Value)} (found : List (String × Value))
    (hkeys : ((found ++ m :: ms).map (·.1)).Nodup) (h : ∀ n ∈ m :: ms, Reads depth (w n.2) n.2)
    {fuel : ℕ} (rest : Text)
    (hfuel : (Writer.lines level '\x7d' ((m :: ms).map (Writer.keyed w))).length ≤ fuel) :
    members fuel depth found (Writer.lines level '\x7d' ((m :: ms).map (Writer.keyed w)) ++ rest) =
      .ok (found ++ m :: ms, rest) := by
  have hlength : ∀ n, (w n.2).length < (Writer.keyed w n).length := by
    intro n
    simp only [Writer.keyed, List.length_append, List.length_cons]
    omega
  induction ms generalizing m found fuel with
  | nil =>
      have hm : Reads depth (w m.2) m.2 := h m List.mem_cons_self
      rw [List.map_singleton, Writer.lines_singleton] at hfuel ⊢
      rw [List.length_append] at hfuel
      obtain ⟨fuel, rfl⟩ : ∃ n, fuel = n + 1 := ⟨fuel - 1, by have := hlength m; omega⟩
      have hvalue : (w m.2).length ≤ fuel := by have := hlength m; omega
      have hclose : skipGap ((Writer.newLine level).toList ++ ['\x7d'] ++ rest) =
          '\x7d' :: rest := by
        rw [List.append_assoc, skipGap_newLine]
        rfl
      rw [List.append_assoc, (members_keyed hm hvalue found _).1 rest hclose,
        Value.set_of_nodup hkeys]
  | cons n ms ih =>
      have hm : Reads depth (w m.2) m.2 := h m List.mem_cons_self
      rw [List.map_cons, List.map_cons, Writer.lines_cons_cons, ← List.map_cons] at hfuel ⊢
      simp only [List.length_append, List.length_cons] at hfuel
      obtain ⟨fuel, rfl⟩ : ∃ n, fuel = n + 1 := ⟨fuel - 1, by omega⟩
      have hvalue : (w m.2).length ≤ fuel := by have := hlength m; omega
      have hnext : skipGap ((Writer.newLine (level + 1)).toList ++
          Writer.lines level '\x7d' ((n :: ms).map (Writer.keyed w)) ++ rest) =
            Writer.lines level '\x7d' ((n :: ms).map (Writer.keyed w)) ++ rest := by
        rw [List.append_assoc, skipGap_newLine, List.map_cons,
          skipGap_of_head? (Writer.head?_lines level '\x7d' (head?_keyed w n) _ rest) rfl]
      have hmembers : members fuel depth (found ++ [m])
          (Writer.lines level '\x7d' ((n :: ms).map (Writer.keyed w)) ++ rest) =
            .ok (found ++ [m] ++ n :: ms, rest) :=
        ih _ (by simpa using hkeys) (fun x hx => h x (List.mem_cons_of_mem _ hx)) (by omega)
      rw [List.append_assoc, List.cons_append,
        (members_keyed hm hvalue found _).2 _ (skipGap_cons rfl _), hnext,
        Value.set_of_nodup hkeys, hmembers, List.append_assoc, List.singleton_append]

theorem reads_object {level depth : ℕ} {ms : List (String × Value)}
    (hkeys : (ms.map (·.1)).Nodup)
    (h : ∀ m ∈ ms, Reads depth (Writer.value (level + 1) m.2).toList m.2) :
    Reads (depth + 1) (Writer.value level (.object ms)).toList (.object ms) := by
  cases ms with
  | nil =>
      have hempty : (Writer.value level (.object [])).toList = ['\x7b', '\x7d'] := by
        simp [Writer.value, Writer.members, Writer.block]
      rw [hempty]
      exact .of_cons rfl (by decide) fun fuel rest _ => rfl
  | cons m ms =>
      rw [Writer.toList_object]
      refine .of_cons rfl (by decide) fun fuel rest hfuel => ?_
      rw [List.length_append] at hfuel
      have hhead := Writer.head?_lines level '\x7d'
        (head?_keyed (fun u => (Writer.value (level + 1) u).toList) m)
        (ms.map (Writer.keyed fun u => (Writer.value (level + 1) u).toList)) rest
      rw [List.append_assoc, Reader.value, skipGap_newLine, List.map_cons,
        skipGap_of_head? hhead rfl]
      split
      · next heq =>
          rw [heq] at hhead
          cases hhead
      · have hmembers := members_lines level [] hkeys h rest (Nat.le_of_add_left_le hfuel)
        rw [List.map_cons] at hmembers
        rw [hmembers]
        rfl

end Reader

/-- A value without numbers, in which lists and objects are not deeper than so many levels and no
key of an object stands twice. -/
inductive Value.Textual : ℕ → Value → Prop
  | null (depth) : Textual depth .null
  | bool (depth b) : Textual depth (.bool b)
  | string (depth s) : Textual depth (.string s)
  | array {depth vs} (h : ∀ v ∈ vs, Textual depth v) : Textual (depth + 1) (.array vs)
  | object {depth ms} (hkeys : (ms.map (·.1)).Nodup) (h : ∀ m ∈ ms, Textual depth m.2) :
      Textual (depth + 1) (.object ms)

theorem reads_of_textual {depth : ℕ} {v : Value} (h : v.Textual depth) (level : ℕ) :
    Reader.Reads depth (Writer.value level v).toList v := by
  induction h generalizing level with
  | null depth =>
      have hnull : (Writer.value level .null).toList = ['n', 'u', 'l', 'l'] := by
        rw [Writer.value]
        rfl
      rw [hnull]
      exact .of_cons rfl (by decide) fun fuel rest _ => rfl
  | bool depth b =>
      cases b with
      | true =>
          have htrue : (Writer.value level (.bool true)).toList = ['t', 'r', 'u', 'e'] := by
            rw [Writer.value]
            rfl
          rw [htrue]
          exact .of_cons rfl (by decide) fun fuel rest _ => rfl
      | false =>
          have hfalse : (Writer.value level (.bool false)).toList = ['f', 'a', 'l', 's', 'e'] := by
            rw [Writer.value]
            rfl
          rw [hfalse]
          exact .of_cons rfl (by decide) fun fuel rest _ => rfl
  | string depth s =>
      rw [Writer.value, Reader.toList_writer_string]
      refine .of_cons rfl (by decide) fun fuel rest _ => ?_
      rw [List.append_assoc, List.singleton_append, Reader.value, Reader.string_written]
      rfl
  | array h ih => exact Reader.reads_array fun v hv => ih v hv (level + 1)
  | object hkeys h ih => exact Reader.reads_object hkeys fun m hm => ih m hm (level + 1)

/-- A value without numbers is read from the text that it is written as. -/
theorem read_write {v : Value} (h : v.Textual Reader.depthLimit) : read (write v) = .ok v := by
  have hreads := reads_of_textual h 0
  obtain ⟨c, hc, hgap, -⟩ := hreads.start
  have hvalue := hreads.value (2 * (write v).toList.length + 2) [] (by rw [write]; omega)
  rw [List.append_nil] at hvalue
  simp only [read, write] at hvalue ⊢
  rw [Reader.skipGap_of_head? hc hgap, hvalue]
  rfl

end Json

end MarkupAudit
