import MarkupAudit.Proofs.Markup.Masking

/-! # Where values are read

An attribute is sought in the masked tag, and its value is read in the tag itself at the offset
where the search stopped. -/

namespace MarkupAudit

/-- What is found first is read in what follows some part of the text. -/
theorem Text.exists_read_of_firstStop {read? : Text → Option ℕ} {offset stop : ℕ} {t : Text}
    (h : firstStop read? offset t = some stop) :
    ∃ before r n, t = before ++ r ∧ read? r = some n ∧ stop = offset + before.length + n := by
  induction t generalizing offset with
  | nil =>
      obtain ⟨n, hn, rfl⟩ := Option.map_eq_some_iff.mp h
      exact ⟨[], [], n, rfl, hn, rfl⟩
  | cons c r ih =>
      rw [firstStop, Option.or_eq_some_iff] at h
      rcases h with hhere | ⟨-, hlater⟩
      · obtain ⟨n, hn, rfl⟩ := Option.map_eq_some_iff.mp hhere
        exact ⟨[], c :: r, n, rfl, hn, rfl⟩
      · obtain ⟨before, s, n, rfl, hn, rfl⟩ := ih hlater
        refine ⟨c :: before, s, n, rfl, hn, ?_⟩
        rw [List.length_cons]
        omega

namespace Markup

open Text

/-! ## Values -/

/-- A character that a value without quotation marks may have. -/
def isBare (c : Char) : Bool :=
  !(isBlank c || c = '"' || c = '\'' || c = '>')

/-- A text starts with a value: between two quotation marks of a kind that it does not have, or
bare, up to the first character that no bare value has. -/
inductive StartsWithValue : Text → Text → Prop
  | quoted (mark : Char) (value rest : Text) (hmark : mark ∈ ['"', '\'']) (h : mark ∉ value) :
      StartsWithValue (mark :: (value ++ mark :: rest)) value
  | bare (value rest : Text) (hne : value ≠ []) (hvalue : ∀ c ∈ value, isBare c)
      (hrest : rest.head?.all (!isBare ·)) : StartsWithValue (value ++ rest) value

theorem readValue?_mark {mark : Char} (hmark : mark ∈ ['"', '\'']) (r : Text) :
    readValue? (mark :: r) =
      if mark ∈ r then
        some ⟨(r.takeWhile (· != mark)).length + 2, r.takeWhile (· != mark)⟩
      else none := by
  have hquoted : (mark = '"' || mark = '\'') = true := by simpa using hmark
  simp only [readValue?, hquoted, if_true, List.contains_iff_mem]

theorem readValue?_bare {c : Char} (hc : c ∉ ['"', '\'']) (r : Text) :
    readValue? (c :: r) =
      if (c :: r).takeWhile isBare = [] then none
      else some ⟨((c :: r).takeWhile isBare).length, (c :: r).takeWhile isBare⟩ := by
  have hquoted : (c = '"' || c = '\'') = false := by simpa using hc
  rw [readValue?, hquoted]
  change (if ((c :: r).takeWhile isBare).isEmpty then none else _) = _
  simp only [List.isEmpty_iff]
  rfl

/-- The value that is read is the one that the text starts with. -/
theorem startsWithValue_iff {t value : Text} :
    StartsWithValue t value ↔ (readValue? t).map (·.value) = some value := by
  constructor
  · intro h
    cases h with
    | quoted mark value rest hmark hnone =>
        rw [readValue?_mark hmark, if_pos (by simp), takeWhile_mark hnone]
        rfl
    | bare value rest hne hvalue hrest =>
        have htake : (value ++ rest).takeWhile isBare = value := by
          rw [List.takeWhile_append_of_pos hvalue]
          cases rest <;> simp_all
        obtain ⟨c, r, rfl⟩ := List.exists_cons_of_ne_nil hne
        have hc : c ∉ ['"', '\''] := by
          have hbare := hvalue c (by simp)
          simp_all [isBare]
        rw [List.cons_append] at htake ⊢
        rw [readValue?_bare hc, htake, if_neg hne]
        rfl
  · intro h
    cases t with
    | nil => cases h
    | cons c r =>
        by_cases hc : c ∈ ['"', '\'']
        · rw [readValue?_mark hc] at h
          by_cases hmem : c ∈ r
          · obtain ⟨inside, behind, rfl, hinside⟩ := List.eq_append_cons_of_mem hmem
            rw [if_pos hmem, takeWhile_mark hinside] at h
            obtain rfl := Option.some.inj h
            exact .quoted c inside behind hc hinside
          · simp [hmem] at h
        · rw [readValue?_bare hc] at h
          by_cases hne : (c :: r).takeWhile isBare = []
          · simp [hne] at h
          · rw [if_neg hne] at h
            obtain rfl := Option.some.inj h
            have hrest : ((c :: r).dropWhile isBare).head?.all (!isBare ·) := by
              have hstop := List.head?_dropWhile_not isBare (c :: r)
              cases hhead : ((c :: r).dropWhile isBare).head? with
              | none => rfl
              | some d => simpa [hhead] using hstop
            have hbare := StartsWithValue.bare ((c :: r).takeWhile isBare)
              ((c :: r).dropWhile isBare) hne (List.all_eq_true.mp List.all_takeWhile) hrest
            rwa [List.takeWhile_append_dropWhile] at hbare

/-! ## The place of a value -/

/-- A closing bracket ends an opening tag. -/
theorem bracket_notMem_of_openingTag {t before behind : Text} {c : Char}
    (h : openingTag t = before ++ c :: behind) : '>' ∉ before := by
  induction t generalizing before with
  | nil => simp [openingTag] at h
  | cons d t ih =>
      rw [openingTag] at h
      cases before with
      | nil => simp
      | cons e before =>
          split at h
          · simp at h
          · next hd =>
              obtain ⟨rfl, hrest⟩ := List.cons.inj h
              simpa [Ne.symm hd] using ih hrest

theorem bracket_notMem_of_startsWithValue {tag value : Text} {q : ℕ}
    (h : StartsWithValue ((openingTag tag).drop q) value) : '>' ∉ value := by
  generalize hrest : (openingTag tag).drop q = rest at h
  cases h with
  | quoted mark value rest hmark hnone =>
      have hsplit : openingTag tag =
          ((openingTag tag).take q ++ mark :: value) ++ mark :: rest := by
        rw [List.append_assoc, List.cons_append, ← hrest, List.take_append_drop]
      have hbracket := bracket_notMem_of_openingTag hsplit
      exact fun hmem => hbracket (List.mem_append_right _ (List.mem_cons_of_mem mark hmem))
  | bare value rest hne hvalue =>
      intro hmem
      have hbare := hvalue '>' hmem
      revert hbare
      decide

/-- What is read before a value: the end of something, the name, white space, the equals sign, and
white space again. -/
theorem exists_sign_of_valueRead? {name r : Text} {n : ℕ} (h : valueRead? name r = some n) :
    ∃ c s, r = c :: s ∧ endsAttribute c ∧ startsLike name s ∧
      let sign := name.length + ((s.drop name.length).takeWhile isBlank).length
      s[sign]? = some '=' ∧ n = sign + 2 + ((s.drop (sign + 1)).takeWhile isBlank).length := by
  cases r with
  | nil => cases h
  | cons c s =>
      obtain ⟨hread, hn⟩ := Option.ite_none_right_eq_some.mp h
      simp only [Bool.and_eq_true, List.head?_drop] at hread
      obtain ⟨⟨hends, hstarts⟩, hsign⟩ := hread
      obtain ⟨d, hd, heq⟩ := (Option.any_eq_true _ _).mp hsign
      exact ⟨c, s, rfl, hends, hstarts, by rw [hd, beq_iff_eq.mp heq], (Option.some.inj hn).symm⟩

/-- Where a value can be sought, there is an attribute. -/
theorem isSome_attributeRead?_of_valueRead? {name r : Text} {n : ℕ}
    (h : valueRead? name r = some n) : (attributeRead? name r).isSome := by
  obtain ⟨c, s, rfl, hends, hstarts, hsign, -⟩ := exists_sign_of_valueRead? h
  have hname : endsName (s.drop name.length) := by
    rw [getElem?_eq_head?_dropWhile] at hsign
    simp [endsName, hsign]
  simp [attributeRead?, hends, hstarts, hname]

theorem hasAttribute_of_attributeValue? {tag name value : Text}
    (h : attributeValue? tag name = some value) : hasAttribute tag name := by
  rw [attributeValue?, valueAt?_eq] at h
  obtain ⟨found, hfound, -⟩ := Option.map_eq_some_iff.mp h
  obtain ⟨stop, hstop, -⟩ := Option.bind_eq_some_iff.mp hfound
  obtain ⟨before, r, n, hmasked, hread, -⟩ := exists_read_of_firstStop hstop
  obtain ⟨c, s, rfl, -⟩ := exists_sign_of_valueRead? hread
  rw [hasAttribute_eq, hmasked]
  exact isSome_firstStop_append (isSome_attributeRead?_of_valueRead? hread) before 0

/-- The search for a value stops behind an equals sign and white space, and not before white
space. -/
theorem exists_sign_of_first? {name t : Text} {found : Match}
    (h : (valuePattern name).first? t = some found) :
    ∃ sign < found.stop, t[sign]? = some '=' ∧
      (∀ i, sign < i → i < found.stop → t[i]?.any isBlank) ∧
      t[found.stop]?.any isBlank = false := by
  have hstop : firstStop (valueRead? name) 0 t = some found.stop := by
    rw [← (reads_valuePattern name).first?, h]
    rfl
  obtain ⟨before, r, n, rfl, hread, hn⟩ := exists_read_of_firstStop hstop
  obtain ⟨c, s, rfl, -, -, hsign, rfl⟩ := exists_sign_of_valueRead? hread
  generalize name.length + ((s.drop name.length).takeWhile isBlank).length = k at hsign hn
  have hget : (before ++ c :: s)[before.length + 1 + k]? = some '=' := by
    rw [List.getElem?_append_right (by omega), show before.length + 1 + k - before.length = k + 1 by
      omega, List.getElem?_cons_succ, hsign]
  have hdrop : (before ++ c :: s).drop (before.length + 1 + k + 1) = s.drop (k + 1) := by
    rw [Nat.add_assoc, Nat.add_assoc, ← List.drop_drop, List.drop_left, Nat.add_comm 1,
      List.drop_succ_cons]
  obtain ⟨hnone, hall⟩ := takeWhile_stop (before ++ c :: s) (before.length + 1 + k + 1) isBlank
  rw [hdrop] at hnone hall
  rw [show found.stop = before.length + 1 + k + 1 + ((s.drop (k + 1)).takeWhile isBlank).length by
    omega]
  exact ⟨before.length + 1 + k, by omega, hget, fun i hlo hhi => hall i hlo hhi, hnone⟩

/-- The search for a value in a masked text does not stop inside a quoted part, nor before the mark
that closes one. -/
theorem start_eq_of_first? {name t : Text} {found : Match}
    (h : (valuePattern name).first? (maskQuoted t) = some found) {r : ℕ × ℕ}
    (hr : r ∈ quotedParts t) (hle : r.1 ≤ found.stop) (hlt : found.stop < r.2) :
    r.1 = found.stop := by
  obtain ⟨sign, hsign, hequals, hblank, hstop⟩ := exists_sign_of_first? h
  obtain ⟨mark, hmark, -, hopen, -⟩ := (masks_maskQuoted t).marks r hr
  by_contra hne
  -- The equals sign stands behind the opening mark, on it, or before it.
  rcases Nat.lt_trichotomy r.1 sign with hbehind | rfl | hbefore
  · rw [(masks_maskQuoted t).inside r hr sign hbehind (by omega)] at hequals
    exact absurd hequals (by decide)
  · rw [hopen] at hequals
    obtain rfl := Option.some.inj hequals
    exact absurd hmark (by decide)
  · have hspace := hblank r.1 hbefore (by omega)
    rw [hopen] at hspace
    have hvisible : isBlank mark = false := by
      rcases List.mem_pair.mp hmark with rfl | rfl <;> decide
    simp [hvisible] at hspace

/-- A quoted value is a quoted part of the tag. -/
theorem mem_quotedParts_of_first? {name t value rest : Text} {found : Match} {mark : Char}
    (h : (valuePattern name).first? (maskQuoted t) = some found) (hmark : mark ∈ ['"', '\''])
    (hvalue : mark ∉ value) (hdrop : t.drop found.stop = mark :: (value ++ mark :: rest)) :
    (found.stop, found.stop + (value.length + 2)) ∈ quotedParts t := by
  have hstop : (quotations t).stop? found.stop = some (found.stop + (value.length + 2)) := by
    change (quotationRead? (t.drop found.stop)).map _ = _
    rw [hdrop, quotationRead?_mark hmark hvalue]
    rfl
  obtain ⟨r, hr, hle, hlt⟩ := (quotations t).exists_mem_scan (Nat.zero_le _) hstop
  have hstart : r.1 = found.stop :=
    start_eq_of_first? h (by rwa [quotedParts_eq_scan]) hle hlt
  have hsame : (quotations t).stop? found.stop = some r.2 := by
    rw [← hstart]
    exact ((quotations t).mem_scan hr).2
  rw [hstop] at hsame
  rwa [quotedParts_eq_scan, Option.some.inj hsame, ← hstart]

theorem attributeValue?_eq_some_iff {tag name value : Text} :
    attributeValue? tag name = some value ↔
      ∃ found, (valuePattern name).first? (maskQuoted (openingTag tag)) = some found ∧
        StartsWithValue ((openingTag tag).drop found.stop) value := by
  rw [attributeValue?, valueAt?]
  cases (valuePattern name).first? (maskQuoted (openingTag tag)) with
  | none => simp
  | some found => simp [startsWithValue_iff]

/-- Masking keeps the length of a text, all characters outside its quoted parts and the marks of
each part, puts spaces between these, and does nothing when it is done again. So an attribute that
has a value is there, and its value is the one that the opening tag has where the search in the
masked tag stops. The value has no closing bracket, and if it is quoted, it is what one of the
quoted parts of the tag encloses. -/
theorem values_read_where_sought (t tag name : Text) :
    Masks t (maskQuoted t) ∧ maskQuoted (maskQuoted t) = maskQuoted t ∧
      ∀ value, (attributeValue? tag name = some value ↔
          ∃ found, (valuePattern name).first? (maskQuoted (openingTag tag)) = some found ∧
            StartsWithValue ((openingTag tag).drop found.stop) value) ∧
        (attributeValue? tag name = some value →
          hasAttribute tag name ∧ '>' ∉ value ∧
            ∀ found, (valuePattern name).first? (maskQuoted (openingTag tag)) = some found →
              ∀ mark ∈ ['"', '\''], (openingTag tag)[found.stop]? = some mark →
                mark ∉ value ∧ (found.stop, found.stop + (value.length + 2)) ∈
                  quotedParts (openingTag tag)) := by
  refine ⟨masks_maskQuoted t, maskQuoted_maskQuoted t, fun value =>
    ⟨attributeValue?_eq_some_iff, fun h => ⟨hasAttribute_of_attributeValue? h, ?_⟩⟩⟩
  obtain ⟨found, hfound, hstarts⟩ := attributeValue?_eq_some_iff.mp h
  refine ⟨bracket_notMem_of_startsWithValue hstarts, fun other hother mark hmark hget => ?_⟩
  obtain rfl : found = other := Option.some.inj (hfound.symm.trans hother)
  generalize hrest : (openingTag tag).drop found.stop = rest at hstarts
  rw [← List.head?_drop, hrest] at hget
  cases hstarts with
  | quoted quote value behind hquote hvalue =>
      obtain rfl : quote = mark := Option.some.inj hget
      exact ⟨hvalue, mem_quotedParts_of_first? hfound hmark hvalue hrest⟩
  | bare value behind hne hvalue =>
      -- A bare value does not start with a quotation mark.
      obtain ⟨c, r, rfl⟩ := List.exists_cons_of_ne_nil hne
      obtain rfl : c = mark := Option.some.inj hget
      have hbare := hvalue c (by simp)
      simp_all [isBare]

/-- An assignment in a quoted value is passed over, also behind a mark of the other kind. -/
theorem values_read_where_sought_nested :
    let tag := "<a title=\"it's x=1\" X= '=\"2' y>z".toList
    let value := "=\"2".toList
    attributeValue? tag "x".toList = some value ∧ hasAttribute tag "x".toList ∧ '>' ∉ value ∧
      '\'' ∉ value ∧ (23, 28) ∈ quotedParts (openingTag tag) := by
  intro tag value
  have hvalue : attributeValue? tag "x".toList = some value := by decide +kernel
  have hfound : (valuePattern "x".toList).first? (maskQuoted (openingTag tag)) =
      some ⟨19, 23, " X= ".toList, []⟩ := by decide +kernel
  obtain ⟨-, -, hread⟩ := values_read_where_sought tag tag "x".toList
  obtain ⟨hhas, hbracket, hquoted⟩ := (hread value).2 hvalue
  obtain ⟨hmark, hmem⟩ := hquoted _ hfound '\'' (by decide) (by decide)
  exact ⟨hvalue, hhas, hbracket, hmark, hmem⟩

end Markup

end MarkupAudit
